import BrokerLoad.Proofs.Client.Answers
import BrokerLoad.Proofs.Client.Course

/-!
# A client on a connection

On a connection every deal of a client is a few exchanges with the network library. So a course is a
dialogue, in which each deal finds the connection up or down as the deal before it left it. What the
client itself keeps of a dialogue (the number of its messages, what its handler made of them, whether
it was asked to stop) follows from the exchanges.

## Main definitions

* `Connection.surroundings`: a connection and a clock as the surroundings of a client.
* `Client.Carries`: what a client takes from some exchanges.
* `Connection.Dialogue`: the exchanges of some deals.
* `Client.Visit`: how an action on a session ends on a connection.

## Main statements

* `Client.course_dialogue`: a course is a dialogue.
* `Client.SessionEnd.visit`: the ways in which an action on a session ends, with their exchanges.
* `Connection.Dialogue.work`: whether the connection is up after some work.
* `Connection.Dialogue.sent`: the sends that counted are the publishes that worked.
-/

namespace BrokerLoad

variable {τ σ η : Type}

/-! ## §1 Surroundings on a connection -/

/-- A connection and the clock as the surroundings of a client; `fuel` bounds the loop calls of each
wait. -/
def Connection.surroundings [Seconds τ] (c : Connection τ) (wire : Wire τ σ) (fuel : Nat)
    (handler : Handler τ η) (heedsSignals : Bool) (memory : Nat) : Surroundings τ (Line σ) η where
  session := c.session wire fuel
  timer := ⟨fun line => wire.timer.now line.env,
    fun t line =>
      let (outcome, env) := wire.timer.sleep t line.env
      (outcome, { line with env })⟩
  handler := handler
  heedsSignals := heedsSignals
  memory := memory

/-- What a connection reports is nothing that the client did. -/
theorem Connection.session_quiet [Seconds τ] (c : Connection τ) (wire : Wire τ σ) (fuel : Nat) :
    (c.session wire fuel).Quiet := by
  intro r line n hn
  obtain ⟨xs, -, hnoted⟩ := Connection.request_replies (c := c) (w := wire) fuel r line
  have houtside := hnoted.outside n hn
  cases hhappening : n.happening with
  | request r phase =>
    rw [hhappening] at houtside
    cases houtside
  | sleep duration =>
    rw [hhappening] at houtside
    cases houtside
  | _ => rfl

namespace Client

/-- From `s` to `t` a client notes `notes`: these tell of the exchanges `xs`. Every message that they
bring was counted and handled once, in their order, and a signal that asks to stop is remembered if
the client heeds signals. -/
structure Carries (c : Connection τ) (wire : Wire τ σ) (handler : Handler τ η) (heeds : Bool)
    (s : Traced (Note τ) (Client (Line σ) η)) (notes : List (Note τ)) (xs : List (Exchange τ))
    (t : Traced (Note τ) (Client (Line σ) η)) : Prop where
  trail : t.trail = notes.reverse ++ s.trail
  exchanges : wire.exchanges s.state.env.env notes = xs
  env : wire.after s.state.env.env notes = t.state.env.env
  messages : (messagesOf notes).map Prod.snd = c.passedOn (xs.flatMap Exchange.events)
  received : t.state.received = s.state.received + (messagesOf notes).length
  kept : t.state.kept = handler.acceptAll s.state.kept (messagesOf notes)
  stopping : t.state.stopping = (s.state.stopping || heeds && xs.any Exchange.stops)

variable {c : Connection τ} {wire : Wire τ σ} {handler : Handler τ η} {heeds : Bool}
  {s t u : Traced (Note τ) (Client (Line σ) η)} {notes more : List (Note τ)}
  {xs ys : List (Exchange τ)}

theorem Carries.trans (h : Carries c wire handler heeds s notes xs t)
    (h' : Carries c wire handler heeds t more ys u) :
    Carries c wire handler heeds s (notes ++ more) (xs ++ ys) u where
  trail := by rw [h'.trail, h.trail, List.reverse_append, List.append_assoc]
  exchanges := by rw [Wire.exchanges_append, h.exchanges, h.env, h'.exchanges]
  env := by rw [Wire.after_append, h.env, h'.env]
  messages := by
    rw [messagesOf, List.filterMap_append, List.map_append, List.flatMap_append,
      Connection.passedOn_append, ← h.messages, ← h'.messages]
    rfl
  received := by
    rw [h'.received, h.received, messagesOf, messagesOf, messagesOf, List.filterMap_append,
      List.length_append, Nat.add_assoc]
  kept := by
    rw [h'.kept, h.kept, messagesOf, messagesOf, messagesOf, List.filterMap_append,
      Handler.acceptAll, Handler.acceptAll, Handler.acceptAll, List.foldl_append]
  stopping := by
    rw [h'.stopping, h.stopping, List.any_append, Bool.or_assoc, Bool.and_or_distrib_left]

theorem passedOn_nil (c : Connection τ) : c.passedOn [] = [] := by
  unfold Connection.passedOn
  split <;> rfl

theorem Carries.refl (s : Traced (Note τ) (Client (Line σ) η)) :
    Carries c wire handler heeds s [] [] s where
  trail := rfl
  exchanges := rfl
  env := rfl
  messages := (passedOn_nil c).symm
  received := rfl
  kept := rfl
  stopping := by rw [List.any_nil, Bool.and_false, Bool.or_false]

theorem Carries.enter (h : Carries c wire handler heeds s notes xs t) (phase : Phase) :
    Carries c wire handler heeds s notes xs (inPhase phase t) :=
  ⟨h.trail, h.exchanges, h.env, h.messages, h.received, h.kept, h.stopping⟩

/-- The phase in which a client sets out does not matter. -/
theorem Carries.entered {phase : Phase}
    (h : Carries c wire handler heeds (inPhase phase s) notes xs t) :
    Carries c wire handler heeds s notes xs t :=
  ⟨h.trail, h.exchanges, h.env, h.messages, h.received, h.kept, h.stopping⟩

theorem Carries.history (h : Carries c wire handler heeds s notes xs t) :
    t.history = s.history ++ notes := by
  rw [Traced.history, h.trail, List.reverse_append, List.reverse_reverse]
  rfl

/-- A note that is not a call, a sleep or a message leaves all as it is. -/
theorem Carries.remarked {w : Surroundings τ (Line σ) η} (record : LogRecord) :
    Carries c wire handler heeds s [⟨w.timer.now s.state.env, .log record⟩] []
      (remarked w (.log record) s) where
  trail := rfl
  exchanges := rfl
  env := rfl
  messages := (passedOn_nil c).symm
  received := rfl
  kept := rfl
  stopping := by rw [List.any_nil, Bool.and_false, Bool.or_false]; rfl

/-- What is noted for the notes of a reply is, to the network, these notes. -/
theorem exchanges_noted (w : Surroundings τ (Line σ) η) (wire : Wire τ σ) (env : σ)
    (notes : List (Note τ)) :
    wire.exchanges env (notes.flatMap w.noted) = wire.exchanges env notes ∧
      wire.after env (notes.flatMap w.noted) = wire.after env notes := by
  have hnoted : ∀ (n : Note τ) env, wire.exchanges env (w.noted n) = wire.exchanges env [n] ∧
      wire.after env (w.noted n) = wire.after env [n] := by
    intro n env
    unfold Surroundings.noted
    split
    · split <;> exact ⟨rfl, rfl⟩
    · exact ⟨rfl, rfl⟩
  induction notes generalizing env with
  | nil => exact ⟨rfl, rfl⟩
  | cons n rest ih =>
    have hcons : n :: rest = [n] ++ rest := rfl
    rw [List.flatMap_cons, Wire.exchanges_append, Wire.after_append, (hnoted n env).1,
      (hnoted n env).2, (ih _).1, (ih _).2, hcons, Wire.exchanges_append, Wire.after_append]
    exact ⟨rfl, rfl⟩

theorem messagesOf_append (notes more : List (Note τ)) :
    messagesOf (notes ++ more) = messagesOf notes ++ messagesOf more := List.filterMap_append

theorem messagesOf_noted (w : Surroundings τ (Line σ) η) (notes : List (Note τ)) :
    messagesOf (notes.flatMap w.noted) = messagesOf notes := by
  have hnoted : ∀ n : Note τ, messagesOf (w.noted n) = messagesOf [n] := by
    rintro ⟨time, happening⟩
    cases happening with
    | signal number =>
      simp only [Surroundings.noted]
      split <;> rfl
    | _ => rfl
  induction notes with
  | nil => rfl
  | cons n rest ih =>
    have hcons : n :: rest = [n] ++ rest := rfl
    rw [List.flatMap_cons, messagesOf_append, hnoted, ih, hcons, messagesOf_append]

/-- A client that takes in the notes of a connection is asked to stop by signals only. -/
theorem any_stops {w : Surroundings τ (Line σ) η} {notes : List (Note τ)}
    (houtside : ∀ n ∈ notes, n.happening.isOutside = true) :
    (notes.any fun n => w.stops n.happening) =
      (w.heedsSignals && notes.any (·.happening.isStopSignal)) := by
  induction notes with
  | nil => rw [List.any_nil, List.any_nil, Bool.and_false]
  | cons n rest ih =>
    obtain ⟨hn, hrest⟩ := List.forall_mem_cons.mp houtside
    rw [List.any_cons, List.any_cons, ih hrest, Bool.and_or_distrib_left]
    congr 1
    obtain ⟨time, happening⟩ := n
    cases happening with
    | signal number => rfl
    | stopRequest => cases hn
    | _ => exact (Bool.and_false _).symm

section Deals

variable [Seconds τ] (c : Connection τ) (wire : Wire τ σ) (fuel : Nat) (handler : Handler τ η)
  (heeds : Bool) {memory : Nat} (s : Traced (Note τ) (Client (Line σ) η))

/-- A request brings a client what the exchanges that answer it bring. -/
theorem Carries.asked (r : Request τ) :
    let w := c.surroundings wire fuel handler heeds memory
    let xs := wire.exchanges s.state.env.env (w.session.answer r s.state.env).1.notes
    ∃ notes, Carries c wire handler heeds s notes xs (asked w r s) ∧
      Connection.Answer c s.state.env.link.connected r (requestDeal w r s).outcome xs
        (Client.asked w r s).state.env.link.connected := by
  intro w xs
  obtain ⟨ys, hanswer, hnoted⟩ :=
    Connection.request_replies (c := c) (w := wire) fuel r s.state.env
  obtain rfl : xs = ys := hnoted.exchanges
  let reply := ((c.session wire fuel).answer r s.state.env).1
  let request : Note τ := ⟨wire.timer.now s.state.env.env, .request r s.state.phase⟩
  have hevents : reply.notes.any (·.happening.isStopSignal) = xs.any Exchange.stops := by
    rw [hnoted.stops, List.any_flatMap]
    rfl
  have hmessages : messagesOf (request :: reply.notes.flatMap w.noted) =
      messagesOf reply.notes := messagesOf_noted w reply.notes
  refine ⟨request :: reply.notes.flatMap w.noted, ?_, ?_⟩
  · constructor
    · rw [List.reverse_cons, List.append_assoc]
      rfl
    · exact (exchanges_noted w wire s.state.env.env reply.notes).1
    · rw [asked_env]
      exact (exchanges_noted w wire s.state.env.env reply.notes).2.trans hnoted.env
    · rw [hmessages]
      exact hnoted.messages
    · rw [hmessages]
      exact received_foldl w _ _
    · rw [hmessages]
      exact kept_foldl w _ _
    · rw [← hevents]
      have hstops := stopping_foldl w { s.state with env := (w.session.answer r s.state.env).2 }
        reply.notes
      rw [any_stops hnoted.outside] at hstops
      exact hstops
  · rw [asked_env]
    exact hanswer

theorem Carries.slept (duration : τ) :
    let w := c.surroundings wire fuel handler heeds memory
    ∃ outcome, Carries c wire handler heeds s
        [⟨wire.timer.now s.state.env.env, .sleep duration⟩] [.sleep duration outcome]
        (slept w duration s) ∧
      (sleepDeal w duration s).outcome = outcome.mapError Stop.fault := by
  have hstopping : s.state.stopping = (s.state.stopping || heeds && false) := by
    rw [Bool.and_false, Bool.or_false]
  exact ⟨_, ⟨rfl, rfl, rfl, (passedOn_nil c).symm, rfl, rfl, hstopping⟩, rfl⟩

end Deals

end Client

/-! ## §2 Dialogues -/

namespace Connection

/-- The exchanges of some deals, each of which finds the connection as the one before it left it. -/
inductive Dialogue [Seconds τ] (c : Connection τ) (up : Bool) :
    List (Deal τ) → List (Exchange τ) → Bool → Prop
  | nil : Dialogue c up [] [] up
  | request {deals xs between d r phase ys down} : Dialogue c up deals xs between →
    d.Asks r phase → Answer c between r d.outcome ys down →
    Dialogue c up (deals ++ [d]) (xs ++ ys) down
  | sleep {deals xs between d duration outcome} : Dialogue c up deals xs between →
    d.note.happening = .sleep duration → d.outcome = outcome.mapError Stop.fault →
    Dialogue c up (deals ++ [d]) (xs ++ [.sleep duration outcome]) between

end Connection

/-- A course of a client on a connection is a dialogue, and brings the client what it brings. -/
theorem Client.course_dialogue [Seconds τ] {c : Connection τ} {wire : Wire τ σ} {fuel : Nat}
    {handler : Handler τ η} {heeds : Bool} {memory : Nat}
    {s t : Traced (Note τ) (Client (Line σ) η)} {deals : List (Deal τ)}
    (h : Client.Course (c.surroundings wire fuel handler heeds memory) s deals t) :
    ∃ notes xs, Client.Carries c wire handler heeds s notes xs t ∧
      c.Dialogue s.state.env.link.connected deals xs t.state.env.link.connected := by
  induction h with
  | stay => exact ⟨[], [], .refl s, .nil⟩
  | enter phase _ ih =>
    obtain ⟨notes, xs, hcarries, hdialogue⟩ := ih
    exact ⟨notes, xs, hcarries.enter phase, hdialogue⟩
  | log record _ ih =>
    obtain ⟨notes, xs, hcarries, hdialogue⟩ := ih
    have hlogged :=
      hcarries.trans (.remarked (w := c.surroundings wire fuel handler heeds memory) record)
    rw [List.append_nil] at hlogged
    exact ⟨_, xs, hlogged, hdialogue⟩
  | @request _ t r _ ih =>
    obtain ⟨notes, xs, hcarries, hdialogue⟩ := ih
    obtain ⟨more, hmore, hanswer⟩ := Client.Carries.asked c wire fuel handler heeds t r
    exact ⟨_, _, hcarries.trans hmore, hdialogue.request rfl hanswer⟩
  | @sleep _ t duration _ ih =>
    obtain ⟨notes, xs, hcarries, hdialogue⟩ := ih
    obtain ⟨outcome, hmore, hend⟩ := Client.Carries.slept c wire fuel handler heeds t duration
    exact ⟨_, _, hcarries.trans hmore, hdialogue.sleep rfl hend⟩

/-! ## §3 Sessions -/

namespace Client

section Visit

variable [Seconds τ] {α : Type} (c : Connection τ) (wire : Wire τ σ) (fuel : Nat)
  (handler : Handler τ η) (heeds : Bool) {memory : Nat}

/-- The exchanges of the handshake that a client makes in a state. -/
def handshake (s : Traced (Note τ) (Client (Line σ) η)) : List (Exchange τ) :=
  wire.exchanges s.state.env.env ((c.session wire fuel).connect s.state.env).1.notes

/-- How an action on a session ends on a connection: the broker is not reached or does not accept
the connection, or the body goes on for ever on it, or the session is closed after the body. -/
inductive Visit (body : Act τ (Line σ) η α) (s : Traced (Note τ) (Client (Line σ) η)) :
    Except Stop α → Traced (Note τ) (Client (Line σ) η) → Prop
  | turnedAway {notes stop t} : Carries c wire handler heeds s notes (handshake c wire fuel s) t →
    ((c.session wire fuel).connect s.state.env).1.outcome = .error stop →
    Connection.Answer c s.state.env.link.connected .connect (.error stop)
      (handshake c wire fuel s) t.state.env.link.connected →
    Visit body s (.error stop) t
  | endless {notes t u} : Carries c wire handler heeds s notes (handshake c wire fuel s) t →
    ((c.session wire fuel).connect s.state.env).1.outcome = .ok () →
    Connection.Answer c s.state.env.link.connected .connect (.ok ())
      (handshake c wire fuel s) t.state.env.link.connected →
    t.state.env = ((c.session wire fuel).connect s.state.env).2 →
    t.state.phase = .connected → Action.runFrom body t = (.error .outOfFuel, u) →
    Visit body s (.error .outOfFuel) u
  | closed {notes more ys t u v outcome result} :
    Carries c wire handler heeds s notes (handshake c wire fuel s) t →
    ((c.session wire fuel).connect s.state.env).1.outcome = .ok () →
    Connection.Answer c s.state.env.link.connected .connect (.ok ())
      (handshake c wire fuel s) t.state.env.link.connected →
    t.state.env = ((c.session wire fuel).connect s.state.env).2 →
    t.state.phase = .connected → Action.runFrom body t = (result, u) →
    result ≠ .error .outOfFuel → Carries c wire handler heeds u more ys v →
    Connection.Answer c u.state.env.link.connected .disconnect outcome ys
      v.state.env.link.connected →
    Visit body s (outcome.bind fun _ => result) v

/-- The request to close a session is answered like any other. -/
theorem Carries.closed (s : Traced (Note τ) (Client (Line σ) η)) :
    ∃ notes ys, Carries c wire handler heeds s notes ys
        (closed (c.surroundings wire fuel handler heeds memory) s) ∧
      Connection.Answer c s.state.env.link.connected .disconnect
        (closing (c.surroundings wire fuel handler heeds memory) s) ys
        (Client.closed (c.surroundings wire fuel handler heeds memory)
          s).state.env.link.connected := by
  obtain ⟨notes, hcarries, hanswer⟩ := Carries.asked c wire fuel handler heeds s .disconnect
  unfold Client.closed
  split
  · exact ⟨notes, _, hcarries, hanswer⟩
  · exact ⟨notes, _, hcarries.enter _, hanswer⟩

variable {c wire fuel handler heeds}

/-- The ways in which an action on any session ends, on a connection. -/
theorem SessionEnd.visit {body : Act τ (Line σ) η α} {s v : Traced (Note τ) (Client (Line σ) η)}
    {outcome : Except Stop α}
    (h : SessionEnd (c.surroundings wire fuel handler heeds memory) body s outcome v) :
    Visit c wire fuel handler heeds body s outcome v := by
  obtain ⟨notes, hasked, hanswer⟩ :=
    Carries.asked c wire fuel handler heeds (inPhase .connecting s) .connect
  have hopened : Carries c wire handler heeds s notes (handshake c wire fuel s)
      (opened (c.surroundings wire fuel handler heeds memory) s) := hasked.entered
  replace hanswer : Connection.Answer c s.state.env.link.connected .connect
      (opening (c.surroundings wire fuel handler heeds memory) s) (handshake c wire fuel s)
      (opened (c.surroundings wire fuel handler heeds memory) s).state.env.link.connected := hanswer
  have henv : (opened (c.surroundings wire fuel handler heeds memory) s).state.env =
      ((c.session wire fuel).connect s.state.env).2 := asked_env _ _
  cases h with
  | unopened hopen =>
    rw [hopen] at hanswer
    exact .turnedAway (hopened.enter .disconnected) hopen hanswer
  | waiting hopen =>
    rw [hopen] at hanswer
    exact .turnedAway hopened hopen hanswer
  | endless hopen hrun =>
    rw [hopen] at hanswer
    exact .endless (hopened.enter .connected) hopen hanswer henv rfl hrun
  | @broken f t hopen hrun =>
    rw [hopen] at hanswer
    obtain ⟨more, ys, hclosed, hclosing⟩ := Carries.closed c wire fuel handler heeds t
    exact .closed (hopened.enter .connected) hopen hanswer henv rfl hrun
      (Action.fault_ne_outOfFuel f) hclosed hclosing
  | @done a t hopen hrun =>
    rw [hopen] at hanswer
    obtain ⟨more, ys, hclosed, hclosing⟩ :=
      Carries.closed c wire fuel handler heeds (inPhase .disconnecting t)
    exact .closed (hopened.enter .connected) hopen hanswer henv rfl hrun (Action.ok_ne_outOfFuel a)
      hclosed.entered hclosing

end Visit

end Client

/-! ## §4 What dialogues tell -/

/-- Whether a request is made on an open session: it neither opens nor closes it. -/
def Request.isWork : Request τ → Bool
  | .connect | .disconnect => false
  | _ => true

/-- Whether a deal is made on an open session. -/
def Deal.isWork (d : Deal τ) : Bool :=
  match d.note.happening with
  | .request r _ => r.isWork
  | _ => true

/-- Whether a deal is a message that was published. -/
def Deal.isSent (d : Deal τ) : Bool :=
  match d.note.happening, d.outcome with
  | .request (.publish ..) _, .ok _ => true
  | _, _ => false

/-- Whether an exchange is a publish that the library accepted. -/
def Exchange.isSent : Exchange τ → Bool
  | .publish _ _ _ code _ => code == resultOk
  | _ => false

/-- Whether an exchange asks the library to connect. -/
def Exchange.isDial : Exchange τ → Bool
  | .connect .. => true
  | _ => false

/-- Whether an exchange neither opens nor closes a connection. -/
def Exchange.isWork (x : Exchange τ) : Bool := !x.isDial && !x.isHangUp

theorem Exchange.isWork_of_isLoop {x : Exchange τ} (h : x.isLoop = true) : x.isWork = true := by
  cases x with
  | loop => rfl
  | _ => cases h

theorem Exchange.not_isSent_of_isLoop {x : Exchange τ} (h : x.isLoop = true) :
    x.isSent = false := by
  cases x with
  | loop => rfl
  | _ => cases h

namespace Connection

variable [Seconds τ] {c : Connection τ} {up down : Bool} {deals : List (Deal τ)}
  {xs : List (Exchange τ)}

/-- A request on an open session leaves the connection as the loop calls say, and never ends it. -/
theorem Answer.work {r : Request τ} {outcome : Except Stop Unit}
    (h : Answer c up r outcome xs down) (hwork : r.isWork = true) :
    down = standing up (xs.flatMap Exchange.pumpSigns) ∧ ∀ x ∈ xs, x.isWork = true := by
  cases h with
  | subscribed hloops =>
    exact ⟨rfl, List.forall_mem_cons.mpr ⟨rfl, fun x hx => Exchange.isWork_of_isLoop (hloops x hx)⟩⟩
  | published => exact ⟨rfl, List.forall_mem_singleton.mpr rfl⟩
  | pumped =>
    rw [List.flatMap_singleton]
    exact ⟨rfl, List.forall_mem_singleton.mpr rfl⟩
  | _ => cases hwork

theorem Dialogue.work (h : Dialogue c up deals xs down) (hwork : ∀ d ∈ deals, d.isWork = true) :
    down = standing up (xs.flatMap Exchange.pumpSigns) ∧ ∀ x ∈ xs, x.isWork = true := by
  induction h with
  | nil => exact ⟨rfl, List.forall_mem_nil _⟩
  | @request deals xs between d r phase ys down _ hasks hanswer ih =>
    obtain ⟨hdeals, hd⟩ := List.forall_mem_append.mp hwork
    obtain ⟨hbetween, hxs⟩ := ih hdeals
    have hr : r.isWork = true := by
      have := List.forall_mem_singleton.mp hd
      rwa [Deal.isWork, hasks] at this
    obtain ⟨hdown, hys⟩ := hanswer.work hr
    refine ⟨?_, List.forall_mem_append.mpr ⟨hxs, hys⟩⟩
    rw [List.flatMap_append, standing_append, ← hbetween, hdown]
  | sleep _ _ _ ih =>
    obtain ⟨hbetween, hxs⟩ := ih (List.forall_mem_append.mp hwork).1
    refine ⟨?_, List.forall_mem_append.mpr ⟨hxs, List.forall_mem_singleton.mpr rfl⟩⟩
    rw [List.flatMap_append, List.flatMap_singleton]
    exact hbetween.trans (congrArg _ (List.append_nil _).symm)

omit [Seconds τ] in
/-- Loop calls after another exchange are no publishes. -/
theorem countP_isSent_cons {x : Exchange τ} {loops : List (Exchange τ)} (hx : x.isSent = false)
    (h : ∀ x ∈ loops, x.isLoop = true) : (x :: loops).countP Exchange.isSent = 0 := by
  refine List.countP_eq_zero.mpr fun y hy => ?_
  have hnot : y.isSent = false := by
    rcases List.mem_cons.mp hy with rfl | hy
    · exact hx
    · exact Exchange.not_isSent_of_isLoop (h y hy)
  rw [hnot]
  exact Bool.false_ne_true

omit [Seconds τ] in
/-- A publish ends without a fault if and only if the library accepted it. -/
theorem publishOutcome_ok (topic : String) (code : Int) :
    c.publishOutcome topic code = .ok () ↔ code = resultOk := by
  unfold publishOutcome
  split
  · next hlost =>
    rw [hlost]
    exact ⟨nofun, fun hok => absurd hok (by decide)⟩
  · split
    · next hcode => exact ⟨nofun, fun hok => absurd hok hcode⟩
    · next hcode => exact ⟨fun _ => Decidable.not_not.mp hcode, fun _ => rfl⟩

/-- A request is a message that was published if and only if the library accepted a publish. -/
theorem Answer.sent {d : Deal τ} {r : Request τ} {phase : Phase} (hasks : d.Asks r phase)
    (h : Answer c up r d.outcome xs down) :
    xs.countP Exchange.isSent = if d.isSent then 1 else 0 := by
  obtain ⟨⟨time, happening⟩, outcome⟩ := d
  obtain rfl : happening = .request r phase := hasks
  dsimp only at h
  cases h with
  | unreachable => rfl
  | accepted hloops _ => exact countP_isSent_cons rfl hloops
  | waiting hloops => exact countP_isSent_cons rfl hloops
  | turnedAway hloops =>
    rw [← List.cons_append, List.countP_append, countP_isSent_cons rfl hloops]
    rfl
  | subscribed hloops => exact countP_isSent_cons rfl hloops
  | pumped => rfl
  | closed => rfl
  | idle => rfl
  | @published _ topic payload qos code id =>
    rw [List.countP_singleton]
    cases hend : c.publishOutcome topic code with
    | ok _ =>
      have hcode : code = resultOk := (c.publishOutcome_ok topic code).mp hend
      rw [hcode]
      rfl
    | error stop =>
      have hcode : code ≠ resultOk := by
        intro hok
        rw [(c.publishOutcome_ok topic code).mpr hok] at hend
        cases hend
      rw [Exchange.isSent, beq_false_of_ne hcode]
      rfl

/-- As many messages were published as the library accepted publishes. -/
theorem Dialogue.sent (h : Dialogue c up deals xs down) :
    xs.countP Exchange.isSent = deals.countP Deal.isSent := by
  induction h with
  | nil => rfl
  | request _ hasks hanswer ih =>
    rw [List.countP_append, List.countP_append, ih, hanswer.sent hasks, List.countP_singleton]
  | sleep _ hsleep _ ih =>
    rw [List.countP_append, List.countP_append, ih, List.countP_singleton, List.countP_singleton,
      Deal.isSent, hsleep]
    rfl

end Connection

end BrokerLoad
