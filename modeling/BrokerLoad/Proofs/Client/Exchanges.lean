import BrokerLoad.Client.Connection
import BrokerLoad.Proofs.Client.Requests

/-!
# Exchanges with the network library

The notes of a connection name the calls of the network library, not what they brought. The library
is a function of its environment, though, so the notes can be played again: each call finds the
environment that the calls before it left, and gives the result that it gave then. A call with its
result is an exchange. What a connection remembers and what it passes on are functions of the
exchanges alone.

## Main definitions

* `Exchange`: a call of the library, or a sleep, with its result.
* `Wire.exchanges`, `Wire.after`: the exchanges that notes tell of, and the environment they leave.
* `Connection.Along`: a part of what a connection does, with its exchanges.

## Main statements

* `Wire.exchanges_append`: the exchanges of two stretches of notes.
* `Connection.loop_along`: a loop call is one exchange.
-/

namespace BrokerLoad

variable {τ σ η : Type}

/-! ## §1 Exchanges -/

/-- A call of the network library, or a sleep, and its result. -/
inductive Exchange (τ : Type) where
  | connect (host : String) (port keepalive : Int) (outcome : Except Fault Unit)
  | loop (timeout : τ) (events : List NetworkEvent) (code : Int)
  | publish (topic : String) (payload : Bytes) (qos code id : Int)
  | subscribe (topic : String) (qos code id : Int)
  | disconnect
  | sleep (duration : τ) (outcome : Except Fault Unit)

namespace Wire

variable (w : Wire τ σ)

/-- The exchange that a note tells of, if any, and the environment after it. -/
def replay (env : σ) (n : Note τ) : Option (Exchange τ) × σ :=
  match n.happening with
  | .network (.connect host port keepalive) =>
    let (outcome, env) := w.network.connect host port keepalive env
    (some (.connect host port keepalive outcome), env)
  | .network (.loop timeout) =>
    let ((events, code), env) := w.network.loop timeout env
    (some (.loop timeout events code), env)
  | .network (.publish topic payload qos) =>
    let ((code, id), env) := w.network.publish topic payload qos env
    (some (.publish topic payload qos code id), env)
  | .network (.subscribe topic qos) =>
    let ((code, id), env) := w.network.subscribe topic qos env
    (some (.subscribe topic qos code id), env)
  | .network .disconnect => (some .disconnect, w.network.disconnect env)
  | .sleep duration =>
    let (outcome, env) := w.timer.sleep duration env
    (some (.sleep duration outcome), env)
  | _ => (none, env)

/-- The exchanges that some notes tell of. -/
def exchanges : σ → List (Note τ) → List (Exchange τ)
  | _, [] => []
  | env, n :: rest => (w.replay env n).1.toList ++ exchanges (w.replay env n).2 rest

/-- The environment that the exchanges of some notes leave. -/
def after : σ → List (Note τ) → σ
  | env, [] => env
  | env, n :: rest => after (w.replay env n).2 rest

variable {w}

theorem exchanges_append (env : σ) (notes more : List (Note τ)) :
    w.exchanges env (notes ++ more) =
      w.exchanges env notes ++ w.exchanges (w.after env notes) more := by
  induction notes generalizing env with
  | nil => rfl
  | cons n rest ih => rw [List.cons_append, exchanges, ih, exchanges, after, List.append_assoc]

theorem after_append (env : σ) (notes more : List (Note τ)) :
    w.after env (notes ++ more) = w.after (w.after env notes) more := by
  induction notes generalizing env with
  | nil => rfl
  | cons n rest ih => exact ih _

/-- A note that tells of no exchange leaves the environment as it is. -/
theorem replay_none {env : σ} {n : Note τ} (h : (w.replay env n).1 = none) :
    (w.replay env n).2 = env := by
  obtain ⟨time, happening⟩ := n
  cases happening with
  | network call =>
    cases call with
    | client | credentials => rfl
    | _ => cases h
  | sleep duration => cases h
  | _ => rfl

theorem after_of_exchanges_nil {env : σ} {notes : List (Note τ)} (h : w.exchanges env notes = []) :
    w.after env notes = env := by
  induction notes generalizing env with
  | nil => rfl
  | cons n rest ih =>
    obtain ⟨hfirst, hrest⟩ := List.append_eq_nil_iff.mp h
    have henv := replay_none (Option.toList_eq_nil_iff.mp hfirst)
    rw [henv] at hrest
    rw [after, henv, ih hrest]

/-- A note that tells of a loop call tells what the network did. -/
theorem replay_loop {env : σ} {n : Note τ} {timeout : τ} {events : List NetworkEvent} {code : Int}
    (h : (w.replay env n).1 = some (.loop timeout events code)) :
    w.network.loop timeout env = ((events, code), (w.replay env n).2) := by
  obtain ⟨time, happening⟩ := n
  cases happening with
  | network call =>
    cases call with
    | loop timeout =>
      cases h
      rfl
    | _ => cases h
  | _ => cases h

/-- Notes of a single loop call tell what the network did. -/
theorem loop_of_exchanges {env : σ} {notes : List (Note τ)} {timeout : τ}
    {events : List NetworkEvent} {code : Int}
    (h : w.exchanges env notes = [.loop timeout events code]) :
    w.network.loop timeout env = ((events, code), w.after env notes) := by
  induction notes generalizing env with
  | nil => cases h
  | cons n rest ih =>
    rw [exchanges] at h
    cases hfirst : (w.replay env n).1 with
    | none =>
      have henv := replay_none hfirst
      rw [hfirst, henv] at h
      rw [after, henv]
      exact ih h
    | some x =>
      rw [hfirst] at h
      obtain ⟨rfl, hrest⟩ := List.cons.inj h
      rw [after, after_of_exchanges_nil hrest]
      exact replay_loop hfirst

end Wire

/-! ## §2 What exchanges tell -/

/-- Whether an event says that the broker accepted the connection, or that there is none. -/
def NetworkEvent.sign? : NetworkEvent → Option Bool
  | .answered code => some (!code.failure)
  | .disconnected _ => some false
  | _ => none

/-- The message that an event brings, if any. -/
def NetworkEvent.message? : NetworkEvent → Option Message
  | .message m => some m
  | _ => none

/-- Whether an event is a signal that asks the process to stop. -/
def NetworkEvent.stops : NetworkEvent → Bool
  | .signal number => asksToStop number
  | _ => false

namespace Exchange

/-- The events of an exchange. -/
def events : Exchange τ → List NetworkEvent
  | .loop _ events _ => events
  | _ => []

/-- The signs that the connection is up or down. -/
def signs (x : Exchange τ) : List Bool := x.events.filterMap NetworkEvent.sign?

/-- The signs of a pump: a loop call that failed is a sign, too. -/
def pumpSigns : Exchange τ → List Bool
  | .loop _ events code =>
    events.filterMap NetworkEvent.sign? ++ if code = resultOk then [] else [false]
  | _ => []

/-- The messages that an exchange brings. -/
def messages (x : Exchange τ) : List Message := x.events.filterMap NetworkEvent.message?

/-- Whether an exchange brings a signal that asks the process to stop. -/
def stops (x : Exchange τ) : Bool := x.events.any NetworkEvent.stops

/-- Whether an exchange is a call of `loop`. -/
def isLoop : Exchange τ → Bool
  | .loop .. => true
  | _ => false

/-- Whether an exchange tells the library to end the connection. -/
def isHangUp : Exchange τ → Bool
  | .disconnect => true
  | _ => false

end Exchange

/-- Whether a connection is up after some signs; the last one counts. -/
def standing (connected : Bool) (signs : List Bool) : Bool :=
  signs.foldl (fun _ sign => sign) connected

/-! ## §3 What a connection does -/

/-- Whether a happening comes from outside the client: it is not one of the client's deeds. -/
def Happening.isOutside : Happening τ → Bool
  | .log _ | .network _ | .message _ | .signal _ => true
  | .request .. | .sleep _ | .stopRequest => false

/-- Whether a happening is a signal that asks the process to stop. -/
def Happening.isStopSignal : Happening τ → Bool
  | .signal number => asksToStop number
  | _ => false

/-- What a connection remembers after an event. -/
def Link.react (link : Link) : NetworkEvent → Link
  | .answered code => { link with answer := some code, connected := !code.failure }
  | .disconnected _ => { link with connected := false }
  | .granted id codes => { link with grants := Connection.withGrant link.grants id codes }
  | _ => link

/-- A connection is up after some signs if one of them says so and none after it says otherwise. -/
theorem standing_of_clear (connected : Bool) (earlier : List Bool) {later : List Bool}
    (hclear : false ∉ later) : standing connected (earlier ++ true :: later) = true := by
  have hlater : later.foldl (fun _ sign => sign) true = true := by
    induction later with
    | nil => rfl
    | cons sign rest ih =>
      rw [List.mem_cons, not_or] at hclear
      cases sign with
      | false => exact absurd rfl hclear.1
      | true => exact ih hclear.2
  rw [standing, List.foldl_append]
  exact hlater

theorem standing_append (connected : Bool) (signs more : List Bool) :
    standing connected (signs ++ more) = standing (standing connected signs) more :=
  List.foldl_append

/-- The last sign among the events says whether the connection is up. -/
theorem Link.connected_foldl (events : List NetworkEvent) (link : Link) :
    (events.foldl Link.react link).connected =
      standing link.connected (events.filterMap NetworkEvent.sign?) := by
  induction events generalizing link with
  | nil => rfl
  | cons e rest ih =>
    rw [List.foldl_cons, ih]
    cases e <;> rfl

/-- An answer that a connection remembers was there before or is among the events. -/
theorem Link.answer_foldl {events : List NetworkEvent} {link : Link} {code : ReasonCode}
    (h : (events.foldl Link.react link).answer = some code) :
    link.answer = some code ∨ .answered code ∈ events := by
  induction events generalizing link with
  | nil => exact .inl h
  | cons e rest ih =>
    rcases ih h with hbefore | hlater
    · cases e with
      | answered answer =>
        cases hbefore
        exact .inr (List.mem_cons_self ..)
      | _ => exact .inl hbefore
    · exact .inr (List.mem_cons_of_mem _ hlater)

namespace Connection

/-- The messages that a connection passes on from some events. -/
def passedOn (c : Connection τ) (events : List NetworkEvent) : List Message :=
  if c.delivers then events.filterMap NetworkEvent.message? else []

theorem passedOn_append (c : Connection τ) (events more : List NetworkEvent) :
    c.passedOn (events ++ more) = c.passedOn events ++ c.passedOn more := by
  unfold passedOn
  split
  · exact List.filterMap_append
  · rfl

/-- From `s` to `t` a connection notes `notes`: these tell of the exchanges `xs` and of what it
passes on from some events. -/
structure Noted (c : Connection τ) (w : Wire τ σ) (s : Traced (Note τ) (Line σ))
    (notes : List (Note τ)) (xs : List (Exchange τ)) (events : List NetworkEvent)
    (t : Traced (Note τ) (Line σ)) : Prop where
  trail : t.trail = notes.reverse ++ s.trail
  exchanges : w.exchanges s.state.env notes = xs
  env : w.after s.state.env notes = t.state.env
  messages : (messagesOf notes).map Prod.snd = c.passedOn events
  stops : notes.any (·.happening.isStopSignal) = events.any NetworkEvent.stops
  outside : ∀ n ∈ notes, n.happening.isOutside = true

variable {c : Connection τ} {w : Wire τ σ} {s t u : Traced (Note τ) (Line σ)}
  {notes more : List (Note τ)} {xs ys : List (Exchange τ)} {events rest : List NetworkEvent}

theorem Noted.trans (h : Noted c w s notes xs events t) (h' : Noted c w t more ys rest u) :
    Noted c w s (notes ++ more) (xs ++ ys) (events ++ rest) u where
  trail := by rw [h'.trail, h.trail, List.reverse_append, List.append_assoc]
  exchanges := by rw [Wire.exchanges_append, h.exchanges, h.env, h'.exchanges]
  env := by rw [Wire.after_append, h.env, h'.env]
  messages := by
    rw [messagesOf, List.filterMap_append, List.map_append, passedOn_append, ← h.messages,
      ← h'.messages]
    rfl
  stops := by rw [List.any_append, List.any_append, h.stops, h'.stops]
  outside := List.forall_mem_append.mpr ⟨h.outside, h'.outside⟩

/-- What only changes the memory of a connection needs no note. -/
theorem Noted.unnoted (htrail : t.trail = s.trail) (henv : t.state.env = s.state.env) :
    Noted c w s [] [] [] t where
  trail := htrail
  exchanges := rfl
  env := henv.symm
  messages := by
    unfold passedOn
    split <;> rfl
  stops := rfl
  outside := List.forall_mem_nil _

theorem Noted.log (record : LogRecord) :
    Noted c w s [⟨w.timer.now s.state.env, .log record⟩] [] []
      { s with trail := ⟨w.timer.now s.state.env, .log record⟩ :: s.trail } where
  trail := rfl
  exchanges := rfl
  env := rfl
  messages := by
    unfold passedOn
    split <;> rfl
  stops := rfl
  outside := List.forall_mem_singleton.mpr rfl

/-- The connection after a call of the library that left the environment `env`. -/
def called (w : Wire τ σ) (noted : NetworkCall τ) (env : σ) (s : Traced (Note τ) (Line σ)) :
    Traced (Note τ) (Line σ) :=
  ⟨{ s.state with env }, ⟨w.timer.now s.state.env, .network noted⟩ :: s.trail⟩

theorem call_eq {α : Type} (noted : NetworkCall τ) (f : σ → α × σ)
    (s : Traced (Note τ) (Line σ)) :
    Action.runFrom (call w noted f) s =
      (.ok (f s.state.env).1, called w noted (f s.state.env).2 s) := rfl

/-- A call that is noted and changes the environment as its note says is an exchange. -/
theorem Noted.call {noted : NetworkCall τ} {x : Exchange τ} {env : σ}
    (hreplay : w.replay s.state.env ⟨w.timer.now s.state.env, .network noted⟩ = (some x, env)) :
    Noted c w s [⟨w.timer.now s.state.env, .network noted⟩] [x] [] (called w noted env s) where
  trail := rfl
  exchanges := by rw [Wire.exchanges, hreplay]; rfl
  env := by rw [Wire.after, hreplay]; rfl
  messages := by
    unfold passedOn
    split <;> rfl
  stops := rfl
  outside := List.forall_mem_singleton.mpr rfl

/-- What a connection notes for an event. -/
def reactNotes (c : Connection τ) (now : τ) (link : Link) : NetworkEvent → List (Note τ)
  | .disconnected code =>
    if link.connected then
      [⟨now, .log ⟨.info, logger,
        c.client ++ " disconnected from " ++ c.broker.text ++ ": " ++ code.name⟩⟩]
    else []
  | .message m => if c.delivers then [⟨now, .message m⟩] else []
  | .signal number => [⟨now, .signal number⟩]
  | _ => []

/-- A connection after its reaction to an event. -/
def reacted (c : Connection τ) (w : Wire τ σ) (s : Traced (Note τ) (Line σ)) (e : NetworkEvent) :
    Traced (Note τ) (Line σ) :=
  ⟨{ s.state with link := s.state.link.react e },
    (c.reactNotes (w.timer.now s.state.env) s.state.link e).reverse ++ s.trail⟩

theorem react_eq [Seconds τ] (e : NetworkEvent) (s : Traced (Note τ) (Line σ)) :
    Action.runFrom (react c w e) s = (.ok (), reacted c w s e) := by
  cases e with
  | disconnected code =>
    simp only [react, Action.runFrom_bind, Traced.runFrom_current]
    cases h : s.state.link.connected <;> simp [reacted, reactNotes, h] <;> rfl
  | message m =>
    simp only [react]
    cases h : c.delivers <;> simp [reacted, reactNotes, h] <;> rfl
  | _ => rfl

theorem Noted.react (e : NetworkEvent) (s : Traced (Note τ) (Line σ)) :
    Noted c w s (c.reactNotes (w.timer.now s.state.env) s.state.link e) [] [e]
      (reacted c w s e) := by
  have hnone : c.passedOn [] = [] := by
    unfold passedOn
    split <;> rfl
  cases e with
  | answered code => exact ⟨rfl, rfl, rfl, hnone.symm, rfl, List.forall_mem_nil _⟩
  | granted id codes => exact ⟨rfl, rfl, rfl, hnone.symm, rfl, List.forall_mem_nil _⟩
  | signal number =>
    exact ⟨rfl, rfl, rfl, hnone.symm, rfl, List.forall_mem_singleton.mpr rfl⟩
  | disconnected code =>
    simp only [reacted, reactNotes]
    split
    · exact ⟨rfl, rfl, rfl, hnone.symm, rfl, List.forall_mem_singleton.mpr rfl⟩
    · exact ⟨rfl, rfl, rfl, hnone.symm, rfl, List.forall_mem_nil _⟩
  | message m =>
    have hmessage : c.passedOn [.message m] = if c.delivers then [m] else [] := rfl
    simp only [reacted, reactNotes]
    split
    · next h =>
      rw [if_pos h] at hmessage
      exact ⟨rfl, rfl, rfl, hmessage.symm, rfl, List.forall_mem_singleton.mpr rfl⟩
    · next h =>
      rw [if_neg h] at hmessage
      exact ⟨rfl, rfl, rfl, hmessage.symm, rfl, List.forall_mem_nil _⟩

theorem reactAll_noted [Seconds τ] (events : List NetworkEvent) (s : Traced (Note τ) (Line σ)) :
    ∃ t notes, Action.runFrom (reactAll c w events) s = (.ok (), t) ∧
      Noted c w s notes [] events t ∧ t.state.link = events.foldl Link.react s.state.link := by
  induction events generalizing s with
  | nil => exact ⟨s, [], rfl, .unnoted rfl rfl, rfl⟩
  | cons e rest ih =>
    obtain ⟨t, notes, hrun, hnoted, hlink⟩ := ih (reacted c w s e)
    refine ⟨t, _, ?_, (Noted.react e s).trans hnoted, hlink⟩
    rw [reactAll, Action.runFrom_bind, react_eq]
    exact hrun

/-- From `s` to `t` a connection makes the exchanges `xs`, and passes on what they bring. -/
def Along (c : Connection τ) (w : Wire τ σ) (s : Traced (Note τ) (Line σ))
    (xs : List (Exchange τ)) (t : Traced (Note τ) (Line σ)) : Prop :=
  ∃ notes, Noted c w s notes xs (xs.flatMap Exchange.events) t

theorem Along.trans (h : Along c w s xs t) (h' : Along c w t ys u) : Along c w s (xs ++ ys) u := by
  obtain ⟨notes, hnotes⟩ := h
  obtain ⟨more, hmore⟩ := h'
  exact ⟨_, by rw [List.flatMap_append]; exact hnotes.trans hmore⟩

theorem Along.of_noted (h : Noted c w s notes xs events t)
    (hevents : xs.flatMap Exchange.events = events) : Along c w s xs t :=
  ⟨notes, by rwa [hevents]⟩

theorem Along.unnoted (htrail : t.trail = s.trail) (henv : t.state.env = s.state.env) :
    Along c w s [] t := .of_noted (.unnoted htrail henv) rfl

/-- A loop call is one exchange, and the connection reacts to its events. -/
theorem loop_along [Seconds τ] (timeout : τ) (s : Traced (Note τ) (Line σ)) :
    ∃ events code t, Action.runFrom (loop c w timeout) s = (.ok code, t) ∧
      Along c w s [.loop timeout events code] t ∧
      t.state.link = events.foldl Link.react s.state.link := by
  cases hloop : w.network.loop timeout s.state.env with
  | mk result env =>
    obtain ⟨events, code⟩ := result
    let met := called w (.loop timeout) env s
    have hcall : Noted c w s [⟨w.timer.now s.state.env, .network (.loop timeout)⟩]
        [.loop timeout events code] [] met := by
      apply Noted.call
      simp only [Wire.replay, hloop]
    obtain ⟨t, notes, hrun, hnoted, hlink⟩ := reactAll_noted (c := c) (w := w) events met
    refine ⟨events, code, t, ?_, .of_noted (hcall.trans hnoted) ?_, hlink⟩
    · simp only [loop, Action.runFrom_bind, call_eq, hloop]
      rw [hrun]
      rfl
    · rw [List.flatMap_singleton]
      rfl

end Connection

end BrokerLoad
