import BrokerLoad.Proofs.Client.Exchanges
import BrokerLoad.Proofs.Contract

/-!
# How a connection answers requests

Each request to a connection is answered by a few exchanges with the network library. Which ones,
how the request ends, and whether the connection is up afterwards is written down here as one
relation with a case for each way. The waits are loops, and what carries the proofs through them is
that a connection remembers nothing about its state but what the events told it last.

## Main definitions

* `Connection.Answer`: the answers to requests.

## Main statements

* `Connection.awaitAnswer_awaits`, `Connection.awaitGrant_along`: the two waits.
* `Connection.request_replies`: every request is answered.
-/

namespace BrokerLoad.Connection

variable {τ σ : Type}

/-! ## §1 The answers -/

/-- How a publish ends that the library answered with some code. -/
def publishOutcome (c : Connection τ) (topic : String) (code : Int) : Except Stop Unit :=
  if code = resultNoConnection then .error (.fault (.connect (.lost c.client c.broker)))
  else if code ≠ resultOk then .error (.fault (.publish (.failed topic (resultText code))))
  else .ok ()

/-- How a pump ends whose loop call gave some code. -/
def pumpOutcome (c : Connection τ) (code : Int) : Except Stop Unit :=
  if code ≠ resultOk then
    .error (.fault (.connect (.lostInLoop c.client c.broker (resultText code))))
  else .ok ()

/-- How a connection answers a request: whether it is up before it, how the request ends, the
exchanges that are made, and whether it is up after them. -/
inductive Answer [Seconds τ] (c : Connection τ) :
    Bool → Request τ → Except Stop Unit → List (Exchange τ) → Bool → Prop
  | unreachable {up f g} :
    Answer c up .connect (.error (.fault g))
      [.connect c.broker.host c.broker.port c.keepalive (.error f)] up
  | accepted {up loops} : (∀ x ∈ loops, x.isLoop = true) → true ∈ loops.flatMap Exchange.signs →
    Answer c up .connect (.ok ())
      (.connect c.broker.host c.broker.port c.keepalive (.ok ()) :: loops)
      (standing up (loops.flatMap Exchange.signs))
  | turnedAway {up e loops events code} : (∀ x ∈ loops, x.isLoop = true) →
    Answer c up .connect (.error (.fault (.connect e)))
      (.connect c.broker.host c.broker.port c.keepalive (.ok ()) ::
        (loops ++ [.disconnect, .loop Seconds.zero events code]))
      (standing false (events.filterMap NetworkEvent.sign?))
  | waiting {up loops} : (∀ x ∈ loops, x.isLoop = true) →
    Answer c up .connect (.error .outOfFuel)
      (.connect c.broker.host c.broker.port c.keepalive (.ok ()) :: loops)
      (standing up (loops.flatMap Exchange.signs))
  | subscribed {up topic qos code id loops outcome} : (∀ x ∈ loops, x.isLoop = true) →
    Answer c up (.subscribe topic qos) outcome (.subscribe topic qos code id :: loops)
      (standing up (loops.flatMap Exchange.pumpSigns))
  | published {up topic payload qos code id} :
    Answer c up (.publish topic payload qos) (c.publishOutcome topic code)
      [.publish topic payload qos code id] up
  | pumped {up timeout events code} :
    Answer c up (.pump timeout) (c.pumpOutcome code) [.loop timeout events code]
      (standing up (Exchange.pumpSigns (.loop timeout events code)))
  | closed {events code} :
    Answer c true .disconnect (.ok ()) [.disconnect, .loop handshakeSlice events code] false
  | idle : Answer c false .disconnect (.ok ()) [] false

/-! ## §2 Loops and pumps -/

variable {c : Connection τ} {w : Wire τ σ} {s t : Traced (Note τ) (Line σ)}

@[simp] theorem runFrom_now (s : Traced (Note τ) (Line σ)) :
    Action.runFrom (now w) s = (.ok (w.timer.now s.state.env), s) := rfl

/-- A connection with something changed in its memory. -/
def remembering (f : Link → Link) (s : Traced (Note τ) (Line σ)) : Traced (Note τ) (Line σ) :=
  { s with state := { s.state with link := f s.state.link } }

@[simp] theorem runFrom_remember (f : Link → Link) (s : Traced (Note τ) (Line σ)) :
    Action.runFrom (remember f) s = (.ok (), remembering f s) := rfl

theorem Along.remembering {xs : List (Exchange τ)} (h : Along c w s xs t) (f : Link → Link) :
    Along c w s xs (remembering f t) := by
  rw [← List.append_nil xs]
  exact h.trans (.unnoted rfl rfl)

/-- How a wait for the broker's answer ends, judged by the answer that is remembered then. -/
inductive Awaited : Option ReasonCode → Except Stop Unit → Prop
  | accepted {code} : code.failure = false → Awaited (some code) (.ok ())
  | failed {answer e} : Awaited answer (.error (.fault (.connect e)))
  | waiting {answer} : Awaited answer (.error .outOfFuel)

/-- A wait for the broker's answer has made some loop calls and ended. -/
structure AwaitsAnswer (c : Connection τ) (w : Wire τ σ) (s : Traced (Note τ) (Line σ))
    (loops : List (Exchange τ)) (e : Except Stop Unit × Traced (Note τ) (Line σ)) : Prop where
  along : Along c w s loops e.2
  onlyLoops : ∀ x ∈ loops, x.isLoop = true
  link : e.2.state.link = (loops.flatMap Exchange.events).foldl Link.react s.state.link
  awaited : Awaited e.2.state.link.answer e.1

theorem AwaitsAnswer.stay {outcome : Except Stop Unit}
    (h : Awaited s.state.link.answer outcome) : AwaitsAnswer c w s [] (outcome, s) :=
  ⟨.unnoted rfl rfl, List.forall_mem_nil _, rfl, h⟩

theorem AwaitsAnswer.connected {loops : List (Exchange τ)}
    {e : Except Stop Unit × Traced (Note τ) (Line σ)} (h : AwaitsAnswer c w s loops e) :
    e.2.state.link.connected = standing s.state.link.connected (loops.flatMap Exchange.signs) := by
  rw [h.link, Link.connected_foldl, List.filterMap_flatMap]
  rfl

/-- An accepted connection was accepted in one of the loop calls. -/
theorem AwaitsAnswer.accepted {loops : List (Exchange τ)} {t : Traced (Note τ) (Line σ)}
    (h : AwaitsAnswer c w s loops (.ok (), t)) (hnone : s.state.link.answer = none) :
    true ∈ loops.flatMap Exchange.signs := by
  have hawaited := h.awaited
  generalize hanswer : t.state.link.answer = answer at hawaited
  cases hawaited with
  | @accepted code hcode =>
    rw [h.link] at hanswer
    rcases Link.answer_foldl hanswer with hbefore | hevent
    · rw [hnone] at hbefore
      cases hbefore
    · obtain ⟨x, hx, hevent⟩ := List.mem_flatMap.mp hevent
      refine List.mem_flatMap.mpr ⟨x, hx, List.mem_filterMap.mpr ⟨_, hevent, ?_⟩⟩
      rw [NetworkEvent.sign?, hcode]
      rfl

variable [Seconds τ]

/-- The wait for the broker's answer only calls `loop`. -/
theorem awaitAnswer_awaits (deadline : τ) (fuel : Nat) (s : Traced (Note τ) (Line σ)) :
    ∃ loops, AwaitsAnswer c w s loops (Action.runFrom (awaitAnswer c w deadline fuel) s) := by
  induction fuel generalizing s with
  | zero => exact ⟨[], .stay .waiting⟩
  | succ fuel ih =>
    rw [awaitAnswer]
    simp only [Action.runFrom_bind (x := Traced.current), Traced.runFrom_current]
    cases hanswer : s.state.link.answer with
    | some code =>
      simp only [Action.runFrom_ite, Action.runFrom_fail, Action.runFrom_pure]
      split
      · exact ⟨[], .stay .failed⟩
      · next hcode => exact ⟨[], .stay (by rw [hanswer]; exact .accepted (by simpa using hcode))⟩
    | none =>
      simp only [Action.runFrom_bind (x := now w), runFrom_now, Action.runFrom_ite]
      split
      · exact ⟨[], .stay .failed⟩
      · obtain ⟨events, code, t, hrun, halong, hlink⟩ :=
          loop_along (c := c) (w := w) handshakeSlice s
        simp only [Action.runFrom_bind, hrun, Traced.runFrom_current, Action.runFrom_ite]
        split
        · refine ⟨_, halong, List.forall_mem_singleton.mpr rfl, ?_, .failed⟩
          rw [List.flatMap_singleton]
          exact hlink
        · obtain ⟨loops, h⟩ := ih t
          refine ⟨_, halong.trans h.along, List.forall_mem_cons.mpr ⟨rfl, h.onlyLoops⟩, ?_,
            h.awaited⟩
          rw [h.link, List.flatMap_append, List.flatMap_singleton, List.foldl_append, hlink]
          rfl

/-! ## §3 Requests -/

omit [Seconds τ] in
theorem hangUp_along (s : Traced (Note τ) (Line σ)) :
    ∃ t, Action.runFrom (hangUp w) s = (.ok (), t) ∧ Along c w s [.disconnect] t ∧
      t.state.link = s.state.link :=
  ⟨_, rfl, .of_noted (.call rfl) rfl, rfl⟩

theorem abandon_along (s : Traced (Note τ) (Line σ)) :
    ∃ events code t, Action.runFrom (abandon c w) s = (.ok (), t) ∧
      Along c w s [.disconnect, .loop Seconds.zero events code] t ∧
      t.state.link.connected = standing false (events.filterMap NetworkEvent.sign?) := by
  obtain ⟨t, hhangUp, hdown, hlink⟩ := hangUp_along (c := c) (w := w)
    (remembering (fun link => { link with connected := false }) s)
  obtain ⟨events, code, u, hrun, halong, hlink'⟩ := loop_along (c := c) (w := w) Seconds.zero t
  refine ⟨events, code, u, ?_, ?_, ?_⟩
  · simp only [abandon, Action.runFrom_bind, runFrom_remember, hhangUp, Action.runFrom_discard,
      hrun]
  · have hstart : Along c w s [] (remembering (fun link => { link with connected := false }) s) :=
      .unnoted rfl rfl
    exact (hstart.trans hdown).trans halong
  · rw [hlink', Link.connected_foldl, hlink]
    rfl

/-- From `s` a request ended: the connection made some exchanges, which answer the request. -/
def Answered (c : Connection τ) (w : Wire τ σ) (r : Request τ) (s : Traced (Note τ) (Line σ))
    (xs : List (Exchange τ)) (e : Except Stop Unit × Traced (Note τ) (Line σ)) : Prop :=
  Along c w s xs e.2 ∧ Answer c s.state.link.connected r e.1 xs e.2.state.link.connected

/-- What follows once the library has opened a connection. -/
def greet (c : Connection τ) (w : Wire τ σ) (deadline : τ) (fuel : Nat) : Act τ σ Unit := do
  Action.recover (awaitAnswer c w deadline fuel) fun
    | .connect e => some do
      abandon c w
      Action.fail (.connect e)
    | _ => none
  log w .debug (c.client ++ " connected to " ++ c.broker.text)

theorem greet_answer (deadline : τ) (fuel : Nat) (s : Traced (Note τ) (Line σ))
    (hnone : s.state.link.answer = none) :
    ∃ xs, Along c w s xs (Action.runFrom (greet c w deadline fuel) s).2 ∧
      Answer c s.state.link.connected .connect (Action.runFrom (greet c w deadline fuel) s).1
        (.connect c.broker.host c.broker.port c.keepalive (.ok ()) :: xs)
        (Action.runFrom (greet c w deadline fuel) s).2.state.link.connected := by
  obtain ⟨loops, h⟩ := awaitAnswer_awaits (c := c) (w := w) deadline fuel s
  cases hrun : Action.runFrom (awaitAnswer c w deadline fuel) s with
  | mk outcome t =>
    rw [hrun] at h
    simp only [greet, Action.runFrom_bind, Action.recover, Action.runFrom_ofFunction, hrun]
    have hawaited := h.awaited
    dsimp only at hawaited
    generalize t.state.link.answer = answer at hawaited
    cases hawaited with
    | accepted _ =>
      have hlog : Along c w t [] (Action.runFrom
          (log w .debug (c.client ++ " connected to " ++ c.broker.text)) t).2 :=
        .of_noted (.log _) rfl
      refine ⟨loops ++ [], h.along.trans hlog, ?_⟩
      have hanswer : Answer c s.state.link.connected .connect (.ok ())
          (.connect c.broker.host c.broker.port c.keepalive (.ok ()) :: loops)
          (standing s.state.link.connected (loops.flatMap Exchange.signs)) :=
        .accepted h.onlyLoops (h.accepted hnone)
      rw [← h.connected, ← List.append_nil loops] at hanswer
      exact hanswer
    | waiting =>
      have hanswer : Answer c s.state.link.connected .connect (.error .outOfFuel)
          (.connect c.broker.host c.broker.port c.keepalive (.ok ()) :: loops)
          (standing s.state.link.connected (loops.flatMap Exchange.signs)) := .waiting h.onlyLoops
      rw [← h.connected] at hanswer
      exact ⟨loops, h.along, hanswer⟩
    | @failed _ e =>
      obtain ⟨events, code, u, habandon, halong, hdown⟩ := abandon_along (c := c) (w := w) t
      simp only [Action.runFrom_bind, habandon, Action.runFrom_fail]
      refine ⟨_, h.along.trans halong, ?_⟩
      rw [hdown]
      exact .turnedAway h.onlyLoops

/-- What a connection makes of the fault of a library that could not connect. -/
def openFault (c : Connection τ) : Fault → Fault
  | .os e => .connect (.unreachable c.broker e.message)
  | .value e => .connect (.unreachable c.broker e.message)
  | .config e => .connect (.unreachable c.broker e.message)
  | f => f

/-- A connection about to connect has no answer yet. -/
def fresh (s : Traced (Note τ) (Line σ)) : Traced (Note τ) (Line σ) :=
  remembering (fun link => { link with answer := none }) s

/-- A connection whose library was asked to connect. -/
def dialled (c : Connection τ) (w : Wire τ σ) (s : Traced (Note τ) (Line σ)) :
    Traced (Note τ) (Line σ) :=
  called w (.connect c.broker.host c.broker.port c.keepalive)
    (w.network.connect c.broker.host c.broker.port c.keepalive s.state.env).2 (fresh s)

theorem connect_eq (fuel : Nat) (s : Traced (Note τ) (Line σ)) :
    Action.runFrom (connect c w fuel) s =
      match (w.network.connect c.broker.host c.broker.port c.keepalive s.state.env).1 with
      | .ok () =>
        Action.runFrom
          (greet c w (Seconds.add (w.timer.now (dialled c w s).state.env) c.connectTimeout) fuel)
          (dialled c w s)
      | .error f => (.error (.fault (c.openFault f)), dialled c w s) := by
  have henv : (remembering (fun link => { link with answer := none }) s).state.env = s.state.env :=
    rfl
  simp only [connect, Action.runFrom_bind, runFrom_remember, call_eq, henv, dialled, fresh]
  generalize w.network.connect c.broker.host c.broker.port c.keepalive s.state.env = answer
  obtain ⟨opened, env⟩ := answer
  cases opened with
  | ok _ => rfl
  | error f => cases f <;> rfl

theorem connect_answered (fuel : Nat) (s : Traced (Note τ) (Line σ)) :
    ∃ xs, Answered c w .connect s xs (Action.runFrom (connect c w fuel) s) := by
  have hfresh : Along c w s [] (fresh s) := .unnoted rfl rfl
  have hdialled : Along c w s [.connect c.broker.host c.broker.port c.keepalive
      (w.network.connect c.broker.host c.broker.port c.keepalive s.state.env).1]
      (dialled c w s) := hfresh.trans (.of_noted (.call rfl) rfl)
  rw [connect_eq]
  cases hopened : (w.network.connect c.broker.host c.broker.port c.keepalive s.state.env).1 with
  | error f =>
    rw [hopened] at hdialled
    exact ⟨_, hdialled, .unreachable⟩
  | ok _ =>
    rw [hopened] at hdialled
    obtain ⟨xs, halong, hanswer⟩ := greet_answer (c := c) (w := w)
      (Seconds.add (w.timer.now (dialled c w s).state.env) c.connectTimeout) fuel
      (dialled c w s) rfl
    exact ⟨_, hdialled.trans halong, hanswer⟩

/-- What matters about an action is how it ended, whatever its value. -/
def unvalued {α : Type} (e : Except Stop α × Traced (Note τ) (Line σ)) :
    Except Stop Unit × Traced (Note τ) (Line σ) := (e.1.map fun _ => (), e.2)

theorem publish_answered (topic : String) (payload : Bytes) (qos : Int)
    (s : Traced (Note τ) (Line σ)) :
    ∃ xs, Answered c w (.publish topic payload qos) s xs
      (unvalued (Action.runFrom (publish c w topic payload qos) s)) := by
  let answer := w.network.publish topic payload qos s.state.env
  let met := called w (.publish topic payload qos) answer.2 s
  have halong : Along c w s [.publish topic payload qos answer.1.1 answer.1.2] met :=
    .of_noted (.call rfl) rfl
  have hrun : unvalued (Action.runFrom (publish c w topic payload qos) s) =
      (c.publishOutcome topic answer.1.1, met) := by
    have hanswer : w.network.publish topic payload qos s.state.env = answer := rfl
    simp only [publish, Action.runFrom_bind, call_eq, publishOutcome, unvalued, Action.runFrom_ite,
      Action.runFrom_fail, Action.runFrom_pure, hanswer]
    by_cases hlost : answer.1.1 = resultNoConnection
    · rw [if_pos hlost, if_pos hlost]
      rfl
    · rw [if_neg hlost, if_neg hlost]
      by_cases hok : answer.1.1 = resultOk
      · rw [if_neg (fun h => h hok), if_neg (fun h => h hok)]
        rfl
      · rw [if_pos hok, if_pos hok]
        rfl
  rw [hrun]
  exact ⟨_, halong, .published⟩

theorem pump_answered (timeout : τ) (s : Traced (Note τ) (Line σ)) :
    ∃ events code, Answered c w (.pump timeout) s [.loop timeout events code]
      (Action.runFrom (pump c w timeout) s) := by
  obtain ⟨events, code, t, hrun, halong, hlink⟩ := loop_along (c := c) (w := w) timeout s
  have hsigns : t.state.link.connected =
      standing s.state.link.connected (events.filterMap NetworkEvent.sign?) := by
    rw [hlink, Link.connected_foldl]
  have hanswer : Answer c s.state.link.connected (.pump timeout) (c.pumpOutcome code)
      [.loop timeout events code]
      (standing s.state.link.connected (Exchange.pumpSigns (.loop timeout events code))) := .pumped
  refine ⟨events, code, ?_⟩
  simp only [pump, Action.runFrom_bind, hrun, Action.runFrom_ite]
  rw [Exchange.pumpSigns, standing_append, ← hsigns, pumpOutcome] at hanswer
  by_cases hok : code = resultOk
  · rw [if_neg (fun h => h hok), if_pos hok] at hanswer
    rw [if_neg (fun h => h hok)]
    exact ⟨halong, hanswer⟩
  · rw [if_pos hok, if_neg hok] at hanswer
    rw [if_pos hok]
    exact ⟨halong.remembering fun link => { link with connected := false }, hanswer⟩

theorem Answer.pump_up {up down : Bool} {timeout : τ} {outcome : Except Stop Unit}
    {xs : List (Exchange τ)} (h : Answer c up (.pump timeout) outcome xs down) :
    down = standing up (xs.flatMap Exchange.pumpSigns) := by
  cases h
  rw [List.flatMap_singleton]

/-- A wait for the answer to a subscription only pumps. -/
theorem awaitGrant_along (topic : String) (id : Int) (deadline : τ) (fuel : Nat)
    (s : Traced (Note τ) (Line σ)) :
    ∃ loops, Along c w s loops (Action.runFrom (awaitGrant c w topic id deadline fuel) s).2 ∧
      (∀ x ∈ loops, x.isLoop = true) ∧
      (Action.runFrom (awaitGrant c w topic id deadline fuel) s).2.state.link.connected =
        standing s.state.link.connected (loops.flatMap Exchange.pumpSigns) := by
  induction fuel generalizing s with
  | zero => exact ⟨[], .unnoted rfl rfl, List.forall_mem_nil _, rfl⟩
  | succ fuel ih =>
    rw [awaitGrant]
    simp only [Action.runFrom_bind (x := Traced.current), Traced.runFrom_current]
    cases s.state.link.grants.lookup id with
    | some codes => exact ⟨[], .unnoted rfl rfl, List.forall_mem_nil _, rfl⟩
    | none =>
      simp only [Action.runFrom_bind (x := now w), runFrom_now, Action.runFrom_ite]
      split
      · exact ⟨[], .unnoted rfl rfl, List.forall_mem_nil _, rfl⟩
      · obtain ⟨events, code, halong, hanswer⟩ := pump_answered (c := c) (w := w) handshakeSlice s
        have hup := hanswer.pump_up
        rw [Action.runFrom_bind]
        generalize Action.runFrom (pump c w handshakeSlice) s = e at halong hup
        obtain ⟨outcome, t⟩ := e
        cases outcome with
        | error stop => exact ⟨_, halong, List.forall_mem_singleton.mpr rfl, hup⟩
        | ok _ =>
          obtain ⟨loops, hloops, honly, hup'⟩ := ih t
          refine ⟨_, halong.trans hloops, List.forall_mem_cons.mpr ⟨rfl, honly⟩, ?_⟩
          rw [List.flatMap_append, standing_append, ← hup]
          exact hup'

theorem subscribe_answered (topic : String) (qos : Int) (fuel : Nat)
    (s : Traced (Note τ) (Line σ)) :
    ∃ xs, Answered c w (.subscribe topic qos) s xs
      (Action.runFrom (subscribe c w topic qos fuel) s) := by
  let answer := w.network.subscribe topic qos s.state.env
  let met := called w (.subscribe topic qos) answer.2 s
  have halong : Along c w s [.subscribe topic qos answer.1.1 answer.1.2] met :=
    .of_noted (.call rfl) rfl
  have hanswer : w.network.subscribe topic qos s.state.env = answer := rfl
  simp only [subscribe, Action.runFrom_bind (x := call _ _ _), call_eq, hanswer,
    Action.runFrom_ite, Action.runFrom_bind (x := Action.fail _), Action.runFrom_fail]
  split
  · exact ⟨_, halong, .subscribed (List.forall_mem_nil _)⟩
  · split
    · exact ⟨_, halong, .subscribed (List.forall_mem_nil _)⟩
    · obtain ⟨loops, hloops, honly, hup⟩ := awaitGrant_along (c := c) (w := w) topic answer.1.2
        (Seconds.add (w.timer.now met.state.env) standardTimeout) fuel met
      have hanswered : ∀ outcome u, u = (Action.runFrom (awaitGrant c w topic answer.1.2
            (Seconds.add (w.timer.now met.state.env) standardTimeout) fuel) met).2 →
          ∃ xs, Answered c w (.subscribe topic qos) s xs (outcome, u) := by
        rintro outcome u rfl
        refine ⟨_, halong.trans hloops, ?_⟩
        rw [hup]
        exact .subscribed honly
      simp only [Action.runFrom_bind, runFrom_now]
      -- the codes that were granted only decide about the outcome
      split
      · next codes u hrun =>
        split <;> exact hanswered _ _ (by rw [hrun])
      · next stop u hrun => exact hanswered _ _ (by rw [hrun])

theorem disconnect_answered (s : Traced (Note τ) (Line σ)) :
    ∃ xs, Answered c w .disconnect s xs (Action.runFrom (disconnect c w) s) := by
  simp only [disconnect, Action.runFrom_bind, Traced.runFrom_current, Action.runFrom_ite]
  cases hup : s.state.link.connected with
  | false =>
    refine ⟨[], .unnoted rfl rfl, ?_⟩
    rw [hup]
    simp only [Bool.false_eq_true, if_false, Action.runFrom_pure, hup]
    exact .idle
  | true =>
    obtain ⟨t, hhangUp, hdown, -⟩ := hangUp_along (c := c) (w := w) s
    obtain ⟨events, code, u, hrun, halong, -⟩ := loop_along (c := c) (w := w) handshakeSlice t
    simp only [if_true, hhangUp, hrun]
    refine ⟨_, (hdown.trans halong).remembering fun link => { link with connected := false }, ?_⟩
    rw [hup]
    exact .closed

/-! ## §4 The session of a connection -/

omit [Seconds τ] in
theorem unvalued_unit (e : Except Stop Unit × Traced (Note τ) (Line σ)) : unvalued e = e := by
  obtain ⟨outcome, t⟩ := e
  cases outcome <;> rfl

/-- A reply of a connection: its notes tell of the exchanges that answer the request. -/
structure Replies (c : Connection τ) (w : Wire τ σ) (r : Request τ) (line : Line σ)
    (xs : List (Exchange τ)) (e : Reply τ × Line σ) : Prop where
  answer : Answer c line.link.connected r e.1.outcome xs e.2.link.connected
  noted : Noted c w { state := line } e.1.notes xs (xs.flatMap Exchange.events)
    { state := e.2, trail := e.1.notes.reverse }

omit [Seconds τ] in
/-- A reply holds what was noted meanwhile. -/
theorem Noted.reply {α : Type} {a : Act τ σ α} {line : Line σ} {notes : List (Note τ)}
    {xs : List (Exchange τ)} {events : List NetworkEvent}
    (h : Noted c w { state := line } notes xs events (Action.runFrom a { state := line }).2) :
    (replyOf a line).1.notes = notes := by
  have htrail := h.trail
  rw [List.append_nil] at htrail
  have hhistory : (Action.runFrom a { state := line }).2.history = notes := by
    rw [Traced.history, htrail, List.reverse_reverse]
  exact hhistory

omit [Seconds τ] in
/-- The exchanges that a reply tells of are those that were made. -/
theorem Along.reply {α : Type} {a : Act τ σ α} {line : Line σ} {xs : List (Exchange τ)}
    (h : Along c w { state := line } xs (Action.runFrom a { state := line }).2) :
    w.exchanges line.env (replyOf a line).1.notes = xs := by
  obtain ⟨notes, hnoted⟩ := h
  rw [hnoted.reply]
  exact hnoted.exchanges

theorem replies_of_answered {α : Type} {a : Act τ σ α} {r : Request τ} {line : Line σ}
    {xs : List (Exchange τ)}
    (h : Answered c w r { state := line } xs (unvalued (Action.runFrom a { state := line }))) :
    Replies c w r line xs (replyOf a line) := by
  obtain ⟨⟨notes, hnoted⟩, hanswer⟩ := h
  have hnotes : (replyOf a line).1.notes = notes := hnoted.reply
  refine ⟨hanswer, ?_⟩
  rw [hnotes]
  exact ⟨(List.append_nil _).symm, hnoted.exchanges, hnoted.env, hnoted.messages, hnoted.stops,
    hnoted.outside⟩

/-- Every request to a connection is answered. -/
theorem request_replies (fuel : Nat) (r : Request τ) (line : Line σ) :
    ∃ xs, Replies c w r line xs ((session c w fuel).answer r line) := by
  cases r with
  | connect =>
    obtain ⟨xs, h⟩ := connect_answered (c := c) (w := w) fuel { state := line }
    exact ⟨xs, replies_of_answered (by rwa [unvalued_unit])⟩
  | disconnect =>
    obtain ⟨xs, h⟩ := disconnect_answered (c := c) (w := w) { state := line }
    exact ⟨xs, replies_of_answered (by rwa [unvalued_unit])⟩
  | subscribe topic qos =>
    obtain ⟨xs, h⟩ := subscribe_answered (c := c) (w := w) topic qos fuel { state := line }
    exact ⟨xs, replies_of_answered (by rwa [unvalued_unit])⟩
  | publish topic payload qos =>
    obtain ⟨xs, h⟩ := publish_answered (c := c) (w := w) topic payload qos { state := line }
    exact ⟨xs, replies_of_answered h⟩
  | pump timeout =>
    obtain ⟨events, code, h⟩ := pump_answered (c := c) (w := w) timeout { state := line }
    exact ⟨_, replies_of_answered (by rw [unvalued_unit]; exact h)⟩

end BrokerLoad.Connection
