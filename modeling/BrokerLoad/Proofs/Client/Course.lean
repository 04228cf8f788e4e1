import BrokerLoad.Proofs.Client.Requests
import BrokerLoad.Proofs.Contract

/-!
# What a client does in a run

All that a client does to the world are requests and sleeps. A course is a row of these, each with
how it ended, that leads from one state of a client to another; between them the client only changes
its phase and logs. Every action of a client follows a course, so what holds of one step of a course
holds of whole runs. The ways in which a session can be opened, used and closed are told apart here
once, for any body.

## Main definitions

* `Deal`, `Deal.Asks`: a request or a sleep, and how it ended.
* `Client.Course`: the courses of a client.
* `Client.SessionEnd`: the ways in which an action on a session ends.

## Main statements

* `Client.Course.deeds`: the deeds of a client are those of its course.
* `Client.sessionEnd_run`: an action on a session ends in one of the ways.
-/

namespace BrokerLoad

variable {τ σ η : Type}

/-! ## §1 Courses -/

/-- A request or a sleep as it was noted, and how it ended. -/
structure Deal (τ : Type) where
  note : Note τ
  outcome : Except Stop Unit

/-- Whether a deal is a request made in a phase. -/
def Deal.Asks (d : Deal τ) (r : Request τ) (phase : Phase) : Prop :=
  d.note.happening = .request r phase

namespace Client

/-- A request that a client makes in a state. -/
def requestDeal (w : Surroundings τ σ η) (r : Request τ) (s : Traced (Note τ) (Client σ η)) :
    Deal τ where
  note := ⟨w.timer.now s.state.env, .request r s.state.phase⟩
  outcome := (w.session.answer r s.state.env).1.outcome

/-- A sleep of a client in a state. -/
def sleepDeal (w : Surroundings τ σ η) (duration : τ) (s : Traced (Note τ) (Client σ η)) :
    Deal τ where
  note := ⟨w.timer.now s.state.env, .sleep duration⟩
  outcome := (w.timer.sleep duration s.state.env).1.mapError Stop.fault

/-- The client can come from `s` to `t` by the deals of a list. -/
inductive Course (w : Surroundings τ σ η) (s : Traced (Note τ) (Client σ η)) :
    List (Deal τ) → Traced (Note τ) (Client σ η) → Prop
  | stay : Course w s [] s
  | enter {deals t} (phase : Phase) : Course w s deals t → Course w s deals (inPhase phase t)
  | log {deals t} (record : LogRecord) :
    Course w s deals t → Course w s deals (remarked w (.log record) t)
  | request {deals t} (r : Request τ) :
    Course w s deals t → Course w s (deals ++ [requestDeal w r t]) (asked w r t)
  | sleep {deals t} (duration : τ) :
    Course w s deals t → Course w s (deals ++ [sleepDeal w duration t]) (slept w duration t)

namespace Course

variable {w : Surroundings τ σ η} {s t u : Traced (Note τ) (Client σ η)} {deals more : List (Deal τ)}

theorem trans (h : Course w s deals t) (h' : Course w t more u) : Course w s (deals ++ more) u := by
  induction h' with
  | stay => rwa [List.append_nil]
  | enter phase _ ih => exact ih.enter phase
  | log record _ ih => exact ih.log record
  | request r _ ih =>
    rw [← List.append_assoc]
    exact ih.request r
  | sleep duration _ ih =>
    rw [← List.append_assoc]
    exact ih.sleep duration

/-- The deeds of a client are those of its course. -/
theorem deeds (quiet : w.session.Quiet) (h : Course w s deals t) :
    deeds t = deeds s ++ deals.map Deal.note := by
  induction h with
  | stay => rw [List.map_nil, List.append_nil]
  | enter phase _ ih => exact ih
  | log record _ ih => rw [remarked, deeds_note_other _ _ rfl, ih]
  | request r _ ih =>
    rw [deeds_asked quiet, ih, List.map_append, ← List.append_assoc]
    rfl
  | sleep duration _ ih =>
    rw [deeds_slept, ih, List.map_append, ← List.append_assoc]
    rfl

/-- Without a deal the environment stays as it is, and there is no deed. -/
theorem still (h : Course w s [] t) :
    t.state.env = s.state.env ∧ Client.deeds t = Client.deeds s := by
  generalize hdeals : ([] : List (Deal τ)) = deals at h
  induction h with
  | stay => exact ⟨rfl, rfl⟩
  | enter phase _ ih => exact ih hdeals
  | log record _ ih =>
    rw [remarked, deeds_note_other _ _ rfl]
    exact ih hdeals
  | request r _ _ => exact absurd hdeals.symm (List.concat_ne_nil _ _)
  | sleep duration _ _ => exact absurd hdeals.symm (List.concat_ne_nil _ _)

/-- The first deal is made at the present time. -/
theorem head_time {d : Deal τ} (h : Course w s (d :: deals) t) :
    d.note.time = w.timer.now s.state.env := by
  generalize hdeals : d :: deals = all at h
  induction h generalizing deals with
  | stay => cases hdeals
  | enter phase _ ih => exact ih hdeals
  | log record _ ih => exact ih hdeals
  | @request before t r h ih =>
    cases before with
    | nil =>
      obtain ⟨rfl, -⟩ := List.cons.inj hdeals
      rw [requestDeal, h.still.1]
    | cons e before =>
      have hhead : d :: before = e :: before := by rw [(List.cons.inj hdeals).1]
      exact ih hhead
  | @sleep before t duration h ih =>
    cases before with
    | nil =>
      obtain ⟨rfl, -⟩ := List.cons.inj hdeals
      rw [sleepDeal, h.still.1]
    | cons e before =>
      have hhead : d :: before = e :: before := by rw [(List.cons.inj hdeals).1]
      exact ih hhead

end Course

/-! ## §2 Sessions -/

section Session

variable {α : Type} (w : Surroundings τ σ η)

/-- The client after its request to open the session. -/
def opened (s : Traced (Note τ) (Client σ η)) : Traced (Note τ) (Client σ η) :=
  asked w .connect (inPhase .connecting s)

/-- How the request to open the session ends. -/
def opening (s : Traced (Note τ) (Client σ η)) : Except Stop Unit :=
  (w.session.answer .connect s.state.env).1.outcome

/-- How the request to close the session ends. -/
def closing (s : Traced (Note τ) (Client σ η)) : Except Stop Unit :=
  (w.session.answer .disconnect s.state.env).1.outcome

/-- The client after its request to close the session. -/
def closed (s : Traced (Note τ) (Client σ η)) : Traced (Note τ) (Client σ η) :=
  match closing w s with
  | .error .outOfFuel => asked w .disconnect s
  | _ => inPhase .disconnected (asked w .disconnect s)

/-- The ways in which an action on a session ends. -/
inductive SessionEnd (body : Act τ σ η α) (s : Traced (Note τ) (Client σ η)) :
    Except Stop α → Traced (Note τ) (Client σ η) → Prop
  | unopened {f : Fault} : opening w s = .error (.fault f) →
    SessionEnd body s (.error (.fault f)) (inPhase .disconnected (opened w s))
  | waiting : opening w s = .error .outOfFuel →
    SessionEnd body s (.error .outOfFuel) (opened w s)
  | endless {t} : opening w s = .ok () →
    Action.runFrom body (inPhase .connected (opened w s)) = (.error .outOfFuel, t) →
    SessionEnd body s (.error .outOfFuel) t
  | broken {f : Fault} {t} : opening w s = .ok () →
    Action.runFrom body (inPhase .connected (opened w s)) = (.error (.fault f), t) →
    SessionEnd body s ((closing w t).bind fun _ => .error (.fault f)) (closed w t)
  | done {a : α} {t} : opening w s = .ok () →
    Action.runFrom body (inPhase .connected (opened w s)) = (.ok a, t) →
    SessionEnd body s ((closing w (inPhase .disconnecting t)).bind fun _ => .ok a)
      (closed w (inPhase .disconnecting t))

variable {w}

theorem opened_course (s : Traced (Note τ) (Client σ η)) :
    Course w s [requestDeal w .connect (inPhase .connecting s)] (opened w s) :=
  .request .connect (.enter .connecting .stay)

theorem closed_course (s : Traced (Note τ) (Client σ η)) :
    Course w s [requestDeal w .disconnect s] (closed w s) := by
  have hasked : Course w s [requestDeal w .disconnect s] (asked w .disconnect s) :=
    .request .disconnect .stay
  unfold closed
  split
  · exact hasked
  · exact .enter .disconnected hasked

/-- After the request to close the session a client is disconnected. -/
theorem closed_phase {s : Traced (Note τ) (Client σ η)} (h : closing w s ≠ .error .outOfFuel) :
    (closed w s).state.phase = .disconnected := by
  unfold closed
  split
  · next hclosing => exact absurd hclosing h
  · rfl

/-- A body that has not run out of fuel is followed by the request to close the session. -/
theorem closing_disconnect {body : Act τ σ η α} {s t : Traced (Note τ) (Client σ η)}
    {outcome : Except Stop α} (hbody : Action.runFrom body s = (outcome, t))
    (hfuel : outcome ≠ .error .outOfFuel) :
    Action.runFrom (Action.closing body (request w .disconnect)) s =
      ((closing w t).bind fun _ => outcome, asked w .disconnect t) := by
  rw [Action.closing_run hbody hfuel, request_eq]
  rfl

/-- The end of a run on a session that was opened and closed. -/
theorem closing_enter {body : Act τ σ η α} {s t : Traced (Note τ) (Client σ η)}
    {outcome : Except Stop α}
    (hbody : Action.runFrom body s =
      ((closing w t).bind fun _ => outcome, asked w .disconnect t))
    (hfuel : outcome ≠ .error .outOfFuel) :
    Action.runFrom (Action.closing body (enter .disconnected)) s =
      ((closing w t).bind fun _ => outcome, closed w t) := by
  unfold closed
  cases hclosing : closing w t with
  | ok _ =>
    rw [hclosing] at hbody
    exact Action.closing_run hbody hfuel
  | error stop =>
    rw [hclosing] at hbody
    cases stop with
    | fault f => exact Action.closing_run hbody (Action.fault_ne_outOfFuel f)
    | outOfFuel =>
      -- then the client is not even disconnected
      exact Action.closing_outOfFuel hbody

/-- A body between the phases of an open session. -/
def inside (body : Act τ σ η α) : Act τ σ η α := do
  enter .connected
  let result ← body
  enter .disconnecting
  pure result

variable (w) in
/-- A body with the requests to open and to close the session around it. -/
def sessionOf (body : Act τ σ η α) : Act τ σ η α := do
  request w .connect
  Action.closing (inside body) (request w .disconnect)

theorem runFrom_onSession (body : Act τ σ η α) (s : Traced (Note τ) (Client σ η)) :
    Action.runFrom (onSession w body) s =
      Action.runFrom (Action.closing (sessionOf w body) (enter .disconnected))
        (inPhase .connecting s) := rfl

theorem inside_ok {body : Act τ σ η α} {a : α} {s t : Traced (Note τ) (Client σ η)}
    (h : Action.runFrom body (inPhase .connected s) = (.ok a, t)) :
    Action.runFrom (inside body) s = (.ok a, inPhase .disconnecting t) := by
  simp only [inside, Action.runFrom_bind, runFrom_enter, h, Action.runFrom_pure]

theorem inside_error {body : Act τ σ η α} {stop : Stop} {s t : Traced (Note τ) (Client σ η)}
    (h : Action.runFrom body (inPhase .connected s) = (.error stop, t)) :
    Action.runFrom (inside body) s = (.error stop, t) := by
  simp only [inside, Action.runFrom_bind, runFrom_enter, h]

theorem sessionOf_unopened (body : Act τ σ η α) {stop : Stop} {s : Traced (Note τ) (Client σ η)}
    (h : opening w s = .error stop) :
    Action.runFrom (sessionOf w body) (inPhase .connecting s) = (.error stop, opened w s) := by
  have hopened : Action.runFrom (request w .connect) (inPhase .connecting s) =
      (opening w s, opened w s) := request_eq _ _
  rw [sessionOf, Action.runFrom_bind, hopened, h]

theorem sessionOf_opened (body : Act τ σ η α) {s : Traced (Note τ) (Client σ η)}
    (h : opening w s = .ok ()) :
    Action.runFrom (sessionOf w body) (inPhase .connecting s) =
      Action.runFrom (Action.closing (inside body) (request w .disconnect)) (opened w s) := by
  have hopened : Action.runFrom (request w .connect) (inPhase .connecting s) =
      (opening w s, opened w s) := request_eq _ _
  rw [sessionOf, Action.runFrom_bind, hopened, h]

/-- An action on a session ends in one of the ways. -/
theorem sessionEnd_run (body : Act τ σ η α) (s : Traced (Note τ) (Client σ η)) :
    SessionEnd w body s (Action.runFrom (onSession w body) s).1
      (Action.runFrom (onSession w body) s).2 := by
  rw [runFrom_onSession]
  cases hopen : opening w s with
  | error stop =>
    have hsession := sessionOf_unopened body hopen
    cases stop with
    | fault f =>
      rw [Action.closing_run hsession (Action.fault_ne_outOfFuel f)]
      exact .unopened hopen
    | outOfFuel =>
      rw [Action.closing_outOfFuel hsession]
      exact .waiting hopen
  | ok _ =>
    have hsession := sessionOf_opened body hopen
    cases hbody : Action.runFrom body (inPhase .connected (opened w s)) with
    | mk outcome t =>
      cases outcome with
      | ok a =>
        have hok := Action.ok_ne_outOfFuel a
        have hclosed := hsession.trans (closing_disconnect (inside_ok hbody) hok)
        rw [closing_enter hclosed hok]
        exact .done hopen hbody
      | error stop =>
        cases stop with
        | fault f =>
          have hfault := Action.fault_ne_outOfFuel (α := α) f
          have hclosed := hsession.trans (closing_disconnect (inside_error hbody) hfault)
          rw [closing_enter hclosed hfault]
          exact .broken hopen hbody
        | outOfFuel =>
          have hleft := hsession.trans (Action.closing_outOfFuel (inside_error hbody))
          rw [Action.closing_outOfFuel hleft]
          exact .endless hopen hbody

/-- An action on a session returns only if the session was opened and its body returned. -/
theorem SessionEnd.returned {body : Act τ σ η α} {s v : Traced (Note τ) (Client σ η)} {a : α}
    (h : SessionEnd w body s (.ok a) v) :
    ∃ t, Action.runFrom body (inPhase .connected (opened w s)) = (.ok a, t) ∧
      v = closed w (inPhase .disconnecting t) := by
  generalize hend : Except.ok a = outcome at h
  cases h with
  | unopened | waiting | endless => cases hend
  | @broken f t _ _ =>
    cases hclosing : closing w t with
    | ok _ =>
      rw [hclosing] at hend
      cases hend
    | error stop =>
      rw [hclosing] at hend
      cases hend
  | @done b t _ hrun =>
    cases hclosing : closing w (inPhase .disconnecting t) with
    | ok _ =>
      rw [hclosing] at hend
      cases hend
      exact ⟨t, hrun, rfl⟩
    | error stop =>
      rw [hclosing] at hend
      cases hend

end Session

end Client

end BrokerLoad
