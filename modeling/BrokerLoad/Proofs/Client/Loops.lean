import BrokerLoad.Client.Publisher
import BrokerLoad.Client.Subscriber
import BrokerLoad.Proofs.Client.Course

/-!
# The loops of clients

A publisher pumps, sends and sleeps, a subscriber pumps until it is asked to stop. Here the deals that
such a loop makes are told apart by what each of them does to the loop: it goes on, it ends, or it is
cut short. The relations follow the recursion of the loops, for any kind of time and whatever the
surroundings answer, so a fact about whole loops is an induction over the deals.

## Main definitions

* `Publisher.Progress.afterSend`, `Publisher.Progress.advanced`: the progress after a send and at
  the next deadline.
* `Publisher.Turns`: the deals of a publisher's loop and how it ends.
* `Publisher.Published`: what a publisher does on an open session.
* `Subscriber.Drains`: the deals of a subscriber's drain and how it ends.

## Main statements

* `Publisher.loop_turns`, `Publisher.publishAll_published`: what a publisher does.
* `Subscriber.drain_drains`, `Subscriber.serve_eq`: what a subscriber does.
-/

namespace BrokerLoad

variable {τ σ η : Type}

/-! ## §1 A send and the next deadline -/

namespace Publisher

variable [Seconds τ] {w : Surroundings τ σ η} {s : Traced (Note τ) (Client σ η)}

/-- The progress after a send: it counts as sent or, if it was refused, as an error. Every other
stop passes through. -/
def Progress.afterSend (p : Progress τ) : Except Stop Unit → Except Stop (Progress τ)
  | .ok () => .ok { p with sent := p.sent + 1 }
  | .error (.fault (.publish _)) => .ok { p with errors := p.errors + 1 }
  | .error stop => .error stop

/-- The progress at the next deadline, if the arithmetic of the schedule gives one. -/
def Progress.advanced (schedule : Schedule τ) (now : τ) (p : Progress τ) :
    Except Fault (Progress τ) :=
  (schedule.lastDue now).bind fun due =>
    (schedule.deadline (max (p.index + 1) due)).map fun deadline =>
      { p with index := max (p.index + 1) due, deadline }

/-- The request to publish that a plan makes. -/
def sendRequest (plan : Plan τ) : Request τ :=
  .publish plan.settings.topic plan.payload plan.settings.qos

/-- A send is one request. A refusal is logged, and that leaves the client as it is. -/
theorem send_course (plan : Plan τ) (p : Progress τ) (s : Traced (Note τ) (Client σ η)) :
    ∃ t, Action.runFrom (send w plan p) s =
        (p.afterSend (Client.requestDeal w (sendRequest plan) s).outcome, t) ∧
      Client.Course w s [Client.requestDeal w (sendRequest plan) s] t ∧
      t.state = (Client.asked w (sendRequest plan) s).state := by
  have hrun : Action.runFrom
      (Client.request w (.publish plan.settings.topic plan.payload plan.settings.qos)) s =
        ((Client.requestDeal w (sendRequest plan) s).outcome,
          Client.asked w (sendRequest plan) s) := Client.request_eq _ s
  have hcourse : Client.Course w s [Client.requestDeal w (sendRequest plan) s]
      (Client.asked w (sendRequest plan) s) := .request _ .stay
  simp only [send, Action.recover, Action.runFrom_ofFunction, Action.runFrom_bind, hrun]
  cases (Client.requestDeal w (sendRequest plan) s).outcome with
  | ok _ => exact ⟨_, rfl, hcourse, rfl⟩
  | error stop =>
    cases stop with
    | outOfFuel => exact ⟨_, rfl, hcourse, rfl⟩
    | fault f =>
      cases f with
      | publish e => exact ⟨_, rfl, .log _ hcourse, rfl⟩
      | _ => exact ⟨_, rfl, hcourse, rfl⟩

/-- The choice of the next deadline only logs. -/
theorem advance_course (schedule : Schedule τ) (p : Progress τ)
    (s : Traced (Note τ) (Client σ η)) :
    ∃ t, Action.runFrom (advance w schedule p) s =
        ((p.advanced schedule (w.timer.now s.state.env)).mapError Stop.fault, t) ∧
      Client.Course w s [] t ∧ t.state = s.state := by
  simp only [advance, Action.runFrom_bind, Client.runFrom_now, Progress.advanced,
    Action.runFrom_ofExcept]
  cases schedule.lastDue (w.timer.now s.state.env) with
  | error f => exact ⟨s, rfl, .stay, rfl⟩
  | ok due =>
    by_cases hover : p.index + 1 < due
    · refine ⟨Client.remarked w (.log ⟨.debug, logger,
        "Publish overran " ++ integerText (due - p.index - 1) ++ " deadlines"⟩) s, ?_,
        .log _ .stay, rfl⟩
      simp only [Action.mapError_ok, Except.bind, hover, if_true, Action.runFrom_bind,
        Client.log_eq, Action.runFrom_ofExcept]
      cases schedule.deadline (max (p.index + 1) due) <;> rfl
    · refine ⟨s, ?_, .stay, rfl⟩
      simp only [Action.mapError_ok, Except.bind, hover, if_false, Action.runFrom_bind,
        Action.runFrom_ofExcept]
      cases schedule.deadline (max (p.index + 1) due) <;> rfl

/-! ## §2 The loop of a publisher -/

/-- A deal that only lets time pass: a pump or a sleep. -/
inductive Waits : Deal τ → Prop
  | pump (time timeout : τ) (outcome : Except Stop Unit) :
    Waits ⟨⟨time, .request (.pump timeout) .active⟩, outcome⟩
  | sleep (time duration : τ) (outcome : Except Stop Unit) : Waits ⟨⟨time, .sleep duration⟩, outcome⟩

/-- The deal of a send. -/
def sendDeal (plan : Plan τ) (time : τ) (outcome : Except Stop Unit) : Deal τ :=
  ⟨⟨time, .request (sendRequest plan) .active⟩, outcome⟩

/-- The deals that the loop of a publisher makes from some progress on, and how it ends. -/
inductive Turns (plan : Plan τ) (schedule : Schedule τ) :
    Progress τ → List (Deal τ) → Except Stop (Progress τ) → Prop
  | finished {p} : Turns plan schedule p [] (.ok p)
  | spent {p} : Turns plan schedule p [] (.error .outOfFuel)
  | lost {p d stop} : Waits d → d.outcome = .error stop → Turns plan schedule p [d] (.error stop)
  | waited {p d deals result} : Waits d → d.outcome = .ok () → Turns plan schedule p deals result →
    Turns plan schedule p (d :: deals) result
  | failed {p time outcome stop} : p.afterSend outcome = .error stop →
    Turns plan schedule p [sendDeal plan time outcome] (.error stop)
  | astray {p q time outcome now f} : p.afterSend outcome = .ok q →
    q.advanced schedule now = .error f →
    Turns plan schedule p [sendDeal plan time outcome] (.error (.fault f))
  | sent {p q r time outcome now deals result} : p.afterSend outcome = .ok q →
    q.advanced schedule now = .ok r → Turns plan schedule r deals result →
    Turns plan schedule p (sendDeal plan time outcome :: deals) result

/-- Whether the duration is over at a given time. -/
def isOver (plan : Plan τ) (schedule : Schedule τ) (now : τ) : Bool :=
  Seconds.le plan.duration (Seconds.sub now schedule.start)

/-- The pump of a turn that begins at `now`. -/
def pumpRequest (tuning : Tuning τ) (p : Progress τ) (now : τ) : Request τ :=
  .pump (Seconds.max Seconds.zero (Seconds.min tuning.ioSlice (Seconds.sub p.deadline now)))

variable (plan : Plan τ) (tuning : Tuning τ) (schedule : Schedule τ)

/-- A turn, up to what follows its pump. -/
theorem loop_eq (fuel : Nat) (p : Progress τ) (s : Traced (Note τ) (Client σ η)) :
    let pump := pumpRequest tuning p (w.timer.now s.state.env)
    let t := Client.asked w pump s
    Action.runFrom (loop w plan tuning schedule (fuel + 1) p) s =
      if isOver plan schedule (w.timer.now s.state.env) then (.ok p, s)
      else
        match (Client.requestDeal w pump s).outcome with
        | .error stop => (.error stop, t)
        | .ok _ =>
          if isOver plan schedule (w.timer.now t.state.env) then (.ok p, t)
          else if Seconds.le p.deadline (w.timer.now t.state.env) then
            Action.runFrom (do
              let sent ← send w plan p
              let next ← advance w schedule sent
              loop w plan tuning schedule fuel next) t
          else
            Action.runFrom (do
              Client.sleep w
                (Seconds.min (Seconds.sub p.deadline (w.timer.now t.state.env)) tuning.pollQuantum)
              loop w plan tuning schedule fuel p) t := by
  intro pump t
  have hpump : Action.runFrom (Client.request w (.pump (Seconds.max Seconds.zero
      (Seconds.min tuning.ioSlice (Seconds.sub p.deadline (w.timer.now s.state.env)))))) s =
        ((Client.requestDeal w pump s).outcome, t) := Client.request_eq pump s
  rw [loop]
  simp only [Action.runFrom_bind (x := Client.now w), Client.runFrom_now, Action.runFrom_ite,
    Action.runFrom_bind (x := Client.request w _), hpump, Action.runFrom_pure, isOver]
  cases (Client.requestDeal w pump s).outcome <;> rfl

variable {plan tuning schedule}

/-- From `s` with progress `p` a part of the loop ends, still active, in a way that turns can end. -/
def Turned (w : Surroundings τ σ η) (plan : Plan τ) (schedule : Schedule τ) (p : Progress τ)
    (s : Traced (Note τ) (Client σ η))
    (e : Except Stop (Progress τ) × Traced (Note τ) (Client σ η)) : Prop :=
  ∃ deals, Client.Course w s deals e.2 ∧ e.2.state.phase = .active ∧ Turns plan schedule p deals e.1

theorem Turned.wait {p : Progress τ} {d : Deal τ} {t : Traced (Note τ) (Client σ η)}
    {e : Except Stop (Progress τ) × Traced (Note τ) (Client σ η)} (hd : Waits d)
    (hok : d.outcome = .ok ()) (hcourse : Client.Course w s [d] t)
    (h : Turned w plan schedule p t e) : Turned w plan schedule p s e := by
  obtain ⟨deals, hdeals, hphase, hturns⟩ := h
  exact ⟨d :: deals, hcourse.trans hdeals, hphase, .waited hd hok hturns⟩

section Turn

variable {fuel : Nat} (hloop : ∀ p (s : Traced (Note τ) (Client σ η)), s.state.phase = .active →
  Turned w plan schedule p s (Action.runFrom (loop w plan tuning schedule fuel p) s))
  (p : Progress τ) (hactive : s.state.phase = .active)

include hloop hactive

/-- A send, and what follows it. -/
theorem turned_send : Turned w plan schedule p s (Action.runFrom (do
    let sent ← send w plan p
    let next ← advance w schedule sent
    loop w plan tuning schedule fuel next) s) := by
  obtain ⟨t, hsend, hcourse, ht⟩ := send_course (w := w) plan p s
  have hphase : t.state.phase = .active := by rw [ht, Client.asked_phase, hactive]
  have hdeal : Client.requestDeal w (sendRequest plan) s =
      sendDeal plan (w.timer.now s.state.env)
        (Client.requestDeal w (sendRequest plan) s).outcome := by
    rw [sendDeal, ← hactive]
    rfl
  generalize (Client.requestDeal w (sendRequest plan) s).outcome = outcome at hsend hdeal
  rw [hdeal] at hcourse
  rw [Action.runFrom_bind, hsend]
  cases hafter : p.afterSend outcome with
  | error stop => exact ⟨_, hcourse, hphase, .failed hafter⟩
  | ok q =>
    obtain ⟨u, hadvance, hmore, hu⟩ := advance_course (w := w) schedule q t
    have hboth := hcourse.trans hmore
    rw [← hu] at hphase
    simp only [Action.runFrom_bind, hadvance]
    cases hadvanced : q.advanced schedule (w.timer.now t.state.env) with
    | error f => exact ⟨_, hboth, hphase, .astray hafter hadvanced⟩
    | ok r =>
      obtain ⟨deals, hdeals, hend, hturns⟩ := hloop r u hphase
      exact ⟨_, hboth.trans hdeals, hend, .sent hafter hadvanced hturns⟩

/-- A sleep, and what follows it. -/
theorem turned_sleep (duration : τ) : Turned w plan schedule p s (Action.runFrom (do
    Client.sleep w duration
    loop w plan tuning schedule fuel p) s) := by
  have hcourse : Client.Course w s [Client.sleepDeal w duration s] (Client.slept w duration s) :=
    .sleep _ .stay
  have hwaits : Waits (Client.sleepDeal w duration s) := .sleep _ _ _
  have hsleep : Action.runFrom (Client.sleep w duration) s =
      ((Client.sleepDeal w duration s).outcome, Client.slept w duration s) :=
    Client.sleep_eq duration s
  rw [Action.runFrom_bind, hsleep]
  cases hend : (Client.sleepDeal w duration s).outcome with
  | error stop => exact ⟨_, hcourse, hactive, .lost hwaits hend⟩
  | ok _ => exact Turned.wait hwaits hend hcourse (hloop p (Client.slept w duration s) hactive)

end Turn

/-- The loop of a publisher goes through turns, however many. -/
theorem loop_turns (fuel : Nat) (p : Progress τ) (s : Traced (Note τ) (Client σ η))
    (hactive : s.state.phase = .active) :
    Turned w plan schedule p s (Action.runFrom (loop w plan tuning schedule fuel p) s) := by
  induction fuel generalizing p s with
  | zero => exact ⟨[], .stay, hactive, .spent⟩
  | succ fuel ih =>
    let pump := pumpRequest tuning p (w.timer.now s.state.env)
    have hcourse : Client.Course w s [Client.requestDeal w pump s] (Client.asked w pump s) :=
      .request _ .stay
    have hwaits : Waits (Client.requestDeal w pump s) := by
      rw [Client.requestDeal, hactive]
      exact .pump _ _ _
    have hphase : (Client.asked w pump s).state.phase = .active := by
      rw [Client.asked_phase, hactive]
    rw [loop_eq]
    split
    · exact ⟨[], .stay, hactive, .finished⟩
    · split
      case h_1 stop hend => exact ⟨_, hcourse, hphase, .lost hwaits hend⟩
      case h_2 hend =>
        refine Turned.wait hwaits hend hcourse ?_
        split
        · exact ⟨[], .stay, hphase, .finished⟩
        · split
          · exact turned_send ih p hphase
          · exact turned_sleep ih p hphase _

/-! ## §3 A publisher on an open session -/

/-- The schedule of a plan whose loop starts at a given time. -/
def scheduleOf (plan : Plan τ) (start : τ) : Schedule τ := ⟨start, plan.interval, plan.interval_pos⟩

/-- The report on a loop that started and ended at given times. -/
def reportOf (start stop : τ) (p : Progress τ) : Report τ :=
  { sent := p.sent, elapsed := Seconds.sub stop start, errors := p.errors }

/-- What a publisher does on an open session, and how that ends. -/
inductive Published (w : Surroundings τ σ η) (plan : Plan τ) (s : Traced (Note τ) (Client σ η)) :
    List (Deal τ) → Except Stop (Report τ) → Traced (Note τ) (Client σ η) → Prop
  | unfit {f} : plan.checkPayload w.memory = .error f → Published w plan s [] (.error (.fault f)) s
  | unscheduled {f t} : (scheduleOf plan (w.timer.now s.state.env)).deadline 0 = .error f →
    Client.Course w s [] t → t.state.phase = .active → Published w plan s [] (.error (.fault f)) t
  | turned {first deals result t} :
    (scheduleOf plan (w.timer.now s.state.env)).deadline 0 = .ok first →
    Client.Course w s deals t → t.state.phase = .active →
    Turns plan (scheduleOf plan (w.timer.now s.state.env)) { deadline := first } deals result →
    Published w plan s deals
      (result.map (reportOf (w.timer.now s.state.env) (w.timer.now t.state.env))) t

/-- The client when its loop begins. -/
def begun (w : Surroundings τ σ η) (plan : Plan τ) (s : Traced (Note τ) (Client σ η)) :
    Traced (Note τ) (Client σ η) :=
  Client.inPhase .active (Client.remarked w (.log ⟨.info, logger,
    "Publishing " ++ toString plan.payloadSize ++ "-byte payload to " ++ plan.settings.topic ++
      " every " ++ Seconds.text plan.interval ++ "s for " ++ Seconds.text plan.duration ++ "s"⟩) s)

theorem publishAll_eq (plan : Plan τ) (tuning : Tuning τ) (fuel : Nat)
    (s : Traced (Note τ) (Client σ η)) :
    let schedule := scheduleOf plan (w.timer.now s.state.env)
    Action.runFrom (publishAll w plan tuning fuel) s =
      match plan.checkPayload w.memory with
      | .error f => (.error (.fault f), s)
      | .ok _ =>
        match schedule.deadline 0 with
        | .error f => (.error (.fault f), begun w plan s)
        | .ok first =>
          let (result, t) := Action.runFrom (loop w plan tuning schedule fuel { deadline := first })
            (begun w plan s)
          (result.map (reportOf schedule.start (w.timer.now t.state.env)), t) := by
  simp only [publishAll, begun, scheduleOf, Action.runFrom_bind, Action.runFrom_ofExcept,
    Client.log_eq, Client.runFrom_enter, Client.runFrom_now, Client.inPhase_env,
    Client.remarked_state]
  cases plan.checkPayload w.memory with
  | error f => rfl
  | ok _ =>
    simp only [Action.mapError_ok]
    cases Schedule.deadline ⟨w.timer.now s.state.env, plan.interval, plan.interval_pos⟩ 0 with
    | error f => rfl
    | ok first =>
      simp only [Action.mapError_ok]
      split
      · next h => rw [h]; rfl
      · next h => rw [h]; rfl

theorem publishAll_published (plan : Plan τ) (tuning : Tuning τ) (fuel : Nat)
    (s : Traced (Note τ) (Client σ η)) :
    ∃ deals, Published w plan s deals (Action.runFrom (publishAll w plan tuning fuel) s).1
      (Action.runFrom (publishAll w plan tuning fuel) s).2 := by
  have hbegun : Client.Course w s [] (begun w plan s) := .enter _ (.log _ .stay)
  rw [publishAll_eq]
  dsimp only
  cases hpayload : plan.checkPayload w.memory with
  | error f => exact ⟨[], .unfit hpayload⟩
  | ok _ =>
    cases hfirst : (scheduleOf plan (w.timer.now s.state.env)).deadline 0 with
    | error f => exact ⟨[], .unscheduled hfirst hbegun rfl⟩
    | ok first =>
      have hloop : Turned w plan (scheduleOf plan (w.timer.now s.state.env)) { deadline := first }
          (begun w plan s) (Action.runFrom (loop w plan tuning _ fuel { deadline := first })
            (begun w plan s)) := loop_turns fuel _ _ rfl
      obtain ⟨deals, hdeals, hphase, hturns⟩ := hloop
      exact ⟨deals, .turned hfirst (hbegun.trans hdeals) hphase hturns⟩

end Publisher

/-! ## §4 A subscriber on an open session -/

namespace Subscriber

variable {w : Surroundings τ σ η}

/-- The deals of a drain with some fuel, how it ends, and the client that it leaves. -/
inductive Drains (w : Surroundings τ σ η) (timeout : τ) :
    Nat → Traced (Note τ) (Client σ η) → List (Deal τ) → Except Stop Unit →
      Traced (Note τ) (Client σ η) → Prop
  | spent {s} : Drains w timeout 0 s [] (.error .outOfFuel) s
  | stopped {fuel s} : s.state.stopping = true → Drains w timeout (fuel + 1) s [] (.ok ()) s
  | lost {fuel s stop} : s.state.stopping = false →
    (Client.requestDeal w (.pump timeout) s).outcome = .error stop →
    Drains w timeout (fuel + 1) s [Client.requestDeal w (.pump timeout) s] (.error stop)
      (Client.asked w (.pump timeout) s)
  | pumped {fuel s deals result t} : s.state.stopping = false →
    (Client.requestDeal w (.pump timeout) s).outcome = .ok () →
    Drains w timeout fuel (Client.asked w (.pump timeout) s) deals result t →
    Drains w timeout (fuel + 1) s (Client.requestDeal w (.pump timeout) s :: deals) result t

theorem drain_drains (timeout : τ) (fuel : Nat) (s : Traced (Note τ) (Client σ η)) :
    ∃ deals, Drains w timeout fuel s deals (Action.runFrom (drain w timeout fuel) s).1
      (Action.runFrom (drain w timeout fuel) s).2 := by
  induction fuel generalizing s with
  | zero => exact ⟨[], .spent⟩
  | succ fuel ih =>
    have hpump : Action.runFrom (Client.request w (.pump timeout)) s =
        ((Client.requestDeal w (.pump timeout) s).outcome, Client.asked w (.pump timeout) s) :=
      Client.request_eq (.pump timeout) s
    simp only [drain, Action.runFrom_bind, Traced.runFrom_current, Action.runFrom_ite, hpump,
      Action.runFrom_pure]
    cases hstopping : s.state.stopping with
    | true => exact ⟨[], .stopped hstopping⟩
    | false =>
      simp only [Bool.false_eq_true, if_false]
      cases hend : (Client.requestDeal w (.pump timeout) s).outcome with
      | error stop => exact ⟨_, .lost hstopping hend⟩
      | ok _ =>
        obtain ⟨deals, hdeals⟩ := ih (Client.asked w (.pump timeout) s)
        exact ⟨_, .pumped hstopping hend hdeals⟩

theorem Drains.course {timeout : τ} {fuel : Nat} {s t : Traced (Note τ) (Client σ η)}
    {deals : List (Deal τ)} {result : Except Stop Unit}
    (h : Drains w timeout fuel s deals result t) : Client.Course w s deals t := by
  induction h with
  | spent => exact .stay
  | stopped _ => exact .stay
  | lost _ _ => exact .request _ .stay
  | pumped _ _ _ ih => exact (Client.Course.request _ .stay).trans ih

theorem Drains.phase {timeout : τ} {fuel : Nat} {s t : Traced (Note τ) (Client σ η)}
    {deals : List (Deal τ)} {result : Except Stop Unit}
    (h : Drains w timeout fuel s deals result t) : t.state.phase = s.state.phase := by
  induction h with
  | spent => rfl
  | stopped _ => rfl
  | lost _ _ => exact Client.asked_phase _ _
  | pumped _ _ _ ih => exact ih.trans (Client.asked_phase _ _)

variable (w)

/-- What a subscriber does on an open session. -/
def serve (settings : ClientSettings) (timeout : τ) (fuel : Nat) : Client.Act τ σ η Unit := do
  Client.request w (.subscribe settings.topic settings.qos)
  Client.log w .info logger
    ("Subscribed to " ++ settings.topic ++ " on " ++ settings.broker.text)
  Client.enter .active
  drain w timeout fuel

theorem run_eq (settings : ClientSettings) (timeout : τ) (fuel : Nat) :
    run w settings timeout fuel = (do
      Client.onSession w (serve w settings timeout fuel)
      let received := (← Traced.current).received
      Client.log w .info logger ("Stopped after receiving " ++ toString received ++ " messages")
      return received) := rfl

/-- The client when its drain begins. -/
def granted (settings : ClientSettings) (s : Traced (Note τ) (Client σ η)) :
    Traced (Note τ) (Client σ η) :=
  Client.inPhase .active (Client.remarked w (.log ⟨.info, logger,
    "Subscribed to " ++ settings.topic ++ " on " ++ settings.broker.text⟩)
      (Client.asked w (.subscribe settings.topic settings.qos) s))

variable {w}

theorem serve_eq (settings : ClientSettings) (timeout : τ) (fuel : Nat)
    (s : Traced (Note τ) (Client σ η)) :
    let subscribe : Request τ := .subscribe settings.topic settings.qos
    Action.runFrom (serve w settings timeout fuel) s =
      match (Client.requestDeal w subscribe s).outcome with
      | .error stop => (.error stop, Client.asked w subscribe s)
      | .ok _ => Action.runFrom (drain w timeout fuel) (granted w settings s) := by
  intro subscribe
  have hsubscribe : Action.runFrom (Client.request w subscribe) s =
      ((Client.requestDeal w subscribe s).outcome, Client.asked w subscribe s) :=
    Client.request_eq subscribe s
  rw [serve, Action.runFrom_bind, hsubscribe]
  cases (Client.requestDeal w subscribe s).outcome <;> rfl

end Subscriber

end BrokerLoad
