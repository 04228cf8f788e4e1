import BrokerLoad.Proofs.Client.Count
import BrokerLoad.Proofs.Client.Publishing
import BrokerLoad.Proofs.Client.Stints

/-!
# What a publisher never does

A pump, a send or a sleep may take any time, and the loop decides on clock readings that are old by
then. As long as the clock never moves backwards, no stint begins when the duration is over, no wait
is asked to go beyond the deadline, and the report counts what was sent and what was refused. What
carries the proofs through the turns is that the deadline is that of the index at hand and the clock
is not before the start.

## Main definitions

* `Publisher.Stint.Forward`: a stint during which the clock does not move backwards.
* `Publisher.OnSchedule`: a progress whose deadline is that of its index, when the clock has
  started.
* `Publisher.Stint.Timely`, `Publisher.Stint.Asks`: what holds of every stint.
* `Publisher.Tells`: a report that tells the truth about some stints.

## Main statements

* `Publisher.onSchedule_invariant`: the turns keep the deadlines.
* `Publisher.Laps.tallied`: a loop counts what it sends.
* `Publisher.run_bounded`: what holds of every stint of a run, and what the run reports.
-/

namespace BrokerLoad

variable {τ σ η : Type}

/-- Whether a deal is a message that was refused. -/
def Deal.isRefused (d : Deal τ) : Bool :=
  match d.note.happening, d.outcome with
  | .request (.publish ..) _, .error (.fault (.publish _)) => true
  | _, _ => false

/-- Surroundings whose clock never moves backwards, whatever they are asked for. -/
structure Surroundings.Forward (w : Surroundings Rat σ η) : Prop where
  pump : ∀ t env, w.timer.now env ≤ w.timer.now (w.session.pump t env).2
  publish : ∀ topic payload qos env,
    w.timer.now env ≤ w.timer.now (w.session.publish topic payload qos env).2
  sleep : ∀ t env, w.timer.now env ≤ w.timer.now (w.timer.sleep t env).2

/-- Surroundings in which everything takes a while longer than it was asked to. The state is the
time and the number of sends so far. -/
def Surroundings.lagging (lag : Rat) (refusal : Nat → Option PublishError) :
    Surroundings Rat (Rat × Nat) Unit where
  session :=
    { connect := fun env => (⟨.ok (), []⟩, env)
      disconnect := fun env => (⟨.ok (), []⟩, env)
      subscribe := fun _ _ env => (⟨.ok (), []⟩, env)
      publish := fun _ _ _ env => (⟨sendOutcome (refusal env.2), []⟩, env.1 + lag, env.2 + 1)
      pump := fun t env => (⟨.ok (), []⟩, env.1 + (max 0 t + lag), env.2) }
  timer := { now := Prod.fst, sleep := fun t env => (.ok (), env.1 + (max 0 t + lag), env.2) }
  handler := { accept := fun _ _ => id }

theorem Surroundings.lagging_quiet (lag : Rat) (refusal : Nat → Option PublishError) :
    (Surroundings.lagging lag refusal).session.Quiet := by
  intro r s n hn
  have hnone : ((Surroundings.lagging lag refusal).session.answer r s).1.notes = [] := by
    cases r <;> rfl
  rw [hnone] at hn
  cases hn

theorem Surroundings.lagging_forward {lag : Rat} (hlag : 0 ≤ lag)
    (refusal : Nat → Option PublishError) : (Surroundings.lagging lag refusal).Forward where
  pump _ _ := le_add_of_nonneg_right (add_nonneg (le_max_left _ _) hlag)
  publish _ _ _ _ := le_add_of_nonneg_right hlag
  sleep _ _ := le_add_of_nonneg_right (add_nonneg (le_max_left _ _) hlag)

namespace Publisher

/-! ## §1 The count of a loop -/

section Count

variable [Seconds τ] {w : Surroundings τ σ η} {plan : Plan τ} {tuning : Tuning τ}
  {schedule : Schedule τ} {p q : Progress τ}

/-- A send counts as an error if and only if it was refused. -/
theorem afterSend_errors (plan : Plan τ) (time : τ) {outcome : Except Stop Unit}
    (h : p.afterSend outcome = .ok q) :
    q.errors = p.errors + (if (sendDeal plan time outcome).isRefused then 1 else 0) := by
  unfold Progress.afterSend at h
  split at h
  · cases h
    rfl
  · cases h
    rfl
  · cases h

/-- The choice of the next deadline leaves the errors as they are. -/
theorem advanced_errors {now : τ} {r : Progress τ} (h : q.advanced schedule now = .ok r) :
    r.errors = q.errors := by
  obtain ⟨due, deadline, -, -, rfl⟩ := exists_of_advanced h
  rfl

/-- A loop counts what it sends: what was taken, and what was refused. -/
theorem Laps.tallied {fuel : Nat} {env last : σ} {stints : List (Stint τ)}
    (h : Laps w plan tuning schedule fuel p env stints (.ok q) last) :
    q.sent = p.sent + stints.countP (·.deal.isSent) ∧
      q.errors = p.errors + stints.countP (·.deal.isRefused) := by
  generalize hresult : Except.ok q = result at h
  induction h with
  | finished _ =>
    cases hresult
    exact ⟨rfl, rfl⟩
  | late _ _ _ =>
    cases hresult
    exact ⟨rfl, rfl⟩
  | slept _ _ _ _ ih => exact ih hresult
  | @sent fuel p q' r env stints result last _ _ hafter hadvanced _ ih =>
    obtain ⟨hsent, herrors⟩ := ih hresult
    let now := w.timer.now (pumped w p env tuning)
    rw [(advanced_eq hadvanced).1, (afterSend_sent plan now hafter).1] at hsent
    rw [advanced_errors hadvanced, afterSend_errors plan now hafter] at herrors
    have hpump : (pumpStint w p env tuning).deal.isSent = false ∧
        (pumpStint w p env tuning).deal.isRefused = false := ⟨rfl, rfl⟩
    constructor
    · rw [hsent, List.countP_cons_of_neg (by rw [hpump.1]; exact Bool.false_ne_true),
        List.countP_cons, Nat.add_assoc, Nat.add_comm (List.countP _ _)]
      rfl
    · rw [herrors, List.countP_cons_of_neg (by rw [hpump.2]; exact Bool.false_ne_true),
        List.countP_cons, Nat.add_assoc, Nat.add_comm (List.countP _ _)]
      rfl
  | _ => cases hresult

end Count

/-! ## §2 The deadlines of a loop -/

section Bounds

variable {w : Surroundings Rat σ η} {plan : Plan Rat} {tuning : Tuning Rat}
  {schedule : Schedule Rat} {p q r : Progress Rat}

/-- The clock does not move backwards during a stint. -/
def Stint.Forward (x : Stint Rat) : Prop := x.time ≤ x.finish

/-- The deadline of a progress is that of its index, and the clock is not before the start. -/
structure OnSchedule (schedule : Schedule Rat) (p : Progress Rat) (now : Rat) : Prop where
  started : schedule.start ≤ now
  index : 0 ≤ p.index
  deadline : p.deadline = schedule.start + p.index * schedule.interval

theorem OnSchedule.later {now later : Rat} (h : OnSchedule schedule p now) (hlater : now ≤ later) :
    OnSchedule schedule p later :=
  { h with started := h.started.trans hlater }

/-- The first deadline is the start. -/
theorem OnSchedule.begin {first : Rat} (h : schedule.deadline 0 = .ok first) :
    OnSchedule schedule { deadline := first } schedule.start where
  started := le_rfl
  index := le_rfl
  deadline := by
    rw [schedule.deadline_rat le_rfl] at h
    exact (Except.ok.inj h).symm

/-- A send and the choice of the next deadline keep to the schedule. -/
theorem OnSchedule.advanced {outcome : Except Stop Unit} {now : Rat}
    (h : OnSchedule schedule p now) (hafter : p.afterSend outcome = .ok q)
    (hadvanced : q.advanced schedule now = .ok r) : OnSchedule schedule r now := by
  have hindex : q.index = p.index := afterSend_index hafter
  rw [q.advanced_rat schedule h.started (h.index.trans_eq hindex.symm)] at hadvanced
  cases hadvanced
  exact ⟨h.started, le_max_of_le_left (by have := h.index; omega), rfl⟩

/-- With exact times there is always a next deadline. -/
theorem OnSchedule.advanced_ne_error {outcome : Except Stop Unit} {now : Rat} {f : Fault}
    (h : OnSchedule schedule p now) (hafter : p.afterSend outcome = .ok q) :
    q.advanced schedule now ≠ .error f := by
  have hindex : q.index = p.index := afterSend_index hafter
  rw [q.advanced_rat schedule h.started (h.index.trans_eq hindex.symm)]
  nofun

/-- The turns keep the deadlines. -/
theorem onSchedule_invariant : Invariant w plan tuning schedule Stint.Forward
    fun p env => OnSchedule schedule p (w.timer.now env) where
  pump _ _ h _ hforward := h.later hforward
  send _ _ _ _ h _ _ hforward hafter hadvanced :=
    (h.later hforward).advanced hafter hadvanced
  nap _ _ h _ _ hforward := h.later hforward

/-- A stint begins between the start and the end of the duration, its deadline is that of its index,
and if it is a send, the deadline has come. -/
structure Stint.Timely (plan : Plan Rat) (start : Rat) (x : Stint Rat) : Prop where
  started : start ≤ x.time
  begins : x.time < start + plan.duration
  index : 0 ≤ x.index
  deadline : x.deadline = start + x.index * plan.interval
  due : x.isSend = true → x.deadline ≤ x.time

/-- What the publisher asks for in a stint. -/
inductive Stint.Asks (plan : Plan Rat) (tuning : Tuning Rat) (x : Stint Rat) : Prop
  /-- A pump for at most one slice that does not go beyond a deadline that lies ahead. -/
  | pump {t : Rat} : x.deal.note.happening = .request (.pump t) .active → 0 ≤ t →
    t ≤ tuning.ioSlice → (x.time < x.deadline → t ≤ x.deadline - x.time) → Asks plan tuning x
  /-- A send of the message of the plan. -/
  | publish : x.deal.note.happening =
      .request (.publish plan.settings.topic plan.payload plan.settings.qos) .active →
    Asks plan tuning x
  /-- A sleep for at most one quantum that does not go beyond the deadline. -/
  | sleep {t : Rat} : x.deal.note.happening = .sleep t → 0 < t → t ≤ tuning.pollQuantum →
    x.time + t ≤ x.deadline → Asks plan tuning x

theorem isOver_eq_false {now : Rat} :
    isOver plan schedule now = false ↔ now < schedule.start + plan.duration := by
  rw [← Bool.not_eq_true, isOver_rat, le_sub_iff_add_le', not_le]

/-- Every stint of a loop is timely. -/
theorem Laps.timely {start : Rat} {fuel : Nat} {env last : σ} {stints : List (Stint Rat)}
    {result : Except Stop (Progress Rat)}
    (h : Laps w plan tuning (scheduleOf plan start) fuel p env stints result last)
    (hforward : ∀ x ∈ stints, x.Forward)
    (hp : OnSchedule (scheduleOf plan start) p (w.timer.now env)) :
    ∀ x ∈ stints, x.Timely plan start :=
  h.forall_mem onSchedule_invariant
    (fun _ _ hp hbegins =>
      ⟨hp.started, isOver_eq_false.mp hbegins, hp.index, hp.deadline, nofun⟩)
    (fun _ _ hp hbegins hdue =>
      ⟨hp.started, isOver_eq_false.mp hbegins, hp.index, hp.deadline,
        fun _ => of_decide_eq_true hdue⟩)
    (fun _ _ hp hbegins _ =>
      ⟨hp.started, isOver_eq_false.mp hbegins, hp.index, hp.deadline, nofun⟩)
    hforward hp

theorem pumpStint_asks (hslice : 0 ≤ tuning.ioSlice) (p : Progress Rat) (env : σ) :
    (pumpStint w p env tuning).Asks plan tuning := by
  have hpump : (pumpStint w p env tuning).deal.note.happening =
      .request (.pump (slice tuning p (w.timer.now env))) .active := by
    rw [← pumpRequest_rat]
    rfl
  refine .pump hpump (le_max_left _ _) (max_le hslice (min_le_left _ _)) fun hahead => ?_
  exact max_le (sub_nonneg.mpr hahead.le) (min_le_right _ _)

theorem napStint_asks (hquantum : 0 < tuning.pollQuantum) {env : σ}
    (hahead : Seconds.le p.deadline (w.timer.now env) = false) :
    (napStint w p env tuning).Asks plan tuning := by
  have hlater : w.timer.now env < p.deadline := by
    rwa [← not_le, ← Seconds.le_rat, Bool.not_eq_true]
  have hnap : nap p tuning (w.timer.now env) =
      min (p.deadline - w.timer.now env) tuning.pollQuantum := Seconds.min_rat _ _
  refine .sleep (t := nap p tuning (w.timer.now env)) rfl ?_ ?_ ?_
  · rw [hnap]
    exact lt_min (sub_pos.mpr hlater) hquantum
  · rw [hnap]
    exact min_le_right _ _
  · rw [hnap]
    exact le_sub_iff_add_le'.mp (min_le_left _ _)

/-- Every stint of a loop asks for what it may ask. -/
theorem Laps.asks (hslice : 0 ≤ tuning.ioSlice) (hquantum : 0 < tuning.pollQuantum) {fuel : Nat}
    {env last : σ} {stints : List (Stint Rat)} {result : Except Stop (Progress Rat)}
    (h : Laps w plan tuning schedule fuel p env stints result last) :
    ∀ x ∈ stints, x.Asks plan tuning :=
  h.forall_mem .trivial (fun p env _ _ => pumpStint_asks hslice p env)
    (fun _ _ _ _ _ => .publish rfl)
    (fun _ _ _ _ hahead => napStint_asks hquantum hahead) (fun _ _ => trivial) trivial

/-! ## §3 Runs -/

/-- A report tells the truth about the stints of a run: what the publishes were that returned and
what those that were refused, and that the duration was over, but not before the last stint. -/
structure Tells (plan : Plan Rat) (stints : List (Stint Rat)) (report : Report Rat) : Prop where
  sent : report.sent = stints.countP (·.deal.isSent)
  errors : report.errors = stints.countP (·.deal.isRefused)
  enough : plan.duration ≤ report.elapsed
  within : ∃ x ∈ stints.getLast?, report.elapsed < plan.duration + (x.finish - x.time)

/-- A loop that returns has a last stint, and that began before the duration was over. -/
theorem Laps.tells {start : Rat} {first : Rat} {fuel : Nat} {env last : σ}
    {stints : List (Stint Rat)} (hstart : w.timer.now env = start)
    (h : Laps w plan tuning (scheduleOf plan start) fuel { deadline := first } env stints (.ok q)
      last)
    (htimely : ∀ x ∈ stints, x.Timely plan start) :
    Tells plan stints (reportOf start (w.timer.now last) q) := by
  obtain ⟨hsent, herrors⟩ := h.tallied
  rw [Nat.zero_add] at hsent herrors
  obtain ⟨hrow, hnil⟩ := h.row
  have hover : plan.duration ≤ w.timer.now last - start := (isOver_rat _ _ _).mp h.isOver_of_ok
  have hpos : 0 < plan.duration := of_decide_eq_true plan.duration_pos
  refine ⟨congrArg Nat.cast hsent, herrors, hover, ?_⟩
  have hne : stints ≠ [] := by
    intro hempty
    rw [hnil hempty, hstart, sub_self] at hover
    exact absurd hpos (not_lt.mpr hover)
  refine ⟨stints.getLast hne, List.getLast?_eq_some_getLast hne, ?_⟩
  have hend := hrow.last _ (List.getLast?_eq_some_getLast hne)
  have hbegins := (htimely _ (List.getLast_mem hne)).begins
  change w.timer.now last - start < _
  linarith

/-- A publisher on any surroundings, with stints that last for any times. Its requests and sleeps
are its stints, between the request to connect and the request to disconnect; they follow each other
without a pause, and every send comes right after a pump. As long as the clock never moves
backwards, every stint begins before the duration is over and asks for what it may ask, and if the
run returns, its report tells the truth. -/
theorem run_bounded (quiet : w.session.Quiet) (plan : Plan Rat) (tuning : Tuning Rat)
    (hslice : 0 ≤ tuning.ioSlice) (hquantum : 0 < tuning.pollQuantum) (fuel : Nat)
    (s : Traced (Note Rat) (Client σ η)) :
    let start := w.timer.now (Client.opened w s).state.env
    let e := Action.runFrom (run w plan tuning fuel) s
    ∃ stints, Ran w plan tuning fuel s stints e.1 e.2 ∧
      (∃ (hello : Deal Rat) (goodbyes : List (Deal Rat)),
        Client.deeds e.2 = Client.deeds s ++
          hello.note :: (stints.map (·.deal.note) ++ goodbyes.map Deal.note) ∧
        hello.Asks .connect .connecting ∧ goodbyes.length ≤ 1 ∧
        ∀ d ∈ goodbyes, ∃ phase, d.Asks .disconnect phase) ∧
      (∃ stop, Row start stints stop) ∧
      ((∀ x ∈ stints, x.Forward) →
        (∀ x ∈ stints, x.Timely plan start ∧ x.Asks plan tuning) ∧
        ∀ report, e.1 = .ok report → Tells plan stints report) := by
  intro start e
  obtain ⟨stints, hran⟩ := run_ran (w := w) plan tuning fuel s
  refine ⟨stints, hran, hran.deeds quiet, ?_⟩
  rcases hran.laps with ⟨rfl, hnever⟩ | ⟨first, result, last, hfirst, hlaps, hreturned⟩
  · exact ⟨⟨start, .nil _ _⟩, fun _ =>
      ⟨List.forall_mem_nil _, fun report hreport => absurd hreport (hnever report)⟩⟩
  refine ⟨⟨_, hlaps.row.1⟩, fun hforward => ?_⟩
  have htimely := hlaps.timely hforward (.begin hfirst)
  have hasks := hlaps.asks hslice hquantum
  refine ⟨fun x hx => ⟨htimely x hx, hasks x hx⟩, fun report hreport => ?_⟩
  obtain ⟨q, rfl, rfl⟩ := hreturned report hreport
  exact hlaps.tells rfl htimely

/-- On surroundings whose clock never moves backwards it does not do so during any stint. -/
theorem Ran.forward (hforward : w.Forward) {s t : Traced (Note Rat) (Client σ η)}
    {stints : List (Stint Rat)} {outcome : Except Stop (Report Rat)} {fuel : Nat}
    (h : Ran w plan tuning fuel s stints outcome t) : ∀ x ∈ stints, x.Forward := by
  rcases h.laps with ⟨rfl, -⟩ | ⟨first, result, last, -, hlaps, -⟩
  · exact List.forall_mem_nil _
  · exact hlaps.forall_mem .trivial (fun _ _ _ _ => hforward.pump _ _)
      (fun _ _ _ _ _ => hforward.publish _ _ _ _) (fun _ _ _ _ _ => hforward.sleep _ _)
      (fun _ _ => trivial) trivial

end Bounds

/-- A run of eight seconds in which everything takes half a second longer, and the third send is
refused. -/
def hinderedRun : Except Stop (Report Rat) × Traced (Note Rat) (Client (Rat × Nat) Unit) :=
  Action.runFrom (run (Surroundings.lagging (1 / 2) refusedThird) eightSeconds .standard 20)
    ⟨{ env := (10, 0), kept := () }, []⟩

/-- Its report tells of three sends and one refusal, in a little more than eight seconds. -/
theorem hindered_run_bounded :
    ∃ stints report, hinderedRun.1 = .ok report ∧ Tells eightSeconds stints report ∧
      (∀ x ∈ stints, x.Timely eightSeconds 10 ∧ x.Asks eightSeconds .standard) ∧
      report.sent = 3 ∧ report.errors = 1 ∧ report.elapsed = 8 + 6 / 25 := by
  obtain ⟨stints, hran, -, -, hbounded⟩ :=
    run_bounded (Surroundings.lagging_quiet (1 / 2) refusedThird) eightSeconds .standard
      (by decide +kernel) (by decide +kernel) 20 ⟨{ env := (10, 0), kept := () }, []⟩
  have hforward := hran.forward (Surroundings.lagging_forward (by decide +kernel) refusedThird)
  obtain ⟨hall, htells⟩ := hbounded hforward
  have hend : hinderedRun.1.toOption.any (fun report => decide (report.sent = 3 ∧
      report.errors = 1 ∧ report.elapsed = 8 + 6 / 25)) = true := by decide +kernel
  cases hrun : hinderedRun.1 with
  | error stop =>
    rw [hrun] at hend
    cases hend
  | ok report =>
    rw [hrun] at hend
    exact ⟨stints, report, rfl, htells report hrun, hall, of_decide_eq_true hend⟩

end Publisher

end BrokerLoad
