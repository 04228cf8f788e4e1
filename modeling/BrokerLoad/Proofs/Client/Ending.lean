import BrokerLoad.Proofs.Client.Bounds

/-!
# The end of a publisher's loop

A turn that sends need not take any time, and a turn that sleeps does not get to another message, so
neither the time nor the index alone brings the loop to its end. Together they do: the turns that
may be left are two for each message to come, one for a deadline that lies ahead, and one for each
quantum of the time left. Every turn lowers that number, whatever lag there is, as long as the clock
never moves backwards and a sleep is not cut short.

## Main definitions

* `Publisher.Stint.Unhurried`: a stint that is not over too early.

## Main statements

* `Publisher.turnsLeft_le`: an older measure is no smaller.
* `Publisher.Laps.pumps_lt`: a loop makes fewer pumps than the turns that are left.
* `Publisher.Laps.stopped`: without the fuel to blame a stint is.
* `Publisher.publishAll_ends`: the loop ends within so many turns, and returns if nothing fails.
-/

namespace BrokerLoad

variable {σ η : Type}

namespace Publisher

variable {w : Surroundings Rat σ η} {plan : Plan Rat} {tuning : Tuning Rat}
  {schedule : Schedule Rat} {p q r : Progress Rat}

/-! ## §1 How many turns are left -/

/-- A stint is not over too early: the clock does not move backwards, and a sleep lasts for at least
as long as it was asked to. -/
structure Stint.Unhurried (x : Stint Rat) : Prop where
  forward : x.Forward
  rests : ∀ t, x.deal.note.happening = .sleep t → x.time + t ≤ x.finish

/-- Later, and with fewer messages to come, there are no more turns left. -/
theorem turnsLeft_le {stop quantum : Rat} (hquantum : 0 < quantum) {n j j' : Nat} (hj : j ≤ j')
    {x x' : Rat} (hx : x ≤ x') (deadline : Rat) :
    turnsLeft stop quantum n j' x' deadline ≤ turnsLeft stop quantum n j x deadline := by
  have hceil : ⌈(stop - x') / quantum⌉₊ ≤ ⌈(stop - x) / quantum⌉₊ := by gcongr
  have hahead : (if deadline ≤ x' then 0 else 1) ≤ if deadline ≤ x then 0 else 1 := by
    split
    · exact Nat.zero_le _
    · next h => rw [if_neg fun hle => h (hle.trans hx)]
  unfold turnsLeft
  omega

/-- Before the end there is a turn left besides the last one. -/
theorem one_lt_turnsLeft {stop quantum : Rat} (hquantum : 0 < quantum) (n j : Nat) {x : Rat}
    (hx : x < stop) (deadline : Rat) : 1 < turnsLeft stop quantum n j x deadline := by
  have hceil : 0 < ⌈(stop - x) / quantum⌉₊ := Nat.ceil_pos.mpr (div_pos (sub_pos.mpr hx) hquantum)
  unfold turnsLeft
  omega

/-- The turns that a publisher has left at a time. -/
def Progress.left (plan : Plan Rat) (tuning : Tuning Rat) (schedule : Schedule Rat)
    (p : Progress Rat) (now : Rat) : Nat :=
  turnsLeft (schedule.start + plan.duration) tuning.pollQuantum ⌈plan.duration / schedule.interval⌉₊
    p.index.toNat now p.deadline

/-- A send before the end is one of the messages that were to come. -/
theorem OnSchedule.index_lt {now : Rat} (hinterval : 0 < schedule.interval)
    (h : OnSchedule schedule p now) (hdue : p.deadline ≤ now)
    (hbefore : now < schedule.start + plan.duration) :
    p.index.toNat < ⌈plan.duration / schedule.interval⌉₊ := by
  have hcast : (p.index.toNat : Rat) = p.index := by exact_mod_cast Int.toNat_of_nonneg h.index
  rw [Nat.lt_ceil, lt_div_iff₀ hinterval, hcast]
  have := h.deadline
  linarith

/-- A turn with a send leaves fewer turns. -/
theorem left_send (hquantum : 0 < tuning.pollQuantum) (hinterval : 0 < schedule.interval)
    {now pumped later : Rat} (hp : OnSchedule schedule p pumped) (hnow : now ≤ pumped)
    (hover : pumped ≤ later) (hdue : p.deadline ≤ pumped)
    (hbefore : pumped < schedule.start + plan.duration) (hindex : p.index + 1 ≤ r.index) :
    r.left plan tuning schedule later < p.left plan tuning schedule now := by
  have hnext : p.index.toNat + 1 ≤ r.index.toNat := by
    have := hp.index
    omega
  exact (turnsLeft_le hquantum hnext le_rfl _).trans_lt
    (turnsLeft_send hquantum (hp.index_lt hinterval hdue hbefore) (hnow.trans hover))

/-- A turn with a sleep leaves fewer turns. -/
theorem left_nap (hquantum : 0 < tuning.pollQuantum) {now pumped later : Rat} (hnow : now ≤ pumped)
    (hahead : pumped < p.deadline) (hbefore : pumped < schedule.start + plan.duration)
    (hover : pumped + min (p.deadline - pumped) tuning.pollQuantum ≤ later) :
    p.left plan tuning schedule later < p.left plan tuning schedule now :=
  (turnsLeft_le hquantum le_rfl hover _).trans_lt (turnsLeft_sleep hquantum hnow hahead hbefore)

/-! ## §2 The end of a loop -/

/-- A loop makes fewer pumps than the turns that are left. -/
theorem Laps.pumps_lt (hquantum : 0 < tuning.pollQuantum) (hinterval : 0 < schedule.interval)
    {fuel : Nat} {env last : σ} {stints : List (Stint Rat)} {result : Except Stop (Progress Rat)}
    (h : Laps w plan tuning schedule fuel p env stints result last)
    (hunhurried : ∀ x ∈ stints, x.Unhurried) (hp : OnSchedule schedule p (w.timer.now env)) :
    stints.countP Stint.isPump < p.left plan tuning schedule (w.timer.now env) := by
  induction h with
  | spent => exact Nat.succ_pos _
  | finished _ => exact Nat.succ_pos _
  | cut hbegins _ => exact one_lt_turnsLeft hquantum _ _ (isOver_eq_false.mp hbegins) _
  | late hbegins _ _ => exact one_lt_turnsLeft hquantum _ _ (isOver_eq_false.mp hbegins) _
  | unsent hon _ _ => exact one_lt_turnsLeft hquantum _ _ (isOver_eq_false.mp hon.begins) _
  | astray hon _ _ _ => exact one_lt_turnsLeft hquantum _ _ (isOver_eq_false.mp hon.begins) _
  | woken hon _ _ => exact one_lt_turnsLeft hquantum _ _ (isOver_eq_false.mp hon.begins) _
  | @sent fuel p q r env stints result last hon hdue hafter hadvanced _ ih =>
    obtain ⟨hpump, hrest⟩ := List.forall_mem_cons.mp hunhurried
    obtain ⟨hsend, hmore⟩ := List.forall_mem_cons.mp hrest
    have hpumped := hp.later hpump.forward
    have hless := ih hmore ((hpumped.later hsend.forward).advanced hafter hadvanced)
    have hindex : p.index + 1 ≤ r.index := afterSend_index hafter ▸ (advanced_eq hadvanced).2.1
    have hstep := left_send hquantum hinterval hpumped hpump.forward hsend.forward
      ((Seconds.le_rat _ _).mp hdue) (isOver_eq_false.mp hon.remains) hindex
    calc List.countP Stint.isPump _ = stints.countP Stint.isPump + 1 := List.countP_cons_of_pos rfl
      _ ≤ r.left plan tuning schedule _ := hless
      _ < p.left plan tuning schedule _ := hstep
  | @slept fuel p env stints result last hon hahead _ _ ih =>
    obtain ⟨hpump, hrest⟩ := List.forall_mem_cons.mp hunhurried
    obtain ⟨hnap, hmore⟩ := List.forall_mem_cons.mp hrest
    have hless := ih hmore ((hp.later hpump.forward).later hnap.forward)
    have hlater : w.timer.now (pumped w p env tuning) < p.deadline := by
      rwa [← not_le, ← Seconds.le_rat, Bool.not_eq_true]
    have hover := hnap.rests _ rfl
    rw [nap, Seconds.min_rat] at hover
    have hstep := left_nap hquantum hpump.forward hlater (isOver_eq_false.mp hon.remains) hover
    calc List.countP Stint.isPump _ = stints.countP Stint.isPump + 1 := List.countP_cons_of_pos rfl
      _ ≤ p.left plan tuning schedule _ := hless
      _ < p.left plan tuning schedule _ := hstep

/-- A stop that a send passes on is that of its request, and no refusal. -/
theorem afterSend_stopped (plan : Plan Rat) (time : Rat) {outcome : Except Stop Unit} {stop : Stop}
    (h : p.afterSend outcome = .error stop) :
    outcome = .error stop ∧ (sendDeal plan time outcome).isRefused = false := by
  cases outcome with
  | ok _ => cases h
  | error cause =>
    cases cause with
    | outOfFuel =>
      cases h
      exact ⟨rfl, rfl⟩
    | fault f =>
      cases f with
      | publish e => cases h
      | _ =>
        cases h
        exact ⟨rfl, rfl⟩

/-- A loop that stops has spent its fuel, one pump for each, or the stop is that of a stint that was
not just refused. -/
theorem Laps.stopped {stop : Stop} {fuel : Nat} {env last : σ} {stints : List (Stint Rat)}
    (h : Laps w plan tuning schedule fuel p env stints (.error stop) last)
    (hforward : ∀ x ∈ stints, x.Forward) (hp : OnSchedule schedule p (w.timer.now env)) :
    (stop = .outOfFuel ∧ stints.countP Stint.isPump = fuel) ∨
      ∃ x ∈ stints, x.deal.outcome = .error stop ∧ x.deal.isRefused = false := by
  generalize hresult : Except.error stop = result at h
  induction h with
  | spent =>
    cases hresult
    exact .inl ⟨rfl, rfl⟩
  | finished _ => cases hresult
  | late _ _ _ => cases hresult
  | cut _ hcut =>
    cases hresult
    exact .inr ⟨_, List.mem_cons_self, hcut, rfl⟩
  | @unsent _ p env _ _ _ hafter =>
    cases hresult
    have hstop := afterSend_stopped plan (w.timer.now (pumped w p env tuning)) hafter
    exact .inr ⟨_, List.mem_cons_of_mem _ List.mem_cons_self, hstop⟩
  | astray _ _ hafter hadvanced =>
    -- with exact times there is always a next deadline
    obtain ⟨hpump, hrest⟩ := List.forall_mem_cons.mp hforward
    obtain ⟨hsend, -⟩ := List.forall_mem_cons.mp hrest
    exact absurd hadvanced (((hp.later hpump).later hsend).advanced_ne_error hafter)
  | woken _ _ hwoken =>
    cases hresult
    exact .inr ⟨_, List.mem_cons_of_mem _ List.mem_cons_self, hwoken, rfl⟩
  | sent _ _ hafter hadvanced _ ih =>
    obtain ⟨hpump, hrest⟩ := List.forall_mem_cons.mp hforward
    obtain ⟨hsend, hmore⟩ := List.forall_mem_cons.mp hrest
    have hnext := ((hp.later hpump).later hsend).advanced hafter hadvanced
    rcases ih hmore hnext hresult with ⟨hstop, hcount⟩ | ⟨x, hx, hend⟩
    · exact .inl ⟨hstop, (List.countP_cons_of_pos rfl).trans (congrArg Nat.succ hcount)⟩
    · exact .inr ⟨x, List.mem_cons_of_mem _ (List.mem_cons_of_mem _ hx), hend⟩
  | slept _ _ _ _ ih =>
    obtain ⟨hpump, hrest⟩ := List.forall_mem_cons.mp hforward
    obtain ⟨hnap, hmore⟩ := List.forall_mem_cons.mp hrest
    rcases ih hmore ((hp.later hpump).later hnap) hresult with ⟨hstop, hcount⟩ | ⟨x, hx, hend⟩
    · exact .inl ⟨hstop, (List.countP_cons_of_pos rfl).trans (congrArg Nat.succ hcount)⟩
    · exact .inr ⟨x, List.mem_cons_of_mem _ (List.mem_cons_of_mem _ hx), hend⟩

/-- The turns that are left when the loop begins. -/
theorem left_begin (plan : Plan Rat) (tuning : Tuning Rat) (start : Rat) {first : Rat}
    (hfirst : (scheduleOf plan start).deadline 0 = .ok first) :
    Progress.left plan tuning (scheduleOf plan start) { deadline := first } start =
      2 * ⌈plan.duration / plan.interval⌉₊ + ⌈plan.duration / tuning.pollQuantum⌉₊ + 1 := by
  have hdue : first ≤ start := by
    have hzero := (OnSchedule.begin hfirst).deadline
    rw [Int.cast_zero, zero_mul, add_zero] at hzero
    exact hzero.le
  have hduration : start + plan.duration - start = plan.duration := add_sub_cancel_left _ _
  simp only [Progress.left, turnsLeft, scheduleOf, if_pos hdue, hduration, Int.toNat_zero,
    Nat.sub_zero, Nat.add_zero]

/-- A publisher on an open session, with stints that last for any times, or for no time. As long as
the clock never moves backwards and no sleep is cut short, its loop ends within so many turns,
whatever the slices are: it makes fewer pumps than that, and with fuel for as many it does not end
for want of fuel, unless the reply to a request does. If every request and every sleep goes well,
apart from refusals, it returns. -/
theorem publishAll_ends (plan : Plan Rat) (tuning : Tuning Rat) (hquantum : 0 < tuning.pollQuantum)
    (fuel : Nat) (s : Traced (Note Rat) (Client σ η)) :
    let e := Action.runFrom (publishAll w plan tuning fuel) s
    let turns := 2 * ⌈plan.duration / plan.interval⌉₊ + ⌈plan.duration / tuning.pollQuantum⌉₊ + 1
    ∃ stints, Worked w plan tuning fuel s.state.env stints e.1 e.2.state.env ∧
      Client.Course w s (stints.map Stint.deal) e.2 ∧
      ((∀ x ∈ stints, x.Unhurried) →
        stints.countP Stint.isPump < turns ∧
        (turns ≤ fuel →
          (e.1 = .error .outOfFuel → ∃ x ∈ stints, x.deal.outcome = .error .outOfFuel) ∧
          (plan.checkPayload w.memory = .ok () →
            (∀ x ∈ stints, x.deal.outcome = .ok () ∨ x.deal.isRefused = true) →
            ∃ report, e.1 = .ok report))) := by
  intro e turns
  obtain ⟨stints, hworked, hcourse⟩ := publishAll_worked (w := w) plan tuning fuel s
  refine ⟨stints, hworked, hcourse, fun hunhurried => ?_⟩
  change Worked w plan tuning fuel s.state.env stints e.1 e.2.state.env at hworked
  generalize e.1 = outcome, e.2.state.env = left at hworked
  cases hworked with
  | unfit hpayload =>
    refine ⟨Nat.succ_pos _, fun _ => ⟨nofun, fun hfit => ?_⟩⟩
    rw [hpayload] at hfit
    cases hfit
  | unscheduled _ hfirst => cases hfirst
  | @looped first _ result _ _ hfirst hlaps =>
    have hbegin := OnSchedule.begin hfirst
    have hpumps := hlaps.pumps_lt hquantum (of_decide_eq_true plan.interval_pos) hunhurried hbegin
    rw [left_begin plan tuning _ hfirst] at hpumps
    refine ⟨hpumps, fun hfuel => ?_⟩
    cases result with
    | ok q => exact ⟨nofun, fun _ _ => ⟨_, rfl⟩⟩
    | error stop =>
      rcases hlaps.stopped (fun x hx => (hunhurried x hx).forward) hbegin with
        ⟨-, hspent⟩ | ⟨x, hx, hstop, hnot⟩
      · exact absurd hspent (hpumps.trans_le hfuel).ne
      · refine ⟨fun hend => ⟨x, hx, ?_⟩, fun _ hwell => ?_⟩
        · rw [hstop]
          cases hend
          rfl
        · rcases hwell x hx with hok | hrefused
          · rw [hstop] at hok
            cases hok
          · rw [hnot] at hrefused
            cases hrefused

/-- A send on lagging surroundings is taken or refused. -/
theorem lagging_send (lag : Rat) (refusal : Nat → Option PublishError) (p : Progress Rat)
    (env : Rat × Nat) :
    let d := (sendStint (Surroundings.lagging lag refusal) p env plan).deal
    d.outcome = .ok () ∨ d.isRefused = true := by
  have hdeal : (sendStint (Surroundings.lagging lag refusal) p env plan).deal =
      sendDeal plan env.1 (sendOutcome (refusal env.2)) := rfl
  rw [hdeal]
  cases refusal env.2 with
  | none => exact .inl rfl
  | some e => exact .inr rfl

/-- On lagging surroundings no stint is over too early, and only sends are refused. -/
theorem Worked.lagging {lag : Rat} (hlag : 0 ≤ lag) {refusal : Nat → Option PublishError}
    {env last : Rat × Nat} {fuel : Nat} {stints : List (Stint Rat)}
    {outcome : Except Stop (Report Rat)}
    (h : Worked (Surroundings.lagging lag refusal) plan tuning fuel env stints outcome last) :
    ∀ x ∈ stints, x.Unhurried ∧ (x.deal.outcome = .ok () ∨ x.deal.isRefused = true) := by
  have hforward := Surroundings.lagging_forward hlag refusal
  cases h with
  | unfit _ => exact List.forall_mem_nil _
  | unscheduled _ _ => exact List.forall_mem_nil _
  | looped _ _ hlaps =>
    refine hlaps.forall_mem .trivial (fun _ _ _ _ => ⟨⟨hforward.pump _ _, nofun⟩, .inl rfl⟩)
      (fun p env _ _ _ => ⟨⟨hforward.publish plan.settings.topic plan.payload plan.settings.qos env,
        nofun⟩, lagging_send lag refusal p env⟩)
      (fun p env _ _ _ => ⟨⟨hforward.sleep _ _, fun t ht => ?_⟩, .inl rfl⟩)
      (fun _ _ => trivial) trivial
    obtain rfl : nap p tuning env.1 = t := Happening.sleep.inj ht
    have hlong : nap p tuning env.1 ≤ max 0 (nap p tuning env.1) + lag :=
      (le_max_right _ _).trans (le_add_of_nonneg_right hlag)
    exact add_le_add_right hlong env.1

/-- With half a second of lag in everything, a plan for eight seconds takes at most 169 turns. -/
theorem hindered_work_ends :
    ∃ report, (Action.runFrom
      (publishAll (Surroundings.lagging (1 / 2) refusedThird) eightSeconds .standard 169)
      ⟨{ env := (10, 0), kept := () }, []⟩).1 = .ok report := by
  obtain ⟨stints, hworked, -, hends⟩ :=
    publishAll_ends (w := Surroundings.lagging (1 / 2) refusedThird) eightSeconds .standard
      (by decide +kernel) 169 ⟨{ env := (10, 0), kept := () }, []⟩
  have hall := hworked.lagging (by decide +kernel)
  exact ((hends fun x hx => (hall x hx).1).2 (by decide +kernel)).2 rfl fun x hx => (hall x hx).2

end Publisher

end BrokerLoad
