import BrokerLoad.Proofs.Client.Count
import BrokerLoad.Proofs.Client.Stints
import BrokerLoad.Proofs.Number.Quotient
import BrokerLoad.Rehearsal.Clock

/-!
# Publishing with rounded times

The times of a run are double-precision numbers, and a plan may hold any duration and any interval
above zero, infinite ones as well. On surroundings that never fail by themselves a publisher can
still fail, because a deadline, a sleep or a quotient is not what it should be. Here it is said what
can go wrong with a finite interval: every deadline is a number, no sleep is refused, and all that
can fail is the quotient that says which deadline is due after a send.

## Main definitions

* `Surroundings.Steady`: surroundings that never fail by themselves.
* `Publisher.Dated`: a progress with the deadline of its index, at a time that is not before the
  start.
* `Publisher.Stint.Astray`: a send after which it cannot be told which deadline is due.

## Main statements

* `Publisher.dated_invariant`: with a finite interval the turns keep to the deadlines of the
  schedule.
* `Publisher.Laps.faults_iff`: a loop with a finite interval faults only after such a send.
* `Publisher.Laps.told`: what has a finite quotient is no such send.
-/

namespace BrokerLoad

variable {σ η : Type}

/-- Surroundings that never fail by themselves: every request is granted, the clock moves on by what
is asked for in a pump or a sleep, and it does not move backwards when a message is sent. A sleep is
refused only for its length. -/
structure Surroundings.Steady (w : Surroundings Double σ η) : Prop where
  quiet : w.session.Quiet
  connect : ∀ env, (w.session.connect env).1.outcome = .ok ()
  disconnect : ∀ env, (w.session.disconnect env).1.outcome = .ok ()
  pump : ∀ t env, (w.session.pump t env).1.outcome = .ok () ∧
    w.timer.now (w.session.pump t env).2 = w.timer.now env + t
  publish : ∀ topic payload qos env,
    (w.session.publish topic payload qos env).1.outcome = .ok () ∧
      (w.timer.now env ≠ .nan →
        (w.timer.now env).le (w.timer.now (w.session.publish topic payload qos env).2) = true)
  sleep : ∀ t env, sleepFault? t none = none →
    (w.timer.sleep t env).1 = .ok () ∧ w.timer.now (w.timer.sleep t env).2 = w.timer.now env + t
  refuse : ∀ t env f, sleepFault? t none = some f → (w.timer.sleep t env).1 = .error f

/-- A message is sent in no time. -/
def Surroundings.Prompt (w : Surroundings Double σ η) : Prop :=
  ∀ topic payload qos env,
    w.timer.now (w.session.publish topic payload qos env).2 = w.timer.now env

namespace Publisher

/-! ## §1 What a turn computes -/

section Turn

variable {plan : Plan Double} {tuning : Tuning Double} {schedule : Schedule Double}
  {p q r : Progress Double} {start now later : Double}

/-- A time that is not negative, and a number. -/
def IsSpan (t : Double) : Prop := t ≠ .nan ∧ 0 ≤ t.place

/-- Whatever it is that a pump is bounded by, its length is a span. -/
theorem isSpan_max_zero (t : Double) : IsSpan (Seconds.max Seconds.zero t) := by
  have hzero : IsSpan (Seconds.zero : Double) := ⟨Double.ofNat_ne_nan 0, Double.place_zero.ge⟩
  unfold Seconds.max
  split
  · next hlt =>
    obtain ⟨-, hne, hless⟩ := Double.lt_iff.mp hlt
    exact ⟨hne, hzero.2.trans hless.le⟩
  · exact hzero

/-- Until a deadline that lies ahead there is a span. -/
theorem isSpan_sub {deadline : Double} (hnow : now.isFinite = true) (hdeadline : deadline ≠ .nan)
    (hahead : deadline.le now = false) : IsSpan (deadline - now) :=
  Double.sub_nonneg_of_le hnow
    (Double.le_of_not_le hdeadline (Double.ne_nan_of_isFinite hnow) hahead)

/-- The smaller of a number and something else is no larger than the number. -/
theorem min_le (t bound : Double) : (Seconds.min t bound).place ≤ t.place := by
  unfold Seconds.min
  split
  · next hlt => exact (Double.lt_iff.mp hlt).2.2.le
  · exact le_rfl

/-- The smaller of a span and something that is not negative is a span. -/
theorem IsSpan.min {t bound : Double} (h : IsSpan t) (hbound : bound.lt 0 = false) :
    IsSpan (Seconds.min t bound) := by
  unfold Seconds.min
  split
  · next hlt =>
    obtain ⟨hne, -, -⟩ := Double.lt_iff.mp hlt
    refine ⟨hne, ?_⟩
    rw [← Bool.not_eq_true, Double.lt_iff, Double.place_zero] at hbound
    by_contra hneg
    exact hbound ⟨hne, Double.ofNat_ne_nan 0, by omega⟩
  · exact h

/-- After a span of no length the clock is where it was. -/
theorem IsSpan.add_of_nonpos {t : Double} (h : IsSpan t) (hzero : t.place ≤ 0)
    (hnow : now.isFinite = true) : now + t ≠ .nan ∧ (now + t).place = now.place := by
  have hplace : t.place = 0 := Int.le_antisymm hzero h.2
  have hfinite :=
    Double.isFinite_of_place Double.isFinite_zero h.1 (hplace.trans Double.place_zero.symm)
  exact Double.place_add_of_zero hnow hfinite hplace

/-- No sleep for a span is refused. -/
theorem sleepFault?_eq_none {t : Double} (h : IsSpan t) : sleepFault? t none = none := by
  have hle : Seconds.le t t = true := Double.le_iff.mpr ⟨h.1, h.1, le_rfl⟩
  have hlt : Seconds.lt t Seconds.zero = false := Double.lt_zero_eq_false h.2
  rw [sleepFault?, hle, hlt]
  rfl

theorem isOver_eq (plan : Plan Double) (start now : Double) :
    isOver plan (scheduleOf plan start) now = plan.duration.le (now - start) := rfl

/-- The loop goes on only at finite times. -/
theorem isFinite_of_isOver (hstart : start.isFinite = true)
    (hduration : plan.duration.isFinite = true) (hnow : start.le now = true)
    (hover : isOver plan (scheduleOf plan start) now = false) : now.isFinite = true := by
  by_contra hinfinite
  rw [Bool.not_eq_true] at hinfinite
  obtain rfl := Double.eq_infinite_of_le hstart hnow hinfinite
  have hle : plan.duration.le (Double.infinite false - start) = true := by
    have hbound := ((Double.isFinite_iff (Double.ne_nan_of_isFinite hduration)).mp hduration).2
    cases hs : start with
    | finite s m => exact Double.le_iff.mpr ⟨Double.ne_nan_of_isFinite hduration, nofun, hbound.le⟩
    | nan => rw [hs] at hstart; cases hstart
    | infinite s => rw [hs] at hstart; cases hstart
  rw [isOver_eq, hle] at hover
  cases hover

/-- The time that has passed when the loop goes on is a span, and shorter than the duration. -/
theorem passed_lt (hstart : start.isFinite = true) (hduration : plan.duration.isFinite = true)
    (hnow : start.le now = true) (hover : isOver plan (scheduleOf plan start) now = false) :
    IsSpan (now - start) ∧ (now - start).place < plan.duration.place := by
  obtain ⟨hne, h0⟩ := Double.sub_nonneg_of_le hstart hnow
  rw [isOver_eq, ← Bool.not_eq_true, Double.le_iff] at hover
  refine ⟨⟨hne, h0⟩, ?_⟩
  by_contra hle
  exact hover ⟨Double.ne_nan_of_isFinite hduration, hne, by omega⟩

/-- A deadline is the start and a multiple of the interval. -/
theorem deadline_eq {k : Int} (hk : 0 ≤ k) {deadline : Double}
    (h : schedule.deadline k = .ok deadline) :
    ∃ t, Seconds.times k schedule.interval = .ok t ∧ deadline = schedule.start + t := by
  rw [Schedule.deadline, if_neg (Int.not_lt.mpr hk)] at h
  cases htimes : Seconds.times k schedule.interval with
  | error f =>
    rw [htimes] at h
    cases h
  | ok t =>
    rw [htimes] at h
    exact ⟨t, rfl, (Except.ok.inj h).symm⟩

/-- The place of an interval is above zero. -/
theorem interval_place_pos (schedule : Schedule Double) : 0 < schedule.interval.place := by
  obtain ⟨-, -, hpos⟩ := Double.lt_iff.mp schedule.interval_pos
  rwa [show (Seconds.zero : Double).place = 0 from Double.place_zero] at hpos

/-- A deadline at a finite interval is a number, and not before the start. -/
theorem le_deadline {k : Int} (hk : 0 ≤ k) {deadline : Double}
    (h : schedule.deadline k = .ok deadline) (hstart : schedule.start.isFinite = true)
    (hinterval : schedule.interval.isFinite = true) : schedule.start.le deadline = true := by
  obtain ⟨t, ht, rfl⟩ := deadline_eq hk h
  obtain ⟨hne, h0⟩ := Double.times_nonneg hinterval (interval_place_pos schedule).le hk ht
  exact Double.le_add_of_nonneg hstart hne h0

/-- The index of the last deadline due is no larger than the largest number. -/
theorem le_largestInteger_of_lastDue {due : Int} (h : schedule.lastDue now = .ok due) :
    due ≤ largestInteger := by
  unfold Schedule.lastDue at h
  split at h
  · obtain rfl := Except.ok.inj h
    exact (Int.neg_nonpos_of_nonneg Int.one_nonneg).trans (Int.natCast_nonneg _)
  · exact Double.le_largestInteger_of_toInt h

/-- A deadline can be computed for every index that is not far beyond the largest number. -/
theorem exists_deadline (schedule : Schedule Double) {k : Int} (hk : 0 ≤ k) {most : Nat}
    (hmost : most < twoPow 970) (hbound : k ≤ largestInteger + most) :
    ∃ deadline, schedule.deadline k = .ok deadline := by
  have hnumber : k.natAbs + twoPow 970 < twoPow 1024 := by
    have hdouble : twoPow 971 = twoPow 970 * twoPow 1 := twoPow_add 970 1
    have htwo : twoPow 1 = 2 := rfl
    have hless : twoPow 971 < twoPow 1024 := twoPow_lt (by decide)
    rw [htwo] at hdouble
    unfold largestInteger at hbound
    generalize twoPow 970 = a, twoPow 971 = b, twoPow 1024 = c at *
    omega
  obtain ⟨t, ht⟩ := Double.exists_times schedule.interval hnumber
  refine ⟨schedule.start + t, ?_⟩
  rw [Schedule.deadline, if_neg (Int.not_lt.mpr hk), ht]
  rfl

/-- The first deadline is at the start. -/
theorem place_deadline_zero {first : Double} (h : schedule.deadline 0 = .ok first)
    (hstart : schedule.start.isFinite = true) (hinterval : schedule.interval.isFinite = true) :
    first ≠ .nan ∧ first.place = schedule.start.place := by
  obtain ⟨t, ht, rfl⟩ := deadline_eq le_rfl h
  obtain ⟨hfinite, hplace⟩ := Double.times_zero hinterval (interval_place_pos schedule).le ht
  exact Double.place_add_of_zero hstart hfinite hplace

/-- The second deadline is one interval after the start. -/
theorem place_deadline_one {second : Double} (h : schedule.deadline 1 = .ok second)
    (hstart : schedule.start.isFinite = true) (hinterval : schedule.interval.isFinite = true) :
    second ≠ .nan ∧ second.place = (schedule.start + schedule.interval).place := by
  obtain ⟨t, ht, rfl⟩ := deadline_eq Int.one_nonneg h
  obtain ⟨hfinite, hplace⟩ := Double.times_one hinterval (interval_place_pos schedule).le ht
  obtain ⟨hne, hsum⟩ := Double.place_add hstart hfinite
  rw [hplace, ← (Double.place_add hstart hinterval).2] at hsum
  exact ⟨hne, hsum⟩

/-- With an infinite interval the first deadline is no number. -/
theorem deadline_zero_of_infinite {first : Double} (h : schedule.deadline 0 = .ok first)
    (hinterval : schedule.interval.isFinite = false) : first = .nan := by
  obtain ⟨t, ht, rfl⟩ := deadline_eq le_rfl h
  obtain ⟨y, hy, rfl⟩ := Double.times_eq ht
  obtain ⟨hfinite, hplace⟩ := Double.ofInt?_eq hy
  rw [Int.zero_mul, Double.nearest_zero] at hplace
  have hproduct : y * schedule.interval = .nan := by
    cases y with
    | finite s m =>
      obtain ⟨hm, -⟩ := Double.units_eq hplace.ge
      rw [hplace, Int.toNat_zero] at hm
      cases hinf : schedule.interval with
      | nan => rfl
      | infinite t =>
        change Double.mul _ _ = _
        rw [Double.mul, if_pos hm]
      | finite t n =>
        rw [hinf] at hinterval
        cases hinterval
    | _ => cases hfinite
  rw [hproduct]
  cases schedule.start <;> rfl

/-- A pump takes no longer than until the deadline, and no time at all once that has come. -/
theorem slice_le (io : Double) {rest : Double} (hrest : rest ≠ .nan) :
    (Seconds.max Seconds.zero (Seconds.min io rest)).place ≤ max 0 rest.place := by
  have hzero : (Seconds.zero : Double).place = 0 := Double.place_zero
  unfold Seconds.max
  split
  · next hlt =>
    obtain ⟨-, hne, hless⟩ := Double.lt_iff.mp hlt
    refine le_max_of_le_right ?_
    cases hmin : Seconds.lt rest io with
    | true =>
      rw [Seconds.min, if_pos hmin]
    | false =>
      rw [Seconds.min, if_neg (by rw [hmin]; exact Bool.false_ne_true)] at hne ⊢
      by_contra hmore
      have hlt : rest.lt io = true := Double.lt_iff.mpr ⟨hrest, hne, Int.not_le.mp hmore⟩
      exact Bool.false_ne_true (hmin.symm.trans hlt)
  · rw [hzero]
    exact le_max_left _ _

/-- At the start the duration is not over. -/
theorem not_over_of_place (plan : Plan Double) (hstart : start.isFinite = true) (hnow : now ≠ .nan)
    (h : now.place = start.place) : isOver plan (scheduleOf plan start) now = false := by
  obtain ⟨hne, hplace⟩ := Double.place_sub_of_place hstart hnow h
  obtain ⟨-, -, hpos⟩ := Double.lt_iff.mp plan.duration_pos
  rw [show (Seconds.zero : Double).place = 0 from Double.place_zero] at hpos
  rw [isOver_eq, ← Bool.not_eq_true, Double.le_iff, hplace]
  omega

/-- From the start on the last deadline due is told by a quotient. -/
theorem lastDue_eq (hnow : schedule.start.le now = true) :
    schedule.lastDue now = Seconds.wholeQuotient (now - schedule.start) schedule.interval := by
  obtain ⟨-, -, hle⟩ := Double.le_iff.mp hnow
  refine if_neg fun hlt => ?_
  obtain ⟨-, -, hless⟩ := Double.lt_iff.mp hlt
  exact Int.not_lt.mpr hle hless

/-- At the start it is the first deadline that is due. -/
theorem lastDue_of_place (hstart : schedule.start.isFinite = true)
    (hinterval : schedule.interval.isFinite = true) (hnow : now ≠ .nan)
    (h : now.place = schedule.start.place) : schedule.lastDue now = .ok 0 := by
  obtain ⟨hne, hplace⟩ := Double.place_sub_of_place hstart hnow h
  have hpos := interval_place_pos schedule
  rw [lastDue_eq (Double.le_iff.mpr ⟨Double.ne_nan_of_isFinite hstart, hnow, h.ge⟩)]
  exact Double.wholeQuotient_of_lt
    (Double.isFinite_of_le hne hplace.ge hinterval (hplace.trans_le hpos.le)) hplace.ge hinterval
    (hplace.trans_lt hpos)

/-- As long as the quotient of the time that has passed is finite, it can be told which deadline is
due. -/
theorem exists_lastDue (hnow : schedule.start.le now = true)
    (hstart : schedule.start.isFinite = true) (hinterval : schedule.interval.isFinite = true)
    (hquotient : ((now - schedule.start) / schedule.interval).isFinite = true) :
    ∃ due, schedule.lastDue now = .ok due := by
  rw [lastDue_eq hnow]
  exact Double.wholeQuotient_ok (Double.isFinite_of_div hinterval hquotient)
    (Double.sub_nonneg_of_le hstart hnow).2 hinterval (interval_place_pos schedule) hquotient

/-- If there is no next deadline, it cannot be told which one is due. -/
theorem exists_of_advanced_error {f : Fault} (hindex : 0 ≤ q.index) {most : Nat}
    (hmost : most < twoPow 970) (hbound : q.index + 1 ≤ largestInteger + most)
    (h : q.advanced schedule now = .error f) : ∃ f, schedule.lastDue now = .error f := by
  cases hdue : schedule.lastDue now with
  | error f => exact ⟨f, rfl⟩
  | ok due =>
    have hle := le_largestInteger_of_lastDue hdue
    obtain ⟨deadline, hdeadline⟩ := exists_deadline schedule (k := max (q.index + 1) due)
      (by omega) hmost (by omega)
    exact nomatch (advanced_of_lastDue hdue hdeadline).symm.trans h

end Turn

/-! ## §2 Loops with a finite interval -/

/-- A progress with the deadline of its index, at a time that is not before the start. -/
structure Dated (schedule : Schedule Double) (p : Progress Double) (now : Double) : Prop where
  started : schedule.start.le now = true
  index : 0 ≤ p.index
  deadline : schedule.deadline p.index = .ok p.deadline

namespace Dated

variable {schedule : Schedule Double} {p q r : Progress Double} {now ends first : Double}

theorem begin (hstart : schedule.start.isFinite = true) (hnow : now = schedule.start)
    (hfirst : schedule.deadline 0 = .ok first) : Dated schedule { deadline := first } now := by
  have hne := Double.ne_nan_of_isFinite hstart
  rw [hnow]
  exact ⟨Double.le_iff.mpr ⟨hne, hne, le_rfl⟩, le_rfl, hfirst⟩

theorem le_deadline (h : Dated schedule p now) (hstart : schedule.start.isFinite = true)
    (hinterval : schedule.interval.isFinite = true) : schedule.start.le p.deadline = true :=
  Publisher.le_deadline h.index h.deadline hstart hinterval

theorem deadline_ne_nan (h : Dated schedule p now) (hstart : schedule.start.isFinite = true)
    (hinterval : schedule.interval.isFinite = true) : p.deadline ≠ .nan :=
  (Double.le_iff.mp (h.le_deadline hstart hinterval)).2.1

theorem later (h : Dated schedule p now) (hle : now.le ends = true) : Dated schedule p ends :=
  { h with started := Double.le_trans h.started hle }

theorem advanced {outcome : Except Stop Unit} (h : Dated schedule p now)
    (hle : now.le ends = true) (hafter : p.afterSend outcome = .ok q)
    (hadvanced : q.advanced schedule ends = .ok r) : Dated schedule r ends := by
  obtain ⟨-, hindex, hdeadline⟩ := advanced_eq hadvanced
  have hsame : q.index = p.index := afterSend_index hafter
  have hp := h.index
  exact ⟨Double.le_trans h.started hle, by omega, hdeadline⟩

end Dated

section Loop

variable {w : Surroundings Double σ η} {plan : Plan Double} {tuning : Tuning Double}
  {p q r : Progress Double} {start : Double} (steady : w.Steady) (hstart : start.isFinite = true)
  (hduration : plan.duration.isFinite = true)

include steady

/-- A pump moves the clock by a span, and not past the deadline if that lies ahead. -/
theorem pumped_eq (tuning : Tuning Double) {env : σ} (hnow : (w.timer.now env).isFinite = true)
    (hdeadline : p.deadline ≠ .nan) :
    ∃ t, IsSpan t ∧ t.place ≤ max 0 (p.deadline - w.timer.now env).place ∧
      w.timer.now (pumped w p env tuning) = w.timer.now env + t :=
  ⟨_, isSpan_max_zero _, slice_le _ (Double.sub_ne_nan hdeadline hnow), (steady.pump _ env).2⟩

/-- A sleep toward a deadline that lies ahead is not refused, and moves the clock by a span, not
past the deadline. -/
theorem rested_eq (hquantum : tuning.pollQuantum.lt 0 = false) {env : σ}
    (hnow : (w.timer.now env).isFinite = true) (hdeadline : p.deadline ≠ .nan)
    (hahead : p.deadline.le (w.timer.now env) = false) :
    (napStint w p env tuning).deal.outcome = .ok () ∧
      ∃ t, IsSpan t ∧ t.place ≤ (p.deadline - w.timer.now env).place ∧
        w.timer.now (rested w p env tuning) = w.timer.now env + t := by
  have hrest := isSpan_sub hnow hdeadline hahead
  have hspan : IsSpan (nap p tuning (w.timer.now env)) := hrest.min hquantum
  obtain ⟨hok, hclock⟩ := steady.sleep _ env (sleepFault?_eq_none hspan)
  refine ⟨?_, _, hspan, min_le _ _, hclock⟩
  change (w.timer.sleep _ env).1.mapError Stop.fault = .ok ()
  rw [hok]
  rfl

/-- No send is refused. -/
theorem sendStint_ok (plan : Plan Double) (p : Progress Double) (env : σ) :
    (sendStint w p env plan).deal.outcome = .ok () := (steady.publish _ _ _ _).1

/-- The clock does not move backwards during a send. -/
theorem le_sent (plan : Plan Double) {env : σ} (h : start.le (w.timer.now env) = true) :
    (w.timer.now env).le (w.timer.now (sent w env plan)) = true :=
  (steady.publish plan.settings.topic plan.payload plan.settings.qos env).2 (Double.le_iff.mp h).2.1

include hstart hduration

/-- With a finite interval the turns keep to the deadlines of the schedule. -/
theorem dated_invariant (tuning : Tuning Double) (hinterval : plan.interval.isFinite = true)
    (hquantum : tuning.pollQuantum.lt 0 = false) :
    Invariant w plan tuning (scheduleOf plan start) (fun _ => True)
      fun p env => Dated (scheduleOf plan start) p (w.timer.now env) where
  pump p env h hover _ := by
    have hfinite := isFinite_of_isOver hstart hduration h.started hover
    obtain ⟨t, ht, -, hclock⟩ :=
      pumped_eq steady tuning hfinite (h.deadline_ne_nan hstart hinterval)
    rw [hclock]
    exact h.later (Double.le_add_of_nonneg hfinite ht.1 ht.2)
  send p q r env h hover _ _ hafter hadvanced :=
    h.advanced (le_sent steady plan h.started) hafter hadvanced
  nap p env h hover hahead _ := by
    have hfinite := isFinite_of_isOver hstart hduration h.started hover
    obtain ⟨-, t, ht, -, hclock⟩ :=
      rested_eq steady hquantum hfinite (h.deadline_ne_nan hstart hinterval) hahead
    rw [hclock]
    exact h.later (Double.le_add_of_nonneg hfinite ht.1 ht.2)

/-- A stint is a send after which it cannot be told which deadline is due. -/
def Stint.Astray (schedule : Schedule Double) (x : Stint Double) : Prop :=
  x.isSend = true ∧ ∃ f, schedule.lastDue x.finish = .error f

omit steady hstart hduration in
/-- Neither does a loop fault nor is there such a send. -/
theorem faults_iff_of_not {result : Except Stop (Progress Double)} {stints : List (Stint Double)}
    (hresult : ∀ f, result ≠ .error (.fault f))
    (hstints : ∀ x ∈ stints, ¬ x.Astray (scheduleOf plan start)) :
    (∃ f, result = .error (.fault f)) ↔ ∃ x ∈ stints, x.Astray (scheduleOf plan start) :=
  ⟨fun ⟨f, hf⟩ => absurd hf (hresult f), fun ⟨x, hx, hastray⟩ => absurd hastray (hstints x hx)⟩

omit steady hstart hduration in
/-- A pump or a sleep is no such send. -/
theorem not_astray {x : Stint Double} (hx : x.isSend = false) {schedule : Schedule Double} :
    ¬ x.Astray schedule := fun h => Bool.false_ne_true (hx.symm.trans h.1)

omit steady hstart hduration in
/-- Nor is a send after which it can be told. -/
theorem not_astray_of_told {x : Stint Double} {schedule : Schedule Double} {due : Int}
    (hdue : schedule.lastDue x.finish = .ok due) : ¬ x.Astray schedule :=
  fun ⟨_, _, hf⟩ => nomatch hdue.symm.trans hf

omit steady hstart hduration in
/-- A turn without such a send adds none. -/
theorem exists_astray_cons {x y : Stint Double} {stints : List (Stint Double)}
    {schedule : Schedule Double} (hx : ¬ x.Astray schedule) (hy : ¬ y.Astray schedule) :
    (∃ z ∈ x :: y :: stints, z.Astray schedule) ↔ ∃ z ∈ stints, z.Astray schedule := by
  rw [List.exists_mem_cons_iff, List.exists_mem_cons_iff, or_iff_right hx, or_iff_right hy]

/-- A loop with a finite interval, and fuel for no more turns than there are indices, faults if and
only if it cannot be told after some send which deadline is due. -/
theorem Laps.faults_iff (hinterval : plan.interval.isFinite = true)
    (hquantum : tuning.pollQuantum.lt 0 = false) {fuel most : Nat} {env last : σ}
    {stints : List (Stint Double)} {result : Except Stop (Progress Double)}
    (h : Laps w plan tuning (scheduleOf plan start) fuel p env stints result last)
    (hmost : most < twoPow 970) (hfuel : fuel ≤ most)
    (hindex : p.index + fuel ≤ largestInteger + most)
    (hp : Dated (scheduleOf plan start) p (w.timer.now env)) :
    (∃ f, result = .error (.fault f)) ↔ ∃ x ∈ stints, x.Astray (scheduleOf plan start) := by
  have hinv := dated_invariant steady hstart hduration tuning hinterval hquantum
  induction h with
  | spent => exact faults_iff_of_not (fun _ => by simp) (List.forall_mem_nil _)
  | finished _ => exact faults_iff_of_not (fun _ => by simp) (List.forall_mem_nil _)
  | cut _ hcut => exact absurd ((steady.pump _ _).1.symm.trans hcut) (by simp)
  | late _ _ _ =>
    exact faults_iff_of_not (fun _ => by simp) (List.forall_mem_singleton.mpr (not_astray rfl))
  | unsent _ _ hafter =>
    rw [sendStint_ok steady] at hafter
    cases hafter
  | astray hon hdue hafter hadvanced =>
    have hsame := afterSend_index hafter
    have hastray := exists_of_advanced_error (by rw [hsame]; exact hp.index) hmost
      (by rw [hsame]; push_cast at hindex; omega) hadvanced
    exact ⟨fun _ => ⟨_, List.mem_cons_of_mem _ List.mem_cons_self, rfl, hastray⟩, fun _ => ⟨_, rfl⟩⟩
  | woken hon hahead hwoken =>
    have hpumped := hinv.pump _ _ hp hon.begins trivial
    have hfinite := isFinite_of_isOver hstart hduration hpumped.started hon.remains
    have hok := (rested_eq steady hquantum hfinite (hp.deadline_ne_nan hstart hinterval) hahead).1
    exact absurd (hok.symm.trans hwoken) (by simp)
  | sent hon hdue hafter hadvanced _ ih =>
    have hpumped := hinv.pump _ _ hp hon.begins trivial
    have hnext := hinv.send _ _ _ _ hpumped hon.remains hdue trivial hafter hadvanced
    obtain ⟨due, deadline, hlast, -, rfl⟩ := exists_of_advanced hadvanced
    have hle := le_largestInteger_of_lastDue hlast
    have hsame := afterSend_index hafter
    have hmore := ih (by omega) (by push_cast at hindex ⊢; omega) hnext
    exact hmore.trans (exists_astray_cons (not_astray rfl) (not_astray_of_told hlast)).symm
  | slept hon hahead _ _ ih =>
    have hpumped := hinv.pump _ _ hp hon.begins trivial
    have hrested := hinv.nap _ _ hpumped hon.remains hahead trivial
    have hmore := ih (by omega) (by push_cast at hindex ⊢; omega) hrested
    exact hmore.trans (exists_astray_cons (not_astray rfl) (not_astray rfl)).symm

/-- It can be told after a send which deadline is due if the quotient is finite. -/
theorem Laps.told (hinterval : plan.interval.isFinite = true)
    (hquantum : tuning.pollQuantum.lt 0 = false) {fuel : Nat} {env last : σ}
    {stints : List (Stint Double)} {result : Except Stop (Progress Double)}
    (h : Laps w plan tuning (scheduleOf plan start) fuel p env stints result last)
    (hp : Dated (scheduleOf plan start) p (w.timer.now env)) :
    ∀ x ∈ stints, ((x.finish - start) / plan.interval).isFinite = true →
      ¬ x.Astray (scheduleOf plan start) := by
  refine h.forall_mem (dated_invariant steady hstart hduration tuning hinterval hquantum)
    (fun _ _ _ _ _ => Publisher.not_astray rfl) (fun p env hp _ _ hquotient => ?_)
    (fun _ _ _ _ _ _ => Publisher.not_astray rfl) (fun _ _ => trivial) hp
  have hover : (scheduleOf plan start).start.le (sendStint w p env plan).finish = true :=
    Double.le_trans hp.started (le_sent steady plan hp.started)
  obtain ⟨due, hdue⟩ := exists_lastDue hover hstart hinterval hquotient
  exact Publisher.not_astray_of_told hdue

/-- If sends take no time, that quotient is no larger than that of the duration. -/
theorem Laps.not_astray_of_quotient (prompt : w.Prompt) (hinterval : plan.interval.isFinite = true)
    (hquantum : tuning.pollQuantum.lt 0 = false)
    (hquotient : (plan.duration / plan.interval).isFinite = true) {fuel : Nat} {env last : σ}
    {stints : List (Stint Double)} {result : Except Stop (Progress Double)}
    (h : Laps w plan tuning (scheduleOf plan start) fuel p env stints result last)
    (hp : Dated (scheduleOf plan start) p (w.timer.now env)) :
    ∀ x ∈ stints, ¬ x.Astray (scheduleOf plan start) := by
  refine h.forall_mem (dated_invariant steady hstart hduration tuning hinterval hquantum)
    (fun _ _ _ _ => Publisher.not_astray rfl) (fun p env hp hover _ => ?_)
    (fun _ _ _ _ _ => Publisher.not_astray rfl) (fun _ _ => trivial) hp
  have hclock : (sendStint w p env plan).finish = w.timer.now env := prompt _ _ _ _
  obtain ⟨⟨hne, h0⟩, hless⟩ := passed_lt hstart hduration hp.started hover
  have hfinite := Double.isFinite_of_le hne h0 hduration hless.le
  have hpos := interval_place_pos (scheduleOf plan start)
  obtain ⟨hqne, hq0, hqle⟩ := Double.div_le_div hfinite hduration hinterval h0 hless.le hpos
  obtain ⟨due, hdue⟩ := exists_lastDue hp.started hstart hinterval
    (Double.isFinite_of_le hqne hq0 hquotient hqle)
  rw [← hclock] at hdue
  exact Publisher.not_astray_of_told hdue

end Loop

end Publisher

end BrokerLoad
