import BrokerLoad.Proofs.Client.Rounded
import BrokerLoad.Proofs.Number.Nearness

/-!
# How far a publisher overshoots its deadlines

A publisher that waits for a deadline comes to rest near it, but where times are rounded, not always
at it. If sends take no time, it never gets further beyond the deadline than rounding explains. So
what is due after a send is hardly more than the next message, the indices grow slowly, and for any
finite interval, however short, it takes more turns than any run has until a quotient is too large
to tell which deadline is due.

## Main definitions

* `Publisher.Within`: a time that is not far beyond the deadline with an index.
* `Publisher.Abreast`: a progress that the clock has not left far behind.

## Main statements

* `Publisher.abreast_invariant`: if sends take no time, the clock stays near the deadlines.
* `Publisher.Laps.not_astray_of_near`: with few turns, indices that grow slowly stay small.
* `Publisher.Laps.not_astray_of_prompt`: it can be told after every send which deadline is due.
-/

namespace BrokerLoad.Publisher

variable {σ η : Type}

/-! ## §1 Times near deadlines -/

/-- A time is beyond the deadline with an index, if at all, only by what rounding explains: by a
small part of the time since the start and of the start itself. -/
def Within (schedule : Schedule Double) (k : Int) (now : Double) : Prop :=
  2 ^ 49 * (now.place - schedule.start.place) ≤
    (2 ^ 49 + 1) * (k * schedule.interval.place) + |schedule.start.place| + 2 ^ 51

section Near

variable {schedule : Schedule Double} {now deadline t : Double} {k l : Int}

theorem Within.mono (h : Within schedule k now) (hkl : k ≤ l) : Within schedule l now := by
  have hle : k * schedule.interval.place ≤ l * schedule.interval.place :=
    Int.mul_le_mul_of_nonneg_right hkl (interval_place_pos schedule).le
  unfold Within at h ⊢
  omega

theorem Within.of_place {later : Double} (h : Within schedule k now)
    (hplace : later.place = now.place) : Within schedule k later := by
  unfold Within at h ⊢
  rwa [hplace]

theorem within_start (hk : 0 ≤ k) (hnow : now.place = schedule.start.place) :
    Within schedule k now := by
  have hmany : 0 ≤ k * schedule.interval.place :=
    Int.mul_nonneg hk (interval_place_pos schedule).le
  have habs := abs_nonneg schedule.start.place
  unfold Within
  omega

/-- A finite deadline is near the exact one. -/
theorem deadline_near (hk : 0 ≤ k) (h : schedule.deadline k = .ok deadline)
    (hdeadline : deadline.isFinite = true) (hstart : schedule.start.isFinite = true)
    (hinterval : schedule.interval.isFinite = true) :
    2 ^ 53 * (deadline.place - schedule.start.place) ≤
      (2 ^ 53 + 5) * (k * schedule.interval.place) + |schedule.start.place| + 2 ^ 54 := by
  have hpos := interval_place_pos schedule
  obtain ⟨t, ht, rfl⟩ := deadline_eq hk h
  obtain ⟨hne, h0⟩ := Double.times_nonneg hinterval hpos.le hk ht
  have hfinite : t.isFinite = true := Double.isFinite_of_add hstart hne hdeadline
  have hbound := ((Double.isFinite_iff (Double.ne_nan_of_isFinite hstart)).mp hstart).1
  have hnear := Double.nearest_le_add (u := schedule.start.place + t.place) (by omega)
  rw [← (Double.place_add hstart hfinite).2] at hnear
  have habs := abs_add_le schedule.start.place t.place
  rw [abs_of_nonneg h0] at habs
  have htimes := Double.times_le hinterval hpos.le hk ht
  have hmany : 0 ≤ k * schedule.interval.place := Int.mul_nonneg hk hpos.le
  omega

/-- A time at which something before a deadline is over that was not to last beyond it is near
that. -/
theorem add_near (hstart : schedule.start.le now = true) (hnow : now.isFinite = true)
    (hahead : now.le deadline = true) (hdeadline : deadline.isFinite = true)
    (ht : t.isFinite = true) (ht0 : 0 ≤ t.place) (hle : t.place ≤ (deadline - now).place) :
    2 ^ 53 * ((now + t).place - schedule.start.place) ≤
      (2 ^ 53 + 3) * (deadline.place - schedule.start.place) + |schedule.start.place| := by
  obtain ⟨-, -, hbefore⟩ := Double.le_iff.mp hstart
  obtain ⟨-, -, hrest⟩ := Double.le_iff.mp hahead
  have hbound := ((Double.isFinite_iff (Double.ne_nan_of_isFinite hnow)).mp hnow).1
  have hlong := Double.nearest_le_add (u := deadline.place - now.place) (by omega)
  rw [← (Double.place_sub hdeadline hnow).2, abs_of_nonneg (by omega)] at hlong
  have hnear := Double.nearest_le_add (u := now.place + t.place) (by omega)
  rw [← (Double.place_add hnow ht).2] at hnear
  have habs : |now.place + t.place| ≤
      |schedule.start.place| + (now.place + t.place - schedule.start.place) := by
    have hsum := abs_add_le schedule.start.place (now.place + t.place - schedule.start.place)
    rwa [add_sub_cancel,
      abs_of_nonneg (show 0 ≤ now.place + t.place - schedule.start.place by omega)] at hsum
  omega

/-- Such a time is not far beyond the deadline. -/
theorem within_add (hk : 0 ≤ k) (h : schedule.deadline k = .ok deadline)
    (hdeadline : deadline.isFinite = true) (hstart : schedule.start.isFinite = true)
    (hinterval : schedule.interval.isFinite = true) (hstarted : schedule.start.le now = true)
    (hnow : now.isFinite = true) (hahead : now.le deadline = true) (ht : IsSpan t)
    (hle : t.place ≤ (deadline - now).place) (hsum : (now + t).isFinite = true) :
    Within schedule k (now + t) := by
  have hfinite := Double.isFinite_of_add hnow ht.1 hsum
  have hadd := add_near hstarted hnow hahead hdeadline hfinite ht.2 hle
  have hnear := deadline_near hk h hdeadline hstart hinterval
  have hmany : 0 ≤ k * schedule.interval.place :=
    Int.mul_nonneg hk (interval_place_pos schedule).le
  have habs := abs_nonneg schedule.start.place
  unfold Within
  omega

/-- If the interval is not all too short beside the start, and the index not all too large, it can
be told near a deadline which one is due, and it is not much later. -/
theorem exists_lastDue_near (hk : k ≤ 2 ^ 104)
    (hsmall : |schedule.start.place| ≤ 2 ^ 105 * schedule.interval.place)
    (hstart : schedule.start.isFinite = true) (hinterval : schedule.interval.isFinite = true)
    (hstarted : schedule.start.le now = true) (hnow : now.isFinite = true)
    (hpassed : (now - schedule.start).isFinite = true) (h : Within schedule k now) :
    ∃ due, schedule.lastDue now = .ok due ∧ due ≤ k + 2 ^ 58 := by
  have hpos := interval_place_pos schedule
  obtain ⟨-, -, hle⟩ := Double.le_iff.mp hstarted
  obtain ⟨-, h0⟩ := Double.sub_nonneg_of_le hstart hstarted
  have hlong := Double.nearest_le_add (u := now.place - schedule.start.place) (by omega)
  rw [← (Double.place_sub hnow hstart).2, abs_of_nonneg (by omega)] at hlong
  have hmany : k * schedule.interval.place ≤ 2 ^ 104 * schedule.interval.place :=
    Int.mul_le_mul_of_nonneg_right hk hpos.le
  unfold Within at h
  have hfew : (now - schedule.start).place ≤ twoPow 106 * schedule.interval.place := by
    rw [show (twoPow 106 : Int) = 2 ^ 106 from rfl]
    omega
  have hquotient := Double.isFinite_div hpassed h0 hinterval hpos (by decide) hfew
  obtain ⟨due, hdue⟩ := Double.wholeQuotient_ok hpassed h0 hinterval hpos hquotient
  have hmost := Double.wholeQuotient_le hpassed h0 hinterval hpos hquotient hdue
  refine ⟨due, (lastDue_eq hstarted).trans hdue, Int.le_of_mul_le_mul_right ?_ hpos⟩
  rw [Int.add_mul]
  omega

/-- A start that is large beside the interval is where all early deadlines are. -/
theorem place_deadline_of_large (hk : 0 ≤ k) (hfew : k ≤ 2 ^ 46)
    (h : schedule.deadline k = .ok deadline)
    (hlarge : 2 ^ 105 * schedule.interval.place < |schedule.start.place|)
    (hstart : schedule.start.isFinite = true) (hinterval : schedule.interval.isFinite = true) :
    deadline ≠ .nan ∧ deadline.place = schedule.start.place := by
  have hpos := interval_place_pos schedule
  obtain ⟨t, ht, rfl⟩ := deadline_eq hk h
  obtain ⟨hne, h0⟩ := Double.times_nonneg hinterval hpos.le hk ht
  have htimes := Double.times_le hinterval hpos.le hk ht
  have hmany : k * schedule.interval.place ≤ 2 ^ 46 * schedule.interval.place :=
    Int.mul_le_mul_of_nonneg_right hfew hpos.le
  have hsmall : 2 ^ 56 * t.place < |schedule.start.place| := by omega
  have hfinite : t.isFinite = true := by
    have hbound := (Double.isFinite_iff (Double.ne_nan_of_isFinite hstart)).mp hstart
    have habs := abs_lt.mpr hbound
    exact (Double.isFinite_iff hne).mpr ⟨by omega, by omega⟩
  obtain ⟨hsumNe, hsum⟩ := Double.place_add hstart hfinite
  exact ⟨hsumNe, hsum.trans (Double.nearest_add_of_small hstart h0 hsmall)⟩

end Near

/-! ## §2 Loops -/

/-- A progress with the deadline of its index at a time that, if both are finite, is not far beyond
that. -/
structure Abreast (schedule : Schedule Double) (p : Progress Double) (now : Double) : Prop
    extends Dated schedule p now where
  near : p.deadline.isFinite = true → now.isFinite = true → Within schedule p.index now

section Loop

variable {w : Surroundings Double σ η} {plan : Plan Double} {tuning : Tuning Double}
  {p : Progress Double} {start : Double} (steady : w.Steady) (prompt : w.Prompt)
  (hstart : start.isFinite = true) (hduration : plan.duration.isFinite = true)
  (hinterval : plan.interval.isFinite = true) (hquantum : tuning.pollQuantum.lt 0 = false)

/-- If after every send with an index up to `bound` it can be told which deadline is due, and that
is at most `step` further, then with fuel for few turns no index is larger, and it can always be
told. -/
theorem Laps.not_astray_of_near {bound : Int} {step : Nat} (hstep : 0 < step)
    {schedule : Schedule Double} {fuel : Nat} {env last : σ} {stints : List (Stint Double)}
    {result : Except Stop (Progress Double)}
    (h : Laps w plan tuning schedule fuel p env stints result last)
    (hindex : p.index + fuel * step ≤ bound)
    (hnear : ∀ x ∈ stints, x.isSend = true → x.index ≤ bound →
      ∃ due, schedule.lastDue x.finish = .ok due ∧ due ≤ x.index + step) :
    ∀ x ∈ stints, ¬ x.Astray schedule := by
  have hfits : ∀ {k : Int} {fuel : Nat}, k + (fuel + 1 : Nat) * step ≤ bound →
      k ≤ bound ∧ k + step + fuel * step ≤ bound := by
    intro k fuel hk
    have hmany : (0 : Int) ≤ fuel * step :=
      Int.mul_nonneg (Int.natCast_nonneg _) (Int.natCast_nonneg _)
    push_cast at hk
    rw [Int.add_mul, Int.one_mul] at hk
    omega
  induction h with
  | spent => exact List.forall_mem_nil _
  | finished _ => exact List.forall_mem_nil _
  | cut _ _ => exact List.forall_mem_singleton.mpr (not_astray rfl)
  | late _ _ _ => exact List.forall_mem_singleton.mpr (not_astray rfl)
  | woken _ _ _ =>
    exact List.forall_mem_cons.mpr ⟨not_astray rfl, List.forall_mem_singleton.mpr (not_astray rfl)⟩
  | unsent _ _ _ =>
    obtain ⟨due, hdue, -⟩ :=
      hnear _ (List.mem_cons_of_mem _ List.mem_cons_self) rfl (hfits hindex).1
    exact List.forall_mem_cons.mpr
      ⟨not_astray rfl, List.forall_mem_singleton.mpr (not_astray_of_told hdue)⟩
  | astray _ _ _ _ =>
    obtain ⟨due, hdue, -⟩ :=
      hnear _ (List.mem_cons_of_mem _ List.mem_cons_self) rfl (hfits hindex).1
    exact List.forall_mem_cons.mpr
      ⟨not_astray rfl, List.forall_mem_singleton.mpr (not_astray_of_told hdue)⟩
  | @sent _ p _ _ _ _ _ _ _ _ hafter hadvanced _ ih =>
    obtain ⟨hnow, hthen⟩ := hfits hindex
    obtain ⟨due, hdue, hle⟩ := hnear _ (List.mem_cons_of_mem _ List.mem_cons_self) rfl hnow
    obtain ⟨last, deadline, hlast, -, rfl⟩ := exists_of_advanced hadvanced
    obtain rfl : last = due := Except.ok.inj (hlast.symm.trans hdue)
    have hsame := afterSend_index hafter
    change last ≤ p.index + step at hle
    refine List.forall_mem_cons.mpr ⟨not_astray rfl, List.forall_mem_cons.mpr
      ⟨not_astray_of_told hdue, ih ?_ fun x hx => ?_⟩⟩
    · change max _ _ + (_ : Int) ≤ bound
      omega
    · exact hnear x (List.mem_cons_of_mem _ (List.mem_cons_of_mem _ hx))
  | slept _ _ _ _ ih =>
    have hthen := (hfits hindex).2
    refine List.forall_mem_cons.mpr ⟨not_astray rfl, List.forall_mem_cons.mpr
      ⟨not_astray rfl, ih (by omega) fun x hx => ?_⟩⟩
    exact hnear x (List.mem_cons_of_mem _ (List.mem_cons_of_mem _ hx))

include steady prompt hstart hduration hinterval hquantum

/-- If sends take no time, the clock stays near the deadlines. -/
theorem abreast_invariant :
    Invariant w plan tuning (scheduleOf plan start) (fun _ => True)
      fun p env => Abreast (scheduleOf plan start) p (w.timer.now env) := by
  have hdated := dated_invariant steady hstart hduration tuning hinterval hquantum
  refine ⟨fun p env h hover _ => ?_, fun p q r env h hover hdue _ hafter hadvanced => ?_,
    fun p env h hover hahead _ => ?_⟩
  · have hnow := isFinite_of_isOver hstart hduration h.started hover
    have hne := h.deadline_ne_nan hstart hinterval
    refine ⟨hdated.pump p env h.toDated hover trivial, fun hdeadline hend => ?_⟩
    obtain ⟨t, ht, hle, hclock⟩ := pumped_eq steady tuning hnow hne
    rw [hclock] at hend ⊢
    cases hahead : p.deadline.le (w.timer.now env) with
    | true =>
      -- the deadline has come, so the pump takes no time
      rw [max_eq_left (Double.sub_nonpos_of_le hnow hdeadline hahead)] at hle
      exact (h.near hdeadline hnow).of_place (ht.add_of_nonpos hle hnow).2
    | false =>
      have hrest := isSpan_sub hnow hne hahead
      rw [max_eq_right hrest.2] at hle
      exact within_add h.index h.deadline hdeadline hstart hinterval h.started hnow
        (Double.le_of_not_le hne (Double.ne_nan_of_isFinite hnow) hahead) ht hle hend
  · have hnow := isFinite_of_isOver hstart hduration h.started hover
    have hfinite := Double.isFinite_of_between hstart hnow (h.le_deadline hstart hinterval) hdue
    obtain ⟨-, hindex, -⟩ := advanced_eq hadvanced
    have hsame := afterSend_index hafter
    have hclock : w.timer.now (sent w env plan) = w.timer.now env := prompt _ _ _ _
    refine ⟨hdated.send p q r env h.toDated hover hdue trivial hafter hadvanced, fun _ _ => ?_⟩
    rw [hclock]
    exact (h.near hfinite hnow).mono (by omega)
  · have hnow := isFinite_of_isOver hstart hduration h.started hover
    have hne := h.deadline_ne_nan hstart hinterval
    refine ⟨hdated.nap p env h.toDated hover hahead trivial, fun hdeadline hend => ?_⟩
    obtain ⟨-, t, ht, hle, hclock⟩ := rested_eq steady hquantum hnow hne hahead
    rw [hclock] at hend ⊢
    exact within_add h.index h.deadline hdeadline hstart hinterval h.started hnow
      (Double.le_of_not_le hne (Double.ne_nan_of_isFinite hnow) hahead) ht hle hend

/-- If the interval is not all too short beside the start, indices grow by few from send to send. -/
theorem Laps.near_of_small (hsmall : |start.place| ≤ 2 ^ 105 * plan.interval.place) {fuel : Nat}
    {env last : σ} {stints : List (Stint Double)} {result : Except Stop (Progress Double)}
    (h : Laps w plan tuning (scheduleOf plan start) fuel p env stints result last)
    (hp : Abreast (scheduleOf plan start) p (w.timer.now env)) :
    ∀ x ∈ stints, x.isSend = true → x.index ≤ 2 ^ 104 →
      ∃ due, (scheduleOf plan start).lastDue x.finish = .ok due ∧
        due ≤ x.index + (2 ^ 58 : Nat) := by
  refine h.forall_mem (abreast_invariant steady prompt hstart hduration hinterval hquantum)
    (fun _ _ _ _ => nofun) (fun p env h hover hdue _ hfew => ?_) (fun _ _ _ _ _ => nofun)
    (fun _ _ => trivial) hp
  have hnow := isFinite_of_isOver hstart hduration h.started hover
  have hfinite := Double.isFinite_of_between hstart hnow (h.le_deadline hstart hinterval) hdue
  obtain ⟨⟨hne, h0⟩, hless⟩ := passed_lt hstart hduration h.started hover
  have hclock : (sendStint w p env plan).finish = w.timer.now env := prompt _ _ _ _
  rw [hclock]
  exact exists_lastDue_near hfew hsmall hstart hinterval h.started hnow
    (Double.isFinite_of_le hne h0 hduration hless.le) (h.near hfinite hnow)

/-- If the interval is all too short beside the start, the clock stays there for many messages. -/
theorem still_invariant (hlarge : 2 ^ 105 * plan.interval.place < |start.place|) :
    Invariant w plan tuning (scheduleOf plan start) (fun _ => True) fun p env =>
      Dated (scheduleOf plan start) p (w.timer.now env) ∧
        (p.index ≤ 2 ^ 46 → (w.timer.now env).place = start.place) := by
  have hdated := dated_invariant steady hstart hduration tuning hinterval hquantum
  have hearly : ∀ {p : Progress Double} {now : Double}, Dated (scheduleOf plan start) p now →
      p.index ≤ 2 ^ 46 → p.deadline.place = start.place := fun h hfew =>
    (place_deadline_of_large h.index hfew h.deadline hlarge hstart hinterval).2
  refine ⟨fun p env h hover _ => ⟨hdated.pump p env h.1 hover trivial, fun hfew => ?_⟩,
    fun p q r env h hover hdue _ hafter hadvanced =>
      ⟨hdated.send p q r env h.1 hover hdue trivial hafter hadvanced, fun hfew => ?_⟩,
    fun p env h hover hahead _ => ⟨hdated.nap p env h.1 hover hahead trivial, fun hfew => ?_⟩⟩
  · have hnow := isFinite_of_isOver hstart hduration h.1.started hover
    have hne := h.1.deadline_ne_nan hstart hinterval
    obtain ⟨t, ht, hle, hclock⟩ := pumped_eq steady tuning hnow hne
    have hrest := (Double.place_sub_of_place hnow hne ((hearly h.1 hfew).trans (h.2 hfew).symm)).2
    rw [hrest, max_self] at hle
    rw [hclock, (ht.add_of_nonpos hle hnow).2]
    exact h.2 hfew
  · obtain ⟨-, hindex, -⟩ := advanced_eq hadvanced
    have hsame := afterSend_index hafter
    have hclock : w.timer.now (sent w env plan) = w.timer.now env := prompt _ _ _ _
    rw [hclock]
    exact h.2 (by omega)
  · have hnow := isFinite_of_isOver hstart hduration h.1.started hover
    have hdue : p.deadline.le (w.timer.now env) = true :=
      Double.le_iff.mpr ⟨h.1.deadline_ne_nan hstart hinterval, Double.ne_nan_of_isFinite hnow,
        ((hearly h.1 hfew).trans (h.2 hfew).symm).le⟩
    exact absurd (hahead.symm.trans hdue) Bool.false_ne_true

/-- Then nothing but the first message counts as due. -/
theorem Laps.near_of_large (hlarge : 2 ^ 105 * plan.interval.place < |start.place|) {fuel : Nat}
    {env last : σ} {stints : List (Stint Double)} {result : Except Stop (Progress Double)}
    (h : Laps w plan tuning (scheduleOf plan start) fuel p env stints result last)
    (hp : Dated (scheduleOf plan start) p (w.timer.now env))
    (hnow : (w.timer.now env).place = start.place) :
    ∀ x ∈ stints, x.isSend = true → x.index ≤ 2 ^ 46 →
      ∃ due, (scheduleOf plan start).lastDue x.finish = .ok due ∧ due ≤ x.index + (1 : Nat) := by
  refine h.forall_mem (still_invariant steady prompt hstart hduration hinterval hquantum hlarge)
    (fun _ _ _ _ => nofun) (fun p env h hover hdue _ hfew => ?_) (fun _ _ _ _ _ => nofun)
    (fun _ _ => trivial) ⟨hp, fun _ => hnow⟩
  have hclock : (sendStint w p env plan).finish = w.timer.now env := prompt _ _ _ _
  rw [hclock]
  refine ⟨0, lastDue_of_place hstart hinterval (Double.le_iff.mp h.1.started).2.1 (h.2 hfew), ?_⟩
  exact Int.add_nonneg h.1.index (Int.natCast_nonneg 1)

/-- If sends take no time and the interval is finite, then with fuel for at most `2 ^ 46` turns it
can be told after every send which deadline is due. -/
theorem Laps.not_astray_of_prompt {first : Double} {fuel : Nat} (hfuel : fuel ≤ 2 ^ 46)
    {env last : σ} {stints : List (Stint Double)} {result : Except Stop (Progress Double)}
    (h : Laps w plan tuning (scheduleOf plan start) fuel { deadline := first } env stints result
      last)
    (hfirst : (scheduleOf plan start).deadline 0 = .ok first) (hnow : w.timer.now env = start) :
    ∀ x ∈ stints, ¬ x.Astray (scheduleOf plan start) := by
  have hbegin : Dated (scheduleOf plan start) { deadline := first } (w.timer.now env) :=
    .begin hstart hnow hfirst
  have hplace : (w.timer.now env).place = start.place := congrArg Double.place hnow
  -- beside a small start an index grows by at most `2 ^ 58` in a turn, and `2 ^ 46` turns take it
  -- to `2 ^ 104`; beside a large one `2 ^ 46` intervals together are lost in rounding
  rcases le_or_gt |start.place| (2 ^ 105 * plan.interval.place) with hsmall | hlarge
  · have hnear := h.near_of_small steady prompt hstart hduration hinterval hquantum hsmall
      ⟨hbegin, fun _ _ => within_start le_rfl hplace⟩
    refine h.not_astray_of_near (by decide) ?_ hnear
    change (0 : Int) + fuel * (2 ^ 58 : Nat) ≤ 2 ^ 104
    push_cast
    omega
  · have hnear := h.near_of_large steady prompt hstart hduration hinterval hquantum hlarge hbegin
      hplace
    refine h.not_astray_of_near (by decide) ?_ hnear
    change (0 : Int) + fuel * (1 : Nat) ≤ 2 ^ 46
    omega

end Loop

end BrokerLoad.Publisher
