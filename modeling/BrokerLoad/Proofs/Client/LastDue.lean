import BrokerLoad.Proofs.Client.Rounded
import BrokerLoad.Proofs.Number.WholeQuotient
import Mathlib.Order.Bounds.Defs

/-!
# The last deadline due, with rounded times

A schedule computes a deadline by a product and a sum, and tells the last deadline due by a
difference and a whole quotient. Each of these rounds on its own, so the two need not agree. Here it
is said how far they do. The deadlines never decrease, so the index that is told is the right one if
and only if the time lies between its deadline and the next. Over fewer than `2 ^ 51` intervals these
two deadlines enclose the time, or what it is rounded to when the start is taken away and added
again. So all that can go wrong is that the time has just reached the next deadline.

## Main definitions

* `Schedule.Latest`: the index of the latest deadline at or before a time.
* `Schedule.Telling`: what is known of an index that a schedule tells.

## Main statements

* `Schedule.latest_iff`: an index is the latest if the time lies between its deadline and the next.
* `Schedule.deadline_encloses`: the deadline that is told and the next one enclose the time.
* `Schedule.lastDue_latest_iff`: when the index that is told is the right one.
* `Schedule.tenth_deadline_missed`: a time at which it is not.
-/

namespace BrokerLoad

namespace Double

/-! ## §1 Sums, multiples and differences -/

variable {x t u z : Double}

/-- No number lies beyond the positive infinity. -/
theorem place_le (x : Double) : x.place ≤ unitsOverflow := by
  cases hx : x.isFinite with
  | true => exact ((isFinite_iff (ne_nan_of_isFinite hx)).mp hx).2.le
  | false =>
    cases x with
    | nan => exact Int.natCast_nonneg _
    | infinite s =>
      rw [place_infinite]
      split <;> omega
    | finite s m => cases hx

/-- Sums with a finite number keep the order of what is added. -/
theorem add_le_add (hx : x.isFinite = true) (ht : t ≠ .nan) (ht0 : 0 ≤ t.place) (hu : u ≠ .nan)
    (hle : t.place ≤ u.place) : (x + t).le (x + u) = true := by
  cases hfinite : u.isFinite with
  | true =>
    obtain ⟨hnet, hsumt⟩ := place_add hx (isFinite_of_le ht ht0 hfinite hle)
    obtain ⟨hneu, hsumu⟩ := place_add hx hfinite
    refine le_iff.mpr ⟨hnet, hneu, ?_⟩
    rw [hsumt, hsumu]
    exact nearest_mono (by omega)
  | false =>
    have hzero : (0 : Double).le u = true :=
      le_iff.mpr ⟨ofNat_ne_nan 0, hu, place_zero.trans_le (ht0.trans hle)⟩
    obtain rfl := eq_infinite_of_le isFinite_zero hzero hfinite
    obtain ⟨-, hne, -⟩ := le_iff.mp (le_add_of_nonneg hx ht ht0)
    have hsum : x + infinite false = infinite false := by
      cases x with
      | finite s m => rfl
      | _ => cases hx
    rw [hsum]
    exact le_iff.mpr ⟨hne, nofun, place_le _⟩

section Times

variable (hx : x.isFinite = true) (hx0 : 0 ≤ x.place)

include hx hx0

/-- The place of a multiple. -/
theorem place_times {k : Int} (hk : 0 ≤ k) (h : Seconds.times k x = .ok t) :
    t.place = (min (roundDigits ((nearest (k * unitsPerOne)).toNat * x.place.toNat) unitsPerOne)
      unitsOverflow : Nat) := by
  obtain ⟨y, hy, rfl⟩ := times_eq h
  obtain ⟨hfinite, hplace⟩ := ofInt?_eq hy
  have hy0 : 0 ≤ y.place := by
    rw [hplace]
    exact nearest_nonneg (Int.mul_nonneg hk (Int.natCast_nonneg _))
  rw [(place_mul hfinite hx hy0 hx0).2, hplace]

/-- Multiples keep the order of the factors. -/
theorem times_mono {k l : Int} (hk : 0 ≤ k) (hkl : k ≤ l) (ht : Seconds.times k x = .ok t)
    (hu : Seconds.times l x = .ok u) : t.place ≤ u.place := by
  have hunits : nearest (k * unitsPerOne) ≤ nearest (l * unitsPerOne) :=
    nearest_mono (Int.mul_le_mul_of_nonneg_right hkl (Int.natCast_nonneg _))
  have hround := roundDigits_mono unitsPerOne
    (Nat.mul_le_mul_right x.place.toNat (Int.toNat_le_toNat hunits))
  rw [place_times hx hx0 hk ht, place_times hx hx0 (hk.trans hkl) hu]
  omega

/-- A multiple by a whole number of few digits is rounded once. -/
theorem place_times_whole {n : Nat} (hn : n < 2 ^ 53) (h : Seconds.times n x = .ok t) :
    t.place = nearest (n * x.place) := by
  have hcount : (n * x.place : Int) = (n * x.place.toNat : Nat) := by
    rw [Int.natCast_mul, Int.toNat_of_nonneg hx0]
  rw [place_times hx hx0 (Int.natCast_nonneg n) h, nearest_whole hn, ← Int.natCast_mul,
    Int.toNat_natCast, Nat.mul_right_comm, roundDigits_mul_cancel _ unitsPerOne_pos, hcount,
    nearest_natCast]

/-- A multiple that is exactly no more than a number is no more than it after rounding. -/
theorem times_le_of_mul_le {n : Nat} (hn : n < 2 ^ 53) (h : Seconds.times n x = .ok t)
    (hz : z.isFinite = true) (hle : n * x.place ≤ z.place) : t.place ≤ z.place := by
  rw [place_times_whole hx hx0 hn h, ← nearest_place hz]
  exact nearest_mono hle

/-- A multiple that is exactly no less than a number is no less than it after rounding. -/
theorem le_times_of_le_mul {n : Nat} (hn : n < 2 ^ 53) (h : Seconds.times n x = .ok t)
    (hz : z.isFinite = true) (hle : z.place ≤ n * x.place) : z.place ≤ t.place := by
  rw [place_times_whole hx hx0 hn h, ← nearest_place hz]
  exact nearest_mono hle

end Times

/-- A difference to zero, or to a number that is no smaller than the difference, is the exact one. -/
theorem place_sub_of_near (hx : x.isFinite = true) (hz : z.isFinite = true) (hle : x.le z = true)
    (hnear : x.place = 0 ∨ z.place ≤ 2 * x.place) : (z - x).place = z.place - x.place := by
  obtain ⟨-, -, hplaces⟩ := le_iff.mp hle
  rw [(place_sub hz hx).2]
  rcases hnear with hzero | hnear
  · rw [hzero, Int.sub_zero, nearest_place hz]
  · have hx0 : 0 ≤ x.place := by omega
    have hz0 : 0 ≤ z.place := by omega
    have hexact := exact_sub (exact_place hx hx0).1 (exact_place hz hz0).1 (by omega) (by omega)
    have hbound := place_le z
    have hcount : ((z.place.toNat - x.place.toNat : Nat) : Int) = z.place - x.place := by omega
    rw [← hcount]
    exact nearest_of_exact hexact (by omega)

/-- Added again, such a difference gives the number that it was taken from. -/
theorem add_sub_eq (hx : x.isFinite = true) (hz : z.isFinite = true) (hle : x.le z = true)
    (hnear : x.place = 0 ∨ z.place ≤ 2 * x.place) : (x + (z - x)).eq z = true := by
  have hsub := place_sub_of_near hx hz hle hnear
  obtain ⟨hne, h0⟩ := sub_nonneg_of_le hx hle
  have hfinite : (z - x).isFinite = true := isFinite_of_le hne h0 hz (by omega)
  obtain ⟨hsum, hplace⟩ := place_add hx hfinite
  rw [hsub, add_sub_cancel, nearest_place hz] at hplace
  exact eq_of_place hsum (ne_nan_of_isFinite hz) hplace

/-- A number before a sum is less than the second addend away from the first, also after rounding. -/
theorem place_sub_le_of_lt_add (hx : x.isFinite = true) (hz : z.isFinite = true)
    (ht : t.isFinite = true) (hlt : z.lt (x + t) = true) : (z - x).place ≤ t.place := by
  have hless := (lt_iff.mp hlt).2.2
  rw [(place_add hx ht).2] at hless
  rw [(place_sub hz hx).2, ← nearest_place ht]
  refine nearest_mono ?_
  by_contra hfar
  have hmono := nearest_mono (show x.place + t.place ≤ z.place by omega)
  rw [nearest_place hz] at hmono
  omega

/-- Of two numbers one is before the other, or that one is not beyond it. -/
theorem le_of_not_lt (hx : x ≠ .nan) (hz : z ≠ .nan) (h : ¬ x.lt z = true) : z.le x = true := by
  rw [lt_iff] at h
  refine le_iff.mpr ⟨hz, hx, ?_⟩
  by_contra hmore
  exact h ⟨hx, hz, by omega⟩

end Double

namespace Schedule

open Publisher

/-! ## §2 The latest deadline -/

variable {s : Schedule Double} {now due next : Double} {k l n : Int}

/-- Message `k` is due at a time. -/
def Due (s : Schedule Double) (now : Double) (k : Int) : Prop :=
  ∃ deadline, s.deadline k = .ok deadline ∧ deadline.le now = true

/-- The deadline of message `n` is the latest at or before a time. -/
def Latest (s : Schedule Double) (now : Double) (n : Int) : Prop := IsGreatest {k | s.Due now k} n

/-- There is no deadline before the first. -/
theorem nonneg_of_deadline (h : s.deadline k = .ok due) : 0 ≤ k := by
  by_contra hneg
  rw [deadline, if_pos (Int.not_le.mp hneg)] at h
  cases h

section Order

variable (hstart : s.start.isFinite = true) (hinterval : s.interval.isFinite = true)

include hstart hinterval

/-- Deadlines never decrease. -/
theorem deadline_mono (hkl : k ≤ l) (hdue : s.deadline k = .ok due)
    (hnext : s.deadline l = .ok next) : due.le next = true := by
  have hk := nonneg_of_deadline hdue
  obtain ⟨t, ht, rfl⟩ := deadline_eq hk hdue
  obtain ⟨u, hu, rfl⟩ := deadline_eq (hk.trans hkl) hnext
  have hpos := (interval_place_pos s).le
  obtain ⟨hnet, ht0⟩ := Double.times_nonneg hinterval hpos hk ht
  obtain ⟨hneu, -⟩ := Double.times_nonneg hinterval hpos (hk.trans hkl) hu
  exact Double.add_le_add hstart hnet ht0 hneu (Double.times_mono hinterval hpos hk hkl ht hu)

/-- An index is the latest if and only if the time lies between its deadline and the next. -/
theorem latest_iff (hnow : now.isFinite = true) (hdue : s.deadline n = .ok due)
    (hnext : s.deadline (n + 1) = .ok next) :
    s.Latest now n ↔ due.le now = true ∧ now.lt next = true := by
  constructor
  · rintro ⟨⟨d, hd, hle⟩, hgreatest⟩
    obtain rfl := Except.ok.inj (hd.symm.trans hdue)
    refine ⟨hle, ?_⟩
    by_contra hlt
    have hne : next ≠ .nan := (Double.le_iff.mp
      (le_deadline (nonneg_of_deadline hnext) hnext hstart hinterval)).2.1
    have hlate : s.Due now (n + 1) :=
      ⟨next, hnext, Double.le_of_not_lt (Double.ne_nan_of_isFinite hnow) hne hlt⟩
    have hmore := hgreatest hlate
    omega
  · rintro ⟨hle, hlt⟩
    refine ⟨⟨due, hdue, hle⟩, ?_⟩
    rintro k ⟨d, hd, hdle⟩
    by_contra hmore
    have hlater := deadline_mono hstart hinterval (Int.not_le.mp hmore) hnext hd
    have hnextnow := (Double.le_iff.mp (Double.le_trans hlater hdle)).2.2
    have hnownext := (Double.lt_iff.mp hlt).2.2
    omega

end Order

/-! ## §3 What a schedule tells -/

section Told

variable (hstart : s.start.isFinite = true) (hinterval : s.interval.isFinite = true)
  (hnow : now.isFinite = true) (hstarted : s.start.le now = true)

include hstart hinterval hnow hstarted

/-- If a finite deadline lies ahead, it can be told which one is due. -/
theorem exists_lastDue_of_deadline {later : Int} {after : Double}
    (hafter : s.deadline later = .ok after) (hfinite : after.isFinite = true)
    (hahead : now.lt after = true) :
    (now - s.start).isFinite = true ∧ ∃ n, 0 ≤ n ∧ s.lastDue now = .ok n := by
  have hlater := nonneg_of_deadline hafter
  have hpos := interval_place_pos s
  obtain ⟨t, ht, rfl⟩ := deadline_eq hlater hafter
  obtain ⟨hne, ht0⟩ := Double.times_nonneg hinterval hpos.le hlater ht
  have htfinite := Double.isFinite_of_add hstart hne hfinite
  have hpassed := Double.place_sub_le_of_lt_add hstart hnow htfinite hahead
  obtain ⟨hsub, hsub0⟩ := Double.sub_nonneg_of_le hstart hstarted
  have hsubfinite := Double.isFinite_of_le hsub hsub0 htfinite hpassed
  obtain ⟨y, hy, rfl⟩ := Double.times_eq ht
  obtain ⟨hyfinite, hyplace⟩ := Double.ofInt?_eq hy
  have hy0 : 0 ≤ y.place :=
    hyplace ▸ Double.nearest_nonneg (Int.mul_nonneg hlater (Int.natCast_nonneg _))
  have hquotient :=
    Double.isFinite_div_of_le_mul hsubfinite hsub0 hinterval hpos hyfinite hy0 hpassed
  obtain ⟨hwhole, hwhole0⟩ := Double.floorDiv_finite hsubfinite hsub0 hinterval hpos hquotient
  have htold : s.lastDue now =
      .ok (((now - s.start).floorDiv s.interval).place / unitsPerOne) := by
    rw [lastDue_eq hstarted]
    exact Double.toInt_eq hwhole hwhole0
  exact ⟨hsubfinite, _, Int.ediv_nonneg hwhole0 (Int.natCast_nonneg unitsPerOne), htold⟩

omit hnow in
/-- As long as fewer than `2 ^ 51` intervals have passed, the deadline that is told and the next one
enclose the time, as far as it can be had back from the start and the time that has passed. -/
theorem deadline_encloses (hpassed : (now - s.start).isFinite = true)
    (hshort : (now - s.start).place < 2 ^ 51 * s.interval.place) (htold : s.lastDue now = .ok n)
    (hdue : s.deadline n = .ok due) (hnext : s.deadline (n + 1) = .ok next) :
    due.le (s.start + (now - s.start)) = true ∧ (s.start + (now - s.start)).le next = true := by
  have hpos := interval_place_pos s
  obtain ⟨hne, h0⟩ := Double.sub_nonneg_of_le hstart hstarted
  have hwhole : n = (now - s.start).place / s.interval.place := by
    rw [lastDue_eq hstarted, Double.wholeQuotient_eq hpassed h0 hinterval hpos hshort] at htold
    exact (Except.ok.inj htold).symm
  have hfew : n < 2 ^ 51 := hwhole ▸ Int.ediv_lt_of_lt_mul hpos hshort
  have hbelow : n * s.interval.place ≤ (now - s.start).place := hwhole ▸ Int.ediv_mul_le _ hpos.ne'
  have habove : (now - s.start).place ≤ (n + 1) * s.interval.place :=
    hwhole ▸ (Int.lt_ediv_add_one_mul_self _ hpos).le
  obtain ⟨count, rfl⟩ := Int.eq_ofNat_of_zero_le (nonneg_of_deadline hdue)
  obtain ⟨t, ht, rfl⟩ := deadline_eq (nonneg_of_deadline hdue) hdue
  obtain ⟨u, hu, rfl⟩ := deadline_eq (nonneg_of_deadline hnext) hnext
  obtain ⟨hnet, ht0⟩ := Double.times_nonneg hinterval hpos.le (nonneg_of_deadline hdue) ht
  obtain ⟨hneu, -⟩ := Double.times_nonneg hinterval hpos.le (nonneg_of_deadline hnext) hu
  constructor
  · exact Double.add_le_add hstart hnet ht0 hne
      (Double.times_le_of_mul_le hinterval hpos.le (by omega) ht hpassed hbelow)
  · exact Double.add_le_add hstart hne h0 hneu
      (Double.le_times_of_le_mul hinterval hpos.le (n := count + 1) (by omega) hu hpassed habove)

end Told

/-- What is known of an index that a schedule tells as the last one due at a time. -/
structure Telling (s : Schedule Double) (now : Double) (n : Int) (due next : Double) : Prop where
  told : s.lastDue now = .ok n
  own : s.deadline n = .ok due
  following : s.deadline (n + 1) = .ok next
  /-- The index is the right one if and only if the time lies between its deadline and the next. -/
  latest_iff : s.Latest now n ↔ due.le now = true ∧ now.lt next = true
  /-- The two deadlines enclose what the time is rounded to. -/
  encloses : (now - s.start).place < 2 ^ 51 * s.interval.place →
    due.le (s.start + (now - s.start)) = true ∧ (s.start + (now - s.start)).le next = true
  /-- If the time is rounded to itself, all that can go wrong is that it is the next deadline. -/
  missed_iff : (now - s.start).place < 2 ^ 51 * s.interval.place →
    (s.start + (now - s.start)).eq now = true → (¬ s.Latest now n ↔ next.eq now = true)
  /-- It is rounded to itself from a start at zero, and up to twice the start. -/
  kept : s.start.place = 0 ∨ now.place ≤ 2 * s.start.place →
    (s.start + (now - s.start)).eq now = true

/-- When the index that a schedule tells is that of the latest deadline at or before a time. -/
theorem lastDue_latest_iff {after : Double} {later : Int} (hstart : s.start.isFinite = true)
    (hinterval : s.interval.isFinite = true) (hnow : now.isFinite = true)
    (hstarted : s.start.le now = true) (hafter : s.deadline later = .ok after)
    (hfinite : after.isFinite = true) (hahead : now.lt after = true) :
    ∃ n due next, s.Telling now n due next := by
  obtain ⟨hpassed, n, hn, htold⟩ :=
    exists_lastDue_of_deadline hstart hinterval hnow hstarted hafter hfinite hahead
  have hlargest := le_largestInteger_of_lastDue htold
  have hroom : 1 < twoPow 970 := twoPow_lt (show 0 < 970 by decide)
  obtain ⟨due, hdue⟩ := exists_deadline s hn hroom (by omega)
  obtain ⟨next, hnext⟩ := exists_deadline s (k := n + 1) (by omega) hroom (by omega)
  have hlatest := latest_iff hstart hinterval hnow hdue hnext
  refine ⟨n, due, next, htold, hdue, hnext, hlatest, ?encloses, ?missed,
    Double.add_sub_eq hstart hnow hstarted⟩
  case encloses =>
    exact fun hshort =>
      deadline_encloses hstart hinterval hstarted hpassed hshort htold hdue hnext
  case missed =>
    intro hshort hkept
    obtain ⟨hbelow, habove⟩ :=
      deadline_encloses hstart hinterval hstarted hpassed hshort htold hdue hnext
    obtain ⟨-, hne, hplace⟩ := Double.eq_iff.mp hkept
    obtain ⟨hdne, -, hdle⟩ := Double.le_iff.mp hbelow
    obtain ⟨-, hnne, hnle⟩ := Double.le_iff.mp habove
    rw [hlatest, Double.le_iff, Double.lt_iff, Double.eq_iff]
    constructor
    · intro hmiss
      refine ⟨hnne, hne, ?_⟩
      by_contra hother
      exact hmiss ⟨⟨hdne, hne, by omega⟩, hne, hnne, by omega⟩
    · rintro ⟨-, -, hsame⟩ ⟨-, -, -, hless⟩
      omega

/-- A message every tenth of a second, from time zero on. -/
def tenths : Schedule Double where
  start := 0
  interval := Seconds.ofDecimal 1 (-1)
  interval_pos := by decide +kernel

/-- At three tenths of a second the third deadline still lies ahead, since three times a tenth is
rounded up. That is what the schedule tells. -/
theorem third_deadline_awaited :
    tenths.lastDue (Seconds.ofDecimal 3 (-1)) = .ok 2 ∧
      tenths.Latest (Seconds.ofDecimal 3 (-1)) 2 := by
  have hafter : tenths.deadline 4 = .ok (Seconds.ofDecimal 4 (-1)) := by decide +kernel
  have htwo : tenths.lastDue (Seconds.ofDecimal 3 (-1)) = .ok 2 := by decide +kernel
  have hthird : tenths.deadline 3 = .ok (Seconds.ofDecimal 30000000000000004 (-17)) := by
    decide +kernel
  have hnow : (Seconds.ofDecimal 3 (-1) : Double).isFinite = true := by decide +kernel
  obtain ⟨n, due, next, telling⟩ :=
    lastDue_latest_iff (by decide +kernel) (by decide +kernel) hnow (by decide +kernel) hafter
      (by decide +kernel) (by decide +kernel)
  obtain rfl := Except.ok.inj (htwo.symm.trans telling.told)
  obtain rfl := Except.ok.inj (hthird.symm.trans telling.following)
  refine ⟨htwo, by_contra fun hmissed => ?_⟩
  have hreached := (telling.missed_iff (by decide +kernel) (telling.kept (.inl (by decide +kernel)))
    ).mp hmissed
  exact absurd hreached (by decide +kernel)

/-- At one second the tenth deadline is due, since ten times a tenth is rounded to one. The schedule
tells the ninth: a tenth is a little more than a tenth of one, and goes into one only nine times. -/
theorem tenth_deadline_missed :
    let after : Double := Seconds.ofDecimal 11 (-1)
    tenths.start.isFinite = true ∧ tenths.interval.isFinite = true ∧
      (1 : Double).isFinite = true ∧ tenths.start.le 1 = true ∧
      tenths.deadline 10 = .ok 1 ∧ tenths.deadline 11 = .ok after ∧ after.isFinite = true ∧
      tenths.lastDue 1 = .ok 9 ∧ ¬ tenths.Latest 1 9 ∧ tenths.Latest 1 10 := by
  have htenth : tenths.deadline 10 = .ok 1 := by decide +kernel
  have hafter : tenths.deadline 11 = .ok (Seconds.ofDecimal 11 (-1)) := by decide +kernel
  have hlatest : tenths.Latest 1 10 :=
    (latest_iff (by decide +kernel) (by decide +kernel) (by decide +kernel) htenth hafter).mpr
      ⟨by decide +kernel, by decide +kernel⟩
  refine ⟨by decide +kernel, by decide +kernel, by decide +kernel, by decide +kernel, htenth, hafter,
    by decide +kernel, by decide +kernel, fun hninth => ?_, hlatest⟩
  exact absurd (hninth.2 hlatest.1) (by decide)

end Schedule

end BrokerLoad
