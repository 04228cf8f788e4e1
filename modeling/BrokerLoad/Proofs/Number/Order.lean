import BrokerLoad.Proofs.Number.Places

/-!
# The order of double-precision numbers

Every number that is one has a place on a line: its count of units, or a count beyond all finite
ones for an infinity. Comparisons compare places, and the place of a sum or a difference is the
exact one, rounded. Rounding never turns two numbers around, and it leaves alone what needs no
rounding. From these two facts follows whatever else is needed here of the order of rounded results.

## Main definitions

* `Double.place`: the place of a number.
* `Double.nearest`: the place that an exact count of units is rounded to.

## Main statements

* `roundDigits_mono`, `roundDigits_mul`: rounding is monotone, and exact where it can be.
* `Double.le_iff`, `Double.lt_iff`: comparisons compare places.
* `Double.place_add`, `Double.place_sub`: sums and differences are rounded exact ones.
-/

namespace BrokerLoad

/-! ## §1 Rounding -/

theorem roundHalfEven_mono {num num' : Nat} (den : Nat) (h : num ≤ num') :
    roundHalfEven num den ≤ roundHalfEven num' den := by
  have hquotient : num / den ≤ num' / den := Nat.div_le_div_right h
  rcases Nat.lt_or_eq_of_le hquotient with hless | heq
  · -- there is a whole number in between
    exact Nat.le_trans (roundHalfEven_le num den) (Nat.le_trans hless (le_roundHalfEven num' den))
  · have hrest : num % den ≤ num' % den := by
      have hnum := Nat.div_add_mod num den
      have hnum' := Nat.div_add_mod num' den
      rw [heq] at hnum
      omega
    unfold roundHalfEven
    rw [← heq]
    repeat' split
    all_goals omega

theorem lastPlace_mono {m n : Nat} (h : m ≤ n) : lastPlace m ≤ lastPlace n := by
  unfold lastPlace
  have hlog : m.log2 ≤ n.log2 := by
    by_cases hm : m = 0
    · subst hm
      exact Nat.zero_le _
    · exact (Nat.le_log2 (by omega)).mpr (Nat.le_trans (Nat.log2_self_le hm) h)
  omega

/-- A rounded quotient has its highest binary digit at most one place above that of the quotient. -/
theorem roundDigits_le (num den : Nat) :
    roundDigits num den ≤ twoPow (53 + lastPlace (num / den)) := by
  have hle : roundHalfEven num (den * twoPow (lastPlace (num / den))) ≤ twoPow 53 := by
    have hr := roundHalfEven_le num (den * twoPow (lastPlace (num / den)))
    have hq := div_twoPow_lastPlace_lt (num / den)
    rw [Nat.div_div_eq_div_mul] at hq
    omega
  rw [roundDigits, twoPow_add]
  exact Nat.mul_le_mul_right _ hle

/-- A quotient of more than 53 digits keeps its highest one when it is rounded. -/
theorem twoPow_le_roundDigits_div {num den : Nat} (h : 0 < lastPlace (num / den)) :
    twoPow (52 + lastPlace (num / den)) ≤ roundDigits num den := by
  have hlog : (num / den).log2 = 52 + lastPlace (num / den) := by
    unfold lastPlace at h ⊢
    omega
  have hne : num / den ≠ 0 := by
    intro hzero
    rw [hzero] at h
    exact absurd h (by decide)
  have hdigits : twoPow 52 ≤ num / (den * twoPow (lastPlace (num / den))) := by
    rw [← Nat.div_div_eq_div_mul, Nat.le_div_iff_mul_le (twoPow_pos _), ← twoPow_add, ← hlog]
    exact Nat.log2_self_le hne
  rw [roundDigits, twoPow_add]
  exact Nat.mul_le_mul_right _ (Nat.le_trans hdigits (le_roundHalfEven _ _))

/-- Rounding is monotone. -/
theorem roundDigits_mono {num num' : Nat} (den : Nat) (h : num ≤ num') :
    roundDigits num den ≤ roundDigits num' den := by
  have hplace := lastPlace_mono (Nat.div_le_div_right (c := den) h)
  rcases Nat.lt_or_eq_of_le hplace with hless | heq
  · -- the digits of the larger quotient begin where those of the smaller one cannot reach
    calc roundDigits num den ≤ twoPow (53 + lastPlace (num / den)) := roundDigits_le num den
      _ ≤ twoPow (52 + lastPlace (num' / den)) := twoPow_le (by omega)
      _ ≤ roundDigits num' den := twoPow_le_roundDigits_div (by omega)
  · rw [roundDigits, roundDigits, heq]
    exact Nat.mul_le_mul_right _ (roundHalfEven_mono _ h)

/-- What has no more than 53 digits is left alone. -/
theorem roundDigits_mul {m den : Nat} (hden : 0 < den) (h : twoPow (lastPlace m) ∣ m) :
    roundDigits (m * den) den = m := by
  have hquotient : m * den / den = m := Nat.mul_div_cancel m hden
  obtain ⟨digits, hdigits⟩ := h
  have hnum : m * den = digits * (den * twoPow (lastPlace m)) := by
    rw [Nat.mul_comm den, ← Nat.mul_assoc, Nat.mul_comm digits, ← hdigits]
  rw [roundDigits, hquotient, hnum,
    roundHalfEven_mul digits (Nat.mul_pos hden (twoPow_pos _)), Nat.mul_comm digits, ← hdigits]

theorem roundDigits_one {m : Nat} (h : twoPow (lastPlace m) ∣ m) : roundDigits m 1 = m := by
  have hround := roundDigits_mul Nat.one_pos h
  rwa [Nat.mul_one] at hround

namespace Double

/-! ## §2 Places -/

/-- The place of a number on a line where every infinity lies beyond every finite number; zero for
what is no number. -/
def place : Double → Int
  | .nan => 0
  | .infinite s => if s then -(unitsOverflow : Int) else unitsOverflow
  | .finite s m => signedUnits s m

theorem place_finite (s : Bool) (m : Magnitude) : (finite s m).place = signedUnits s m := rfl

theorem place_infinite (s : Bool) :
    (infinite s).place = if s then -(unitsOverflow : Int) else unitsOverflow := rfl

theorem le_eq {x y : Double} (hx : x ≠ .nan) (hy : y ≠ .nan) :
    x.le y = decide (x.place ≤ y.place) := by
  cases x <;> cases y <;> first | rfl | contradiction

theorem lt_eq {x y : Double} (hx : x ≠ .nan) (hy : y ≠ .nan) :
    x.lt y = decide (x.place < y.place) := by
  cases x <;> cases y <;> first | rfl | contradiction

theorem nan_le (y : Double) : Double.nan.le y = false := by
  cases y <;> rfl

theorem le_nan (x : Double) : x.le .nan = false := by
  cases x <;> rfl

theorem nan_lt (y : Double) : Double.nan.lt y = false := by
  cases y <;> rfl

theorem lt_nan (x : Double) : x.lt .nan = false := by
  cases x <;> rfl

/-- Comparisons compare places. -/
theorem le_iff {x y : Double} : x.le y = true ↔ x ≠ .nan ∧ y ≠ .nan ∧ x.place ≤ y.place := by
  by_cases hx : x = .nan
  · simp [hx, nan_le]
  by_cases hy : y = .nan
  · simp [hy, le_nan]
  simp [le_eq hx hy, hx, hy]

theorem lt_iff {x y : Double} : x.lt y = true ↔ x ≠ .nan ∧ y ≠ .nan ∧ x.place < y.place := by
  by_cases hx : x = .nan
  · simp [hx, nan_lt]
  by_cases hy : y = .nan
  · simp [hy, lt_nan]
  simp [lt_eq hx hy, hx, hy]

/-- Of two numbers one is not beyond the other. -/
theorem le_of_not_le {x y : Double} (hx : x ≠ .nan) (hy : y ≠ .nan) (h : x.le y = false) :
    y.le x = true := by
  rw [le_eq hx hy, decide_eq_false_iff_not] at h
  exact le_iff.mpr ⟨hy, hx, by omega⟩

/-- Numbers of one value have one place. -/
theorem eq_of_place {x y : Double} (hx : x ≠ .nan) (hy : y ≠ .nan) (h : x.place = y.place) :
    x.eq y = true := by
  have heq : x.eq y = decide (x.place = y.place) := by
    cases x <;> cases y <;> first | rfl | contradiction
  rw [heq]
  exact decide_eq_true h

theorem eq_iff {x y : Double} : x.eq y = true ↔ x ≠ .nan ∧ y ≠ .nan ∧ x.place = y.place := by
  refine ⟨fun h => ?_, fun ⟨hx, hy, hplace⟩ => eq_of_place hx hy hplace⟩
  cases x <;> cases y <;> first | exact ⟨nofun, nofun, of_decide_eq_true h⟩ | cases h

theorem ne_nan_of_isFinite {x : Double} (h : x.isFinite = true) : x ≠ .nan := by
  rintro rfl
  cases h

/-- The finite numbers are those between the infinite ones. -/
theorem isFinite_iff {x : Double} (hx : x ≠ .nan) :
    x.isFinite = true ↔ -(unitsOverflow : Int) < x.place ∧ x.place < unitsOverflow := by
  cases x with
  | nan => contradiction
  | infinite s =>
    refine iff_of_false nofun ?_
    rw [place_infinite]
    split <;> omega
  | finite s m =>
    have hbound := m.bounded
    have hplace : (Double.finite s m).place = if s then -(m.units : Int) else m.units := rfl
    simp only [isFinite, hplace, true_iff]
    split <;> omega

/-! ## §3 The nearest place -/

/-- The place that an exact count of units is rounded to. -/
def nearest (units : Int) : Int :=
  if units < 0 then -((min (roundDigits units.natAbs 1) unitsOverflow : Nat) : Int)
  else (min (roundDigits units.natAbs 1) unitsOverflow : Nat)

theorem nearest_mono {u v : Int} (h : u ≤ v) : nearest u ≤ nearest v := by
  unfold nearest
  split
  · split
    · have hround := roundDigits_mono 1 (show v.natAbs ≤ u.natAbs by omega)
      omega
    · omega
  · rw [if_neg (by omega)]
    have hround := roundDigits_mono 1 (show u.natAbs ≤ v.natAbs by omega)
    omega

@[simp] theorem nearest_zero : nearest 0 = 0 := by
  have hround : roundDigits 0 1 = 0 := roundDigits_one (Nat.dvd_zero _)
  rw [nearest, if_neg (Int.lt_irrefl 0), Int.natAbs_zero, hround, Nat.zero_min]
  rfl

theorem nearest_nonneg {u : Int} (h : 0 ≤ u) : 0 ≤ nearest u :=
  nearest_zero.ge.trans (nearest_mono h)

/-- The place of a finite number needs no rounding. -/
theorem nearest_place {x : Double} (hx : x.isFinite = true) : nearest x.place = x.place := by
  cases x with
  | finite s m =>
    have hround := roundDigits_one m.exact
    have hbound := m.bounded
    have hplace : (Double.finite s m).place = if s then -(m.units : Int) else m.units := rfl
    have habs : (Double.finite s m).place.natAbs = m.units := by
      rw [hplace]
      split <;> omega
    rw [nearest, habs, hround, hplace, Nat.min_eq_left (Nat.le_of_lt hbound)]
    cases s with
    | true => rw [if_pos rfl]; split <;> omega
    | false => rw [if_neg Bool.false_ne_true]; split <;> omega
  | _ => cases hx

theorem place_ofRatio (s : Bool) (num den : Nat) :
    (ofRatio s num den).place =
      if s then -((min (roundDigits num den) unitsOverflow : Nat) : Int)
      else (min (roundDigits num den) unitsOverflow : Nat) := by
  unfold ofRatio
  split
  · next h =>
    rw [Nat.min_eq_left (Nat.le_of_lt h)]
    rfl
  · next h =>
    rw [Nat.min_eq_right (Nat.not_lt.mp h)]
    rfl

theorem ofRatio_ne_nan (s : Bool) (num den : Nat) : ofRatio s num den ≠ .nan := by
  unfold ofRatio
  split <;> nofun

theorem ofUnits_ne_nan (s : Bool) (units : Int) : ofUnits s units ≠ .nan := ofRatio_ne_nan _ _ _

theorem place_ofUnits (s : Bool) (units : Int) : (ofUnits s units).place = nearest units := by
  rw [ofUnits, place_ofRatio]
  by_cases hzero : units = 0
  · have hround : roundDigits 0 1 = 0 := roundDigits_one (Nat.dvd_zero _)
    rw [hzero, nearest_zero, Int.natAbs_zero, hround, Nat.zero_min]
    cases s <;> rfl
  · simp only [hzero, if_false, nearest, decide_eq_true_eq]

/-! ## §4 Sums and differences -/

theorem place_neg (x : Double) : x.neg.place = -x.place := by
  cases x with
  | nan => rfl
  | infinite s =>
    cases s with
    | true => exact (Int.neg_neg _).symm
    | false => rfl
  | finite s m =>
    cases s with
    | true => exact (Int.neg_neg _).symm
    | false => rfl

theorem isFinite_neg (x : Double) : x.neg.isFinite = x.isFinite := by
  cases x <;> rfl

/-- The sum of two finite numbers is the exact one, rounded. -/
theorem place_add {x y : Double} (hx : x.isFinite = true) (hy : y.isFinite = true) :
    x + y ≠ .nan ∧ (x + y).place = nearest (x.place + y.place) := by
  cases x with
  | finite s m =>
    cases y with
    | finite t n =>
      change Double.add _ _ ≠ .nan ∧ (Double.add _ _).place = _
      rw [Double.add, place_finite, place_finite, place_ofUnits]
      exact ⟨ofUnits_ne_nan _ _, rfl⟩
    | _ => cases hy
  | _ => cases hx

/-- The difference of two finite numbers is the exact one, rounded. -/
theorem place_sub {x y : Double} (hx : x.isFinite = true) (hy : y.isFinite = true) :
    x - y ≠ .nan ∧ (x - y).place = nearest (x.place - y.place) := by
  have h := place_add hx (y := y.neg) (by rwa [isFinite_neg])
  rwa [place_neg] at h

/-- Something that is not negative does not make a finite number smaller. -/
theorem le_add_of_nonneg {x t : Double} (hx : x.isFinite = true) (ht : t ≠ .nan)
    (hnonneg : 0 ≤ t.place) : x.le (x + t) = true := by
  have hplace := (isFinite_iff (ne_nan_of_isFinite hx)).mp hx
  cases t with
  | nan => contradiction
  | infinite s =>
    cases s with
    | true =>
      have hneg : (Double.infinite true).place = -(unitsOverflow : Int) := rfl
      omega
    | false =>
      cases x with
      | finite s m => exact le_iff.mpr ⟨nofun, nofun, hplace.2.le⟩
      | _ => cases hx
  | finite s m =>
    obtain ⟨hne, hsum⟩ := place_add hx (y := .finite s m) rfl
    refine le_iff.mpr ⟨ne_nan_of_isFinite hx, hne, ?_⟩
    rw [hsum, ← nearest_place hx]
    exact nearest_mono (by rw [nearest_place hx]; omega)

/-- What gives a finite sum with a finite number is finite. -/
theorem isFinite_of_add {x y : Double} (hx : x.isFinite = true) (hy : y ≠ .nan)
    (h : (x + y).isFinite = true) : y.isFinite = true := by
  cases x with
  | finite s m =>
    cases y with
    | nan => contradiction
    | infinite t => cases h
    | finite t n => rfl
  | _ => cases hx

/-- A finite number can be taken away from any number. -/
theorem sub_ne_nan {x y : Double} (hx : x ≠ .nan) (hy : y.isFinite = true) : x - y ≠ .nan := by
  cases y with
  | finite t n =>
    cases x with
    | nan => contradiction
    | infinite s => nofun
    | finite s m => exact (place_sub rfl rfl).1
  | _ => cases hy

/-- The difference to a smaller finite number is not negative. -/
theorem sub_nonneg_of_le {x y : Double} (hx : x.isFinite = true) (h : x.le y = true) :
    y - x ≠ .nan ∧ 0 ≤ (y - x).place := by
  obtain ⟨-, hy, hle⟩ := le_iff.mp h
  have hplace := (isFinite_iff (ne_nan_of_isFinite hx)).mp hx
  cases y with
  | nan => contradiction
  | infinite s =>
    cases s with
    | true =>
      have hneg : (Double.infinite true).place = -(unitsOverflow : Int) := rfl
      omega
    | false =>
      cases x with
      | finite s m => exact ⟨nofun, Int.natCast_nonneg _⟩
      | _ => cases hx
  | finite s m =>
    obtain ⟨hne, hsub⟩ := place_sub (x := .finite s m) rfl hx
    exact ⟨hne, hsub ▸ nearest_nonneg (by omega)⟩

/-- The difference to a larger finite number is not above zero. -/
theorem sub_nonpos_of_le {x y : Double} (hx : x.isFinite = true) (hy : y.isFinite = true)
    (h : y.le x = true) : (y - x).place ≤ 0 := by
  obtain ⟨-, -, hle⟩ := le_iff.mp h
  rw [(place_sub hy hx).2, ← nearest_zero]
  exact nearest_mono (by omega)

/-- The difference of a larger number to a finite one is no smaller. -/
theorem sub_le_sub {x y z : Double} (hz : z.isFinite = true) (hx : x.isFinite = true)
    (hy : y.isFinite = true) (h : x.le y = true) : (x - z).le (y - z) = true := by
  obtain ⟨-, -, hle⟩ := le_iff.mp h
  obtain ⟨hnex, hsubx⟩ := place_sub hx hz
  obtain ⟨hney, hsuby⟩ := place_sub hy hz
  refine le_iff.mpr ⟨hnex, hney, ?_⟩
  rw [hsubx, hsuby]
  exact nearest_mono (by omega)

/-- A number between finite ones is finite. -/
theorem isFinite_of_between {x y z : Double} (hx : x.isFinite = true) (hz : z.isFinite = true)
    (h : x.le y = true) (h' : y.le z = true) : y.isFinite = true := by
  obtain ⟨hnex, hne, hxy⟩ := le_iff.mp h
  obtain ⟨-, hnez, hyz⟩ := le_iff.mp h'
  have hlow := ((isFinite_iff hnex).mp hx).1
  have hhigh := ((isFinite_iff hnez).mp hz).2
  exact (isFinite_iff hne).mpr ⟨by omega, by omega⟩

/-- A number at the place of a finite one is finite. -/
theorem isFinite_of_place {x y : Double} (hx : x.isFinite = true) (hy : y ≠ .nan)
    (h : y.place = x.place) : y.isFinite = true := by
  rw [isFinite_iff hy, h]
  exact (isFinite_iff (ne_nan_of_isFinite hx)).mp hx

/-- Nothing is left of a number without itself. -/
theorem place_sub_of_place {x y : Double} (hx : x.isFinite = true) (hy : y ≠ .nan)
    (h : y.place = x.place) : y - x ≠ .nan ∧ (y - x).place = 0 := by
  obtain ⟨hne, hsub⟩ := place_sub (isFinite_of_place hx hy h) hx
  rw [h, Int.sub_self, nearest_zero] at hsub
  exact ⟨hne, hsub⟩

/-- A number at zero added to a finite one leaves it at its place. -/
theorem place_add_of_zero {x t : Double} (hx : x.isFinite = true) (ht : t.isFinite = true)
    (h : t.place = 0) : x + t ≠ .nan ∧ (x + t).place = x.place := by
  obtain ⟨hne, hsum⟩ := place_add hx ht
  rw [h, Int.add_zero, nearest_place hx] at hsum
  exact ⟨hne, hsum⟩

theorem le_trans {x y z : Double} (h : x.le y = true) (h' : y.le z = true) : x.le z = true := by
  obtain ⟨hx, -, hxy⟩ := le_iff.mp h
  obtain ⟨-, hz, hyz⟩ := le_iff.mp h'
  exact le_iff.mpr ⟨hx, hz, hxy.trans hyz⟩

/-- A number after a finite one that is itself not finite is infinite. -/
theorem eq_infinite_of_le {x y : Double} (hx : x.isFinite = true) (h : x.le y = true)
    (hy : y.isFinite = false) : y = .infinite false := by
  obtain ⟨-, hne, hle⟩ := le_iff.mp h
  have hplace := (isFinite_iff (ne_nan_of_isFinite hx)).mp hx
  cases y with
  | nan => contradiction
  | infinite s =>
    cases s with
    | true =>
      have hneg : (Double.infinite true).place = -(unitsOverflow : Int) := rfl
      omega
    | false => rfl
  | finite s m => cases hy

end Double

end BrokerLoad
