import BrokerLoad.Proofs.Number.Order

/-!
# Multiples and whole quotients of double-precision numbers

A schedule multiplies its interval by an index and divides the time that has passed by the interval.
The index has to be a number, the product may be infinite, and the quotient must not be: an infinite
one has no whole part. Here it is said when all this goes well, and how large the whole part can be.

## Main definitions

* `largestInteger`: the largest finite number, as an integer.

## Main statements

* `Double.exists_ofInt?`: an index is a number as long as it is not far beyond the largest one.
* `Double.times_nonneg`: a multiple of an interval is not negative.
* `Double.wholeQuotient_ok`: if the quotient is finite, it has a whole part.
* `Double.wholeQuotient_of_lt`: the whole part of a quotient below one is zero.
-/

namespace BrokerLoad

/-- The largest finite number, as an integer. -/
def largestInteger : Nat := twoPow 1024 - twoPow 971

theorem unitsPerOne_pos : 0 < unitsPerOne := twoPow_pos 1074

theorem unitsOverflow_pos : 0 < unitsOverflow := twoPow_pos 2098

theorem largestInteger_pos : 0 < largestInteger :=
  Nat.sub_pos_of_lt (twoPow_lt (by decide))

/-! ## §1 Below the infinite numbers -/

/-- A count below the middle between the largest finite number and the next one is not rounded up to
that. -/
theorem roundDigits_lt {num e : Nat} (h : num + twoPow e < twoPow (54 + e)) :
    roundDigits num 1 < twoPow (54 + e) := by
  have hplace : lastPlace num ≤ e + 1 := lastPlace_le_of_lt (by
    rw [show 53 + (e + 1) = 54 + e by omega]
    omega)
  rcases Nat.lt_or_eq_of_le hplace with hless | heq
  · refine Nat.lt_of_le_of_lt (roundDigits_le num 1) (twoPow_lt ?_)
    rw [Nat.div_one]
    omega
  · have hdouble : twoPow (e + 1) = 2 * twoPow e := by
      rw [Nat.add_comm, twoPow_add]
      rfl
    have htop : twoPow (54 + e) = twoPow 53 * twoPow (e + 1) := by
      rw [← twoPow_add]
      congr 1
      omega
    have hpos := twoPow_pos e
    rw [htop] at h ⊢
    rw [roundDigits, Nat.div_one, heq, Nat.one_mul]
    refine Nat.mul_lt_mul_of_pos_right ?_ (twoPow_pos _)
    have hquotient : num / twoPow (e + 1) < twoPow 53 :=
      (Nat.div_lt_iff_lt_mul (twoPow_pos _)).mpr (by omega)
    have hnum := Nat.div_add_mod num (twoPow (e + 1))
    by_cases hlast : num / twoPow (e + 1) + 1 = twoPow 53
    · -- in the last place the rest is less than a half
      have hrest : 2 * (num % twoPow (e + 1)) < twoPow (e + 1) := by
        rw [← hlast, Nat.add_mul, Nat.mul_comm (num / _)] at h
        omega
      rw [roundHalfEven, if_pos hrest]
      exact hquotient
    · have hle := roundHalfEven_le num (twoPow (e + 1))
      omega

/-- The largest finite magnitude. -/
theorem Magnitude.units_le (m : Magnitude) : m.units + twoPow 2045 ≤ twoPow 2098 := by
  have hbound : m.units < twoPow (53 + 2045) := m.bounded
  have hplace : lastPlace m.units ≤ 2045 := lastPlace_le_of_lt hbound
  have hhalf : twoPow 2097 + twoPow 2045 ≤ twoPow 2098 := by
    have hdouble : twoPow 2098 = twoPow 2097 * twoPow 1 := twoPow_add 2097 1
    have hone : twoPow 1 = 2 := rfl
    have hle : twoPow 2045 ≤ twoPow 2097 := twoPow_le (by decide)
    rw [hone] at hdouble
    omega
  rcases Nat.lt_or_eq_of_le hplace with hless | heq
  · have hsmall : m.units < twoPow 2097 := by
      have hdigits := div_twoPow_lastPlace_lt m.units
      rw [Nat.div_lt_iff_lt_mul (twoPow_pos _), ← twoPow_add] at hdigits
      exact Nat.lt_of_lt_of_le hdigits (twoPow_le (by omega))
    omega
  · obtain ⟨digits, hdigits⟩ := m.exact
    have hpos := twoPow_pos 2045
    rw [heq] at hdigits
    rw [hdigits, twoPow_add, Nat.mul_comm (twoPow 53)] at hbound
    have hless : digits < twoPow 53 := Nat.lt_of_mul_lt_mul_left hbound
    calc m.units + twoPow 2045 = twoPow 2045 * (digits + 1) := by
          rw [hdigits, Nat.mul_add, Nat.mul_one]
      _ ≤ twoPow 2045 * twoPow 53 := Nat.mul_le_mul_left _ hless
      _ = twoPow 2098 := by rw [← twoPow_add]

namespace Double

/-! ## §2 Multiples -/

/-- An index is a number as long as it is not far beyond the largest one. -/
theorem exists_ofInt? {k : Int} (h : k.natAbs + twoPow 970 < twoPow 1024) :
    ∃ x, ofInt? k = .ok x := by
  have hround : roundDigits (k * unitsPerOne).natAbs 1 < unitsOverflow := by
    refine roundDigits_lt (e := 2044) ?_
    have hhalf : twoPow 970 * unitsPerOne = twoPow 2044 := by rw [unitsPerOne, ← twoPow_add]
    have htop : twoPow 1024 * unitsPerOne = twoPow (54 + 2044) := by
      rw [unitsPerOne, ← twoPow_add]
    rw [Int.natAbs_mul, Int.natAbs_natCast, ← hhalf, ← htop, ← Nat.add_mul]
    exact Nat.mul_lt_mul_of_pos_right h unitsPerOne_pos
  unfold ofInt?
  rw [ofInt, ofUnits, ofRatio, dif_pos hround]
  exact ⟨_, rfl⟩

theorem ofInt?_eq {k : Int} {x : Double} (h : ofInt? k = .ok x) :
    x.isFinite = true ∧ x.place = nearest (k * unitsPerOne) := by
  have hplace : (ofInt k).place = nearest (k * unitsPerOne) := place_ofUnits _ _
  have hne : ofInt k ≠ .nan := ofUnits_ne_nan _ _
  unfold ofInt? at h
  generalize ofInt k = y at h hplace hne
  cases y with
  | nan => contradiction
  | infinite s => cases h
  | finite s m =>
    cases h
    exact ⟨rfl, hplace⟩

/-- A number that is not negative has as many units as its place says, and a minus sign only if that
is zero. -/
theorem units_eq {s : Bool} {m : Magnitude} (h : 0 ≤ (finite s m).place) :
    m.units = (finite s m).place.toNat ∧ (s = true → m.units = 0) := by
  rw [place_finite, signedUnits] at h ⊢
  cases s with
  | false => exact ⟨(Int.toNat_natCast _).symm, nofun⟩
  | true =>
    have hzero : m.units = 0 := by
      simp only [if_true] at h
      omega
    exact ⟨by simp [hzero], fun _ => hzero⟩

theorem roundDigits_zero {den : Nat} (hden : 0 < den) : roundDigits 0 den = 0 := by
  have h := roundDigits_mul hden (Nat.dvd_zero (twoPow (lastPlace 0)))
  rwa [Nat.zero_mul] at h

/-- A rounded ratio has a minus sign only if it is zero: its place is the rounded ratio. -/
theorem place_ofRatio_of_zero {s : Bool} {num den : Nat} (hden : 0 < den)
    (hs : s = true → num = 0) :
    (ofRatio s num den).place = (min (roundDigits num den) unitsOverflow : Nat) := by
  rw [place_ofRatio]
  cases s with
  | false => rw [if_neg Bool.false_ne_true]
  | true =>
    rw [hs rfl, roundDigits_zero hden, Nat.zero_min, if_pos rfl]
    rfl

/-- The product of two finite numbers that are not negative is the exact one, rounded. -/
theorem place_mul {x y : Double} (hx : x.isFinite = true) (hy : y.isFinite = true)
    (hx0 : 0 ≤ x.place) (hy0 : 0 ≤ y.place) :
    x * y ≠ .nan ∧ (x * y).place =
      (min (roundDigits (x.place.toNat * y.place.toNat) unitsPerOne) unitsOverflow : Nat) := by
  cases x with
  | finite s m =>
    cases y with
    | finite t n =>
      obtain ⟨hm, hs⟩ := units_eq hx0
      obtain ⟨hn, ht⟩ := units_eq hy0
      have hsign : (s ^^ t) = true → m.units * n.units = 0 := by
        cases s with
        | true => simp [hs rfl]
        | false => cases t with
          | true => simp [ht rfl]
          | false => nofun
      change Double.mul _ _ ≠ .nan ∧ (Double.mul _ _).place = _
      rw [Double.mul, ← hm, ← hn]
      exact ⟨ofRatio_ne_nan _ _ _, place_ofRatio_of_zero unitsPerOne_pos hsign⟩
    | _ => cases hy
  | _ => cases hx

/-- The quotient of two finite numbers, one not negative and the other positive, is the exact one,
rounded. -/
theorem place_div {x y : Double} (hx : x.isFinite = true) (hy : y.isFinite = true)
    (hx0 : 0 ≤ x.place) (hy0 : 0 < y.place) :
    x / y ≠ .nan ∧ (x / y).place =
      (min (roundDigits (x.place.toNat * unitsPerOne) y.place.toNat) unitsOverflow : Nat) := by
  cases x with
  | finite s m =>
    cases y with
    | finite t n =>
      obtain ⟨hm, hs⟩ := units_eq hx0
      obtain ⟨hn, ht⟩ := units_eq hy0.le
      have hpos : n.units ≠ 0 := by omega
      have hsign : (s ^^ t) = true → m.units * unitsPerOne = 0 := by
        cases s with
        | true => simp [hs rfl]
        | false => cases t with
          | true => exact absurd (ht rfl) hpos
          | false => nofun
      change Double.div _ _ ≠ .nan ∧ (Double.div _ _).place = _
      rw [Double.div, if_neg hpos, ← hm, ← hn]
      exact ⟨ofRatio_ne_nan _ _ _,
        place_ofRatio_of_zero (Nat.pos_of_ne_zero hpos) hsign⟩
    | _ => cases hy
  | _ => cases hx

/-- A multiple of an interval. -/
theorem times_eq {k : Int} {x t : Double} (h : Seconds.times k x = .ok t) :
    ∃ y, ofInt? k = .ok y ∧ t = y * x := by
  cases hk : ofInt? k with
  | error f =>
    simp only [Seconds.times, hk] at h
    cases h
  | ok y =>
    simp only [Seconds.times, hk] at h
    exact ⟨y, rfl, (Except.ok.inj h).symm⟩

/-- A power of two needs no rounding. -/
theorem nearest_twoPow {k : Nat} (hk : k < 2098) : nearest (twoPow k) = twoPow k := by
  have hplace : lastPlace (twoPow k) ≤ k := lastPlace_le_of_lt (twoPow_lt (by omega))
  have hbound : twoPow k ≤ unitsOverflow := twoPow_le hk.le
  rw [nearest, if_neg (Int.not_lt.mpr (Int.natCast_nonneg _)), Int.natAbs_natCast,
    roundDigits_one (twoPow_dvd hplace), Nat.min_eq_left hbound]

/-- An interval has a multiple for every index that is a number. -/
theorem exists_times {k : Int} (x : Double) (h : k.natAbs + twoPow 970 < twoPow 1024) :
    ∃ t, Seconds.times k x = .ok t := by
  obtain ⟨y, hy⟩ := exists_ofInt? h
  exact ⟨y * x, by simp only [Seconds.times, hy]; rfl⟩

variable {x y : Double}

/-- A multiple of an interval is not negative. -/
theorem times_nonneg (hx : x.isFinite = true) (hx0 : 0 ≤ x.place) {k : Int} (hk : 0 ≤ k)
    {t : Double} (h : Seconds.times k x = .ok t) : t ≠ .nan ∧ 0 ≤ t.place := by
  obtain ⟨y, hy, rfl⟩ := times_eq h
  obtain ⟨hfinite, hplace⟩ := ofInt?_eq hy
  have hy0 : 0 ≤ y.place := by
    rw [hplace]
    exact nearest_nonneg (Int.mul_nonneg hk (Int.natCast_nonneg _))
  obtain ⟨hne, hmul⟩ := place_mul hfinite hx hy0 hx0
  exact ⟨hne, hmul ▸ Int.natCast_nonneg _⟩

/-- The interval taken no times is zero. -/
theorem times_zero (hx : x.isFinite = true) (hx0 : 0 ≤ x.place) {t : Double}
    (h : Seconds.times 0 x = .ok t) : t.isFinite = true ∧ t.place = 0 := by
  obtain ⟨y, hy, rfl⟩ := times_eq h
  obtain ⟨hfinite, hplace⟩ := ofInt?_eq hy
  rw [Int.zero_mul, nearest_zero] at hplace
  obtain ⟨hne, hmul⟩ := place_mul hfinite hx hplace.ge hx0
  rw [hplace, Int.toNat_zero, Nat.zero_mul, roundDigits_zero unitsPerOne_pos, Nat.zero_min] at hmul
  have hpos : (0 : Int) < unitsOverflow := Int.natCast_pos.mpr unitsOverflow_pos
  refine ⟨(isFinite_iff hne).mpr ?_, hmul⟩
  rw [hmul]
  exact ⟨by omega, hpos⟩

/-- The interval taken once is the interval. -/
theorem times_one (hx : x.isFinite = true) (hx0 : 0 ≤ x.place) {t : Double}
    (h : Seconds.times 1 x = .ok t) : t.isFinite = true ∧ t.place = x.place := by
  obtain ⟨y, hy, rfl⟩ := times_eq h
  obtain ⟨hfinite, hplace⟩ := ofInt?_eq hy
  have hone : y.place = unitsPerOne := by
    rw [hplace, Int.one_mul]
    exact nearest_twoPow (by decide)
  cases x with
  | finite s m =>
    obtain ⟨hm, -⟩ := units_eq hx0
    obtain ⟨hne, hmul⟩ := place_mul hfinite hx (hone ▸ Int.natCast_nonneg _) hx0
    have hplace := (isFinite_iff (ne_nan_of_isFinite hx)).mp hx
    have hbound := m.bounded
    rw [hone, Int.toNat_natCast, Nat.mul_comm, ← hm, roundDigits_mul unitsPerOne_pos m.exact,
      Nat.min_eq_left hbound.le, hm, Int.toNat_of_nonneg hx0] at hmul
    refine ⟨(isFinite_iff hne).mpr ?_, hmul⟩
    rw [hmul]
    exact hplace
  | _ => cases hx

/-! ## §3 Whole quotients -/

/-- A number that is not beyond a finite one is finite. -/
theorem isFinite_of_le (hx : x ≠ .nan) (hx0 : 0 ≤ x.place) (hy : y.isFinite = true)
    (hle : x.place ≤ y.place) : x.isFinite = true := by
  have hpos : (0 : Int) < unitsOverflow := Int.natCast_pos.mpr unitsOverflow_pos
  have hplace := (isFinite_iff (ne_nan_of_isFinite hy)).mp hy
  exact (isFinite_iff hx).mpr ⟨by omega, by omega⟩

/-- What is left after a division is not negative, and no more than there was. -/
theorem fmod_le (hx : x.isFinite = true) (hx0 : 0 ≤ x.place) (hy : y.isFinite = true)
    (hy0 : 0 < y.place) :
    (fmod x y).isFinite = true ∧ 0 ≤ (fmod x y).place ∧ (fmod x y).place ≤ x.place := by
  have hrest : ∃ s r, fmod x y = ofUnits s r ∧ 0 ≤ r ∧ r ≤ x.place := by
    cases x with
    | finite s m =>
      cases y with
      | finite t n =>
        obtain ⟨hm, hs⟩ := units_eq hx0
        obtain ⟨hn, -⟩ := units_eq hy0.le
        have hmod : m.units % n.units ≤ m.units := Nat.mod_le _ _
        refine ⟨s, _, by rw [fmod, if_neg (by omega)], ?_⟩
        cases s with
        | false => simp only [Bool.false_eq_true, if_false]; omega
        | true =>
          rw [hs rfl, Nat.zero_mod]
          simpa using hx0
      | _ => cases hy
    | _ => cases hx
  obtain ⟨s, r, hfmod, hr0, hrx⟩ := hrest
  have hne : fmod x y ≠ .nan := hfmod ▸ ofUnits_ne_nan s r
  have hplace : (fmod x y).place = nearest r := hfmod ▸ place_ofUnits s r
  have hle : (fmod x y).place ≤ x.place := by
    rw [hplace, ← nearest_place hx]
    exact nearest_mono hrx
  have h0 : 0 ≤ (fmod x y).place := hplace ▸ nearest_nonneg hr0
  exact ⟨isFinite_of_le hne h0 hx hle, h0, hle⟩

theorem ofNat_eq (n : Nat) : (OfNat.ofNat n : Double) = ofInt n := by
  with_reducible_and_instances rfl

theorem place_zero : (0 : Double).place = 0 := by
  rw [ofNat_eq 0, ofInt, place_ofUnits, Int.natCast_zero, Int.zero_mul, nearest_zero]

theorem ofNat_ne_nan (n : Nat) : (OfNat.ofNat n : Double) ≠ .nan := by
  rw [ofNat_eq]
  exact ofUnits_ne_nan _ _

theorem isFinite_zero : (0 : Double).isFinite = true := by
  have hpos := unitsOverflow_pos
  rw [isFinite_iff (ofNat_ne_nan 0), place_zero]
  omega

theorem place_one : (1 : Double).isFinite = true ∧ (1 : Double).place = unitsPerOne := by
  have hplace : (1 : Double).place = unitsPerOne := by
    rw [ofNat_eq 1, ofInt, place_ofUnits, Int.natCast_one, Int.one_mul]
    exact nearest_twoPow (by decide)
  have hless : unitsPerOne < unitsOverflow := twoPow_lt (by decide)
  refine ⟨(isFinite_iff (ofNat_ne_nan 1)).mpr ?_, hplace⟩
  rw [hplace]
  omega

theorem lt_zero_eq_false (h : 0 ≤ x.place) : x.lt 0 = false := by
  rw [← Bool.not_eq_true, lt_iff, place_zero]
  omega

/-- A quotient is no larger than that of a larger number. -/
theorem div_le_div {z : Double} (hz : z.isFinite = true) (hx : x.isFinite = true)
    (hy : y.isFinite = true) (hz0 : 0 ≤ z.place) (hzx : z.place ≤ x.place) (hy0 : 0 < y.place) :
    z / y ≠ .nan ∧ 0 ≤ (z / y).place ∧ (z / y).place ≤ (x / y).place := by
  obtain ⟨hne, hquotient⟩ := place_div hz hy hz0 hy0
  obtain ⟨-, hquotient'⟩ := place_div hx hy (hz0.trans hzx) hy0
  have hnum : z.place.toNat * unitsPerOne ≤ x.place.toNat * unitsPerOne :=
    Nat.mul_le_mul_right _ (Int.toNat_le_toNat hzx)
  have hround := roundDigits_mono y.place.toNat hnum
  rw [hquotient, hquotient']
  exact ⟨hne, Int.natCast_nonneg _, by omega⟩

/-- The whole number at or below a number that is not negative. -/
theorem floor_le (hx : x.isFinite = true) (hx0 : 0 ≤ x.place) :
    x.floor.isFinite = true ∧ 0 ≤ x.floor.place ∧ x.floor.place ≤ x.place := by
  have hdiv : 0 ≤ Int.fdiv x.place unitsPerOne := Int.fdiv_nonneg hx0 (Int.natCast_nonneg _)
  have hle : Int.fdiv x.place unitsPerOne * unitsPerOne ≤ x.place := by
    rw [Int.fdiv_eq_ediv_of_nonneg _ (Int.natCast_nonneg _)]
    exact Int.ediv_mul_le _ (Int.natCast_ne_zero.mpr unitsPerOne_pos.ne')
  have hplace : x.floor ≠ .nan ∧
      x.floor.place = nearest (Int.fdiv x.place unitsPerOne * unitsPerOne) := by
    cases x with
    | finite s m =>
      rw [floor, place_ofUnits]
      exact ⟨ofUnits_ne_nan _ _, rfl⟩
    | _ => cases hx
  obtain ⟨hne, hfloor⟩ := hplace
  have h0 : 0 ≤ x.floor.place :=
    hfloor ▸ nearest_nonneg (Int.mul_nonneg hdiv (Int.natCast_nonneg _))
  have hx' : x.floor.place ≤ x.place := by
    rw [hfloor, ← nearest_place hx]
    exact nearest_mono (by rwa [nearest_place hx])
  exact ⟨isFinite_of_le hne h0 hx hx', h0, hx'⟩

theorem le_log2_of_twoPow_le {n k : Nat} (h : twoPow k ≤ n) : k ≤ n.log2 :=
  (Nat.le_log2 ((twoPow_pos k).trans_le h).ne').mpr h

/-- A large number is a whole one. -/
theorem floor_eq_of_large (hx : x.isFinite = true) (hx0 : 0 ≤ x.place)
    (hlarge : twoPow 2000 ≤ x.place.toNat) : x.floor.place = x.place := by
  cases x with
  | finite s m =>
    obtain ⟨hm, -⟩ := units_eq hx0
    rw [← hm] at hlarge
    have hlog := le_log2_of_twoPow_le hlarge
    have hplace : 1074 ≤ lastPlace m.units := by
      unfold lastPlace
      omega
    have hdvd : (unitsPerOne : Int) ∣ (finite s m).place := by
      rw [← Int.toNat_of_nonneg hx0, ← hm]
      exact Int.natCast_dvd_natCast.mpr ((twoPow_dvd hplace).trans m.exact)
    rw [floor, place_ofUnits, ← place_finite, Int.fdiv_mul_cancel hdvd, nearest_place hx]
  | _ => cases hx

/-- The whole number above the one below a number is finite if that number is more than half way. -/
theorem floor_add_one_finite (hx : x.isFinite = true) (hx0 : 0 ≤ x.place)
    (hhalf : (ofUnits false (twoPow 1073)).lt (x - x.floor) = true) :
    (x.floor + 1).isFinite = true ∧ 0 ≤ (x.floor + 1).place := by
  obtain ⟨hfinite, h0, hle⟩ := floor_le hx hx0
  obtain ⟨-, -, hmore⟩ := lt_iff.mp hhalf
  rw [(place_sub hx hfinite).2, place_ofUnits, nearest_twoPow (by decide)] at hmore
  obtain ⟨hne, hsum⟩ := place_add hfinite place_one.1
  rw [place_one.2] at hsum
  have hsmall : x.place.toNat < twoPow 2000 := by
    by_contra hlarge
    rw [floor_eq_of_large hx hx0 (Nat.not_lt.mp hlarge), Int.sub_self, nearest_zero] at hmore
    exact absurd hmore (Int.not_lt.mpr (Int.natCast_nonneg _))
  have hsum0 : 0 ≤ (x.floor + 1).place := by
    rw [hsum]
    exact nearest_nonneg (Int.add_nonneg h0 (Int.natCast_nonneg _))
  have hbound : x.floor.place + unitsPerOne ≤ twoPow 2001 := by
    have hone : unitsPerOne ≤ twoPow 2000 := twoPow_le (by decide)
    have hdouble : twoPow 2001 = twoPow 2000 * twoPow 1 := twoPow_add 2000 1
    have htwo : twoPow 1 = 2 := rfl
    rw [htwo] at hdouble
    generalize twoPow 2000 = a, twoPow 2001 = b at *
    omega
  have hless : twoPow 2001 < unitsOverflow := twoPow_lt (by decide)
  refine ⟨(isFinite_iff hne).mpr ⟨?_, ?_⟩, hsum0⟩
  · have hpos := unitsOverflow_pos
    omega
  · calc (x.floor + 1).place = nearest (x.floor.place + unitsPerOne) := hsum
      _ ≤ nearest (twoPow 2001) := nearest_mono hbound
      _ = twoPow 2001 := nearest_twoPow (by decide)
      _ < unitsOverflow := Int.ofNat_lt.mpr hless

/-- The steps of a whole quotient. No correction for signs is needed. -/
theorem floorDiv_eq (hx : x.isFinite = true) (hx0 : 0 ≤ x.place) (hy : y.isFinite = true)
    (hy0 : 0 < y.place) :
    let quotient := (x - fmod x y) / y
    floorDiv x y =
      if quotient.isZero then zero (x / y).negative
      else if (ofUnits false (twoPow 1073)).lt (quotient - quotient.floor) then quotient.floor + 1
      else quotient.floor := by
  intro quotient
  have hsigns : (y.lt 0 != (fmod x y).lt 0) = false := by
    rw [lt_zero_eq_false hy0.le, lt_zero_eq_false (fmod_le hx hx0 hy hy0).2.1]
    rfl
  rw [floorDiv, hsigns, Bool.and_false]
  rfl

/-- Without its remainder a number has a quotient that is no larger. -/
theorem quotient_le (hx : x.isFinite = true) (hx0 : 0 ≤ x.place) (hy : y.isFinite = true)
    (hy0 : 0 < y.place) (hquotient : (x / y).isFinite = true) :
    ((x - fmod x y) / y).isFinite = true ∧ 0 ≤ ((x - fmod x y) / y).place ∧
      ((x - fmod x y) / y).place ≤ (x / y).place := by
  obtain ⟨hrest, hrest0, hrestx⟩ := fmod_le hx hx0 hy hy0
  obtain ⟨hne, hsub⟩ := place_sub hx hrest
  have hsub0 : 0 ≤ (x - fmod x y).place := hsub ▸ nearest_nonneg (by omega)
  have hsubx : (x - fmod x y).place ≤ x.place := by
    rw [hsub, ← nearest_place hx]
    exact nearest_mono (by rw [nearest_place hx]; omega)
  have hfinite := isFinite_of_le hne hsub0 hx hsubx
  obtain ⟨hqne, hq0, hqle⟩ := div_le_div hfinite hx hy hsub0 hsubx hy0
  exact ⟨isFinite_of_le hqne hq0 hquotient hqle, hq0, hqle⟩

/-- If the quotient of two numbers is finite, so is the whole quotient. -/
theorem floorDiv_finite (hx : x.isFinite = true) (hx0 : 0 ≤ x.place) (hy : y.isFinite = true)
    (hy0 : 0 < y.place) (hquotient : (x / y).isFinite = true) :
    (floorDiv x y).isFinite = true ∧ 0 ≤ (floorDiv x y).place := by
  obtain ⟨hq, hq0, -⟩ := quotient_le hx hx0 hy hy0 hquotient
  rw [floorDiv_eq hx hx0 hy hy0]
  split
  · have hzero : (zero (x / y).negative).place = 0 := by rw [zero, place_ofUnits, nearest_zero]
    have hzne : zero (x / y).negative ≠ .nan := ofUnits_ne_nan _ _
    exact ⟨isFinite_of_le hzne hzero.ge hx (hzero.trans_le hx0), hzero.ge⟩
  · split
    · next hhalf => exact floor_add_one_finite hq hq0 hhalf
    · obtain ⟨hfloor, hfloor0, -⟩ := floor_le hq hq0
      exact ⟨hfloor, hfloor0⟩

/-- A finite number that is not negative has a whole part. -/
theorem toInt_eq (hx : x.isFinite = true) (hx0 : 0 ≤ x.place) :
    x.toInt = .ok (x.place / unitsPerOne) := by
  cases x with
  | finite s m =>
    have hint : (finite s m).toInt = .ok (Int.tdiv (finite s m).place unitsPerOne) := rfl
    rw [hint, Int.tdiv_eq_ediv_of_nonneg hx0]
  | _ => cases hx

/-- A whole part is no larger than the largest finite number. -/
theorem le_largestInteger_of_toInt {n : Int} (h : x.toInt = .ok n) : n ≤ largestInteger := by
  cases x with
  | finite s m =>
    have hn : n = Int.tdiv (signedUnits s m) unitsPerOne := (Except.ok.inj h).symm
    have hsign : (signedUnits s m).natAbs = m.units := by
      cases s <;> simp [signedUnits]
    have hunits : m.units ≤ unitsPerOne * largestInteger := by
      have hbound := m.units_le
      have htop : unitsPerOne * twoPow 1024 = twoPow 2098 := by rw [unitsPerOne, ← twoPow_add]
      have hlast : unitsPerOne * twoPow 971 = twoPow 2045 := by rw [unitsPerOne, ← twoPow_add]
      rw [largestInteger, Nat.mul_sub, htop, hlast]
      omega
    calc n ≤ (n.natAbs : Int) := Int.le_natAbs
      _ = ((m.units / unitsPerOne : Nat) : Int) := by
        rw [hn, Int.natAbs_tdiv, hsign, Int.natAbs_natCast]
        rfl
      _ ≤ largestInteger := Int.ofNat_le.mpr (Nat.div_le_of_le_mul hunits)
  | _ => cases h

/-- What a finite quotient is taken of is finite. -/
theorem isFinite_of_div (hy : y.isFinite = true) (h : (x / y).isFinite = true) :
    x.isFinite = true := by
  cases y with
  | finite t n =>
    cases x with
    | finite s m => rfl
    | nan => cases h
    | infinite s => cases h
  | _ => cases hy

/-- If the quotient of two numbers is finite, it has a whole part. -/
theorem wholeQuotient_ok (hx : x.isFinite = true) (hx0 : 0 ≤ x.place) (hy : y.isFinite = true)
    (hy0 : 0 < y.place) (hquotient : (x / y).isFinite = true) :
    ∃ n, Seconds.wholeQuotient x y = .ok n := by
  obtain ⟨hfinite, h0⟩ := floorDiv_finite hx hx0 hy hy0 hquotient
  exact ⟨_, toInt_eq hfinite h0⟩

/-- A number at zero is one of the two zeros. -/
theorem isZero_of_place (hx : x.isFinite = true) (h : x.place = 0) : x.isZero = true := by
  cases x with
  | finite s m =>
    obtain ⟨hm, -⟩ := units_eq h.ge
    rw [h, Int.toNat_zero] at hm
    exact beq_iff_eq.mpr hm
  | _ => cases hx

/-- What is left of a smaller number is all of it. -/
theorem fmod_of_lt (hx : x.isFinite = true) (hx0 : 0 ≤ x.place) (hy : y.isFinite = true)
    (hless : x.place < y.place) : (fmod x y).place = x.place := by
  cases x with
  | finite s m =>
    cases y with
    | finite t n =>
      obtain ⟨hm, -⟩ := units_eq hx0
      obtain ⟨hn, -⟩ := units_eq (s := t) (m := n) (by omega)
      have hmod : m.units % n.units = m.units := Nat.mod_eq_of_lt (by omega)
      rw [fmod, if_neg (by omega), hmod, place_ofUnits]
      exact nearest_place hx
    | _ => cases hy
  | _ => cases hx

/-- The whole part of a quotient below one is zero. -/
theorem wholeQuotient_of_lt (hx : x.isFinite = true) (hx0 : 0 ≤ x.place) (hy : y.isFinite = true)
    (hless : x.place < y.place) : Seconds.wholeQuotient x y = .ok 0 := by
  have hy0 : 0 < y.place := by omega
  obtain ⟨hrest, -, -⟩ := fmod_le hx hx0 hy hy0
  obtain ⟨hne, hsub⟩ := place_sub hx hrest
  rw [fmod_of_lt hx hx0 hy hless, Int.sub_self, nearest_zero] at hsub
  have hfinite := isFinite_of_le hne hsub.ge hx (hsub.trans_le hx0)
  obtain ⟨hqne, hquotient⟩ := place_div hfinite hy hsub.ge hy0
  rw [hsub, Int.toNat_zero, Nat.zero_mul, roundDigits_zero (by omega), Nat.zero_min] at hquotient
  have hzero := isZero_of_place (isFinite_of_le hqne hquotient.ge hx (hquotient.trans_le hx0))
    hquotient
  have hplace : (zero (x / y).negative).place = 0 := by rw [zero, place_ofUnits, nearest_zero]
  have hzne : zero (x / y).negative ≠ .nan := ofUnits_ne_nan _ _
  have hwhole := toInt_eq (isFinite_of_le hzne hplace.ge hx (hplace.trans_le hx0)) hplace.ge
  rw [hplace, Int.zero_ediv] at hwhole
  change (floorDiv x y).toInt = _
  rw [floorDiv_eq hx hx0 hy hy0, if_pos hzero, hwhole]

end Double

end BrokerLoad
