import BrokerLoad.Proofs.Number.Nearness

/-!
# Whole quotients without error

A remainder of two double-precision numbers needs no rounding, and neither does the difference of two
numbers that are no further apart than the smaller one is large. A whole quotient rounds twice on its
way, but as long as it has fewer than 52 binary digits it ends at the whole part of the exact
quotient. A quotient by an interval is finite if some multiple of the interval, rounded as it may be,
is finite and reaches as far as the dividend.

## Main statements

* `exact_mod`, `exact_sub`: remainders and near differences need no rounding.
* `exact_gap`: two numbers are at least one part in `2 ^ 53` apart.
* `Double.place_fmod`: a remainder is the exact one.
* `Double.wholeQuotient_eq`: a whole quotient below `2 ^ 51` is the exact one.
* `Double.isFinite_div_of_le_mul`: when a quotient is finite.
-/

namespace BrokerLoad

/-! ## §1 Counts that need no rounding -/

/-- A common factor does not change how a quotient is rounded. -/
theorem roundHalfEven_mul_right (num den : Nat) {k : Nat} (hk : 0 < k) :
    roundHalfEven (num * k) (den * k) = roundHalfEven num den := by
  simp only [roundHalfEven, Nat.mul_div_mul_right _ _ hk, Nat.mul_mod_mul_right, ← Nat.mul_assoc,
    Nat.mul_lt_mul_right hk]

/-- A product that is divided by one of its factors again is rounded like the other factor. -/
theorem roundDigits_mul_cancel (num : Nat) {den : Nat} (hden : 0 < den) :
    roundDigits (num * den) den = roundDigits num 1 := by
  rw [roundDigits, roundDigits, Nat.mul_div_cancel _ hden, Nat.div_one, Nat.mul_comm den,
    roundHalfEven_mul_right _ _ hden, Nat.one_mul]

section Counts

variable {m n : Nat}

/-- A count of few digits with zeros behind them. -/
theorem exact_mul_twoPow {digits : Nat} (place : Nat) (h : digits < twoPow 53) :
    twoPow (lastPlace (digits * twoPow place)) ∣ digits * twoPow place := by
  have hless : digits * twoPow place < twoPow (53 + place) := by
    rw [twoPow_add]
    exact Nat.mul_lt_mul_of_pos_right h (twoPow_pos place)
  exact (twoPow_dvd (lastPlace_le_of_lt hless)).trans (Nat.dvd_mul_left _ _)

/-- A count with more zeros behind it. -/
theorem exact_twoPow_mul (k : Nat) (hn : twoPow (lastPlace n) ∣ n) :
    twoPow (lastPlace (twoPow k * n)) ∣ twoPow k * n := by
  obtain ⟨digits, hdigits⟩ := hn
  have hless : digits < twoPow 53 := by
    have htop := div_twoPow_lastPlace_lt n
    rwa [Nat.div_eq_of_eq_mul_right (twoPow_pos _) hdigits] at htop
  have hmore : twoPow k * n = digits * twoPow (k + lastPlace n) := by
    rw [twoPow_add, Nat.mul_comm digits, Nat.mul_assoc, ← hdigits]
  rw [hmore]
  exact exact_mul_twoPow _ hless

/-- A remainder has the last place of one of the two counts, or a higher one. -/
theorem exact_mod (hm : twoPow (lastPlace m) ∣ m) (hn : twoPow (lastPlace n) ∣ n) :
    twoPow (lastPlace (m % n)) ∣ m % n := by
  rcases Nat.eq_zero_or_pos n with rfl | hpos
  · rwa [Nat.mod_zero]
  rcases Nat.le_total (lastPlace m) (lastPlace n) with hle | hle
  · have hdvd : twoPow (lastPlace m) ∣ m % n :=
      (Nat.dvd_mod_iff ((twoPow_dvd hle).trans hn)).mpr hm
    exact (twoPow_dvd (lastPlace_mono (Nat.mod_le m n))).trans hdvd
  · have hdvd : twoPow (lastPlace n) ∣ m % n :=
      (Nat.dvd_mod_iff hn).mpr ((twoPow_dvd hle).trans hm)
    exact (twoPow_dvd (lastPlace_mono (Nat.mod_lt m hpos).le)).trans hdvd

/-- A difference that is no larger than the smaller count has the last place of that one. -/
theorem exact_sub (hm : twoPow (lastPlace m) ∣ m) (hn : twoPow (lastPlace n) ∣ n) (hle : m ≤ n)
    (hnear : n ≤ 2 * m) : twoPow (lastPlace (n - m)) ∣ n - m := by
  have hdvd : twoPow (lastPlace m) ∣ n - m :=
    Nat.dvd_sub ((twoPow_dvd (lastPlace_mono hle)).trans hn) hm
  exact (twoPow_dvd (lastPlace_mono (by omega))).trans hdvd

/-- Two counts are at least one part in `2 ^ 53` of the larger one apart. -/
theorem exact_gap (hm : twoPow (lastPlace m) ∣ m) (hn : twoPow (lastPlace n) ∣ n) (h : m < n) :
    n + 2 ^ 53 * m ≤ 2 ^ 53 * n := by
  have hlast : twoPow (lastPlace m) ≤ n - m :=
    Nat.le_of_dvd (by omega) (Nat.dvd_sub ((twoPow_dvd (lastPlace_mono h.le)).trans hn) hm)
  have hdigits : m / twoPow (lastPlace m) + 1 ≤ 2 ^ 53 := div_twoPow_lastPlace_lt m
  have hm : m = m / twoPow (lastPlace m) * twoPow (lastPlace m) := (Nat.div_mul_cancel hm).symm
  have hroom : m + twoPow (lastPlace m) ≤ 2 ^ 53 * twoPow (lastPlace m) := by
    calc m + twoPow (lastPlace m) = (m / twoPow (lastPlace m) + 1) * twoPow (lastPlace m) := by
          rw [Nat.add_mul, ← hm, Nat.one_mul]
      _ ≤ 2 ^ 53 * twoPow (lastPlace m) := Nat.mul_le_mul_right _ hdigits
  omega

end Counts

/-! ## §2 A rounded quotient near a whole number -/

/-- A quarter of one. -/
theorem unitsPerOne_eq : unitsPerOne = 4 * twoPow 1072 := by
  have hfour : twoPow 2 = 4 := rfl
  rw [← hfour, ← twoPow_add, unitsPerOne]

/-- A multiple of a count, rounded and divided by the count again, is at most a quarter off. -/
theorem quotient_near {den n : Nat} (hden : 0 < den) (hn : n < 2 ^ 51) :
    n * unitsPerOne ≤
        roundDigits (roundDigits (den * n) 1 * unitsPerOne) den + twoPow 1072 ∧
      roundDigits (roundDigits (den * n) 1 * unitsPerOne) den ≤
        n * unitsPerOne + twoPow 1072 := by
  obtain ⟨habove, hbelow⟩ := roundDigits_one_near (den * n)
  set rounded := roundDigits (den * n) 1
  have hsmall : den * n ≤ den * 2 ^ 51 := Nat.mul_le_mul_left _ hn.le
  have hfew : 4 * n + 1 < twoPow 53 := by
    have htwo : twoPow 53 = 2 ^ 53 := rfl
    omega
  -- a whole number of quarters needs no rounding
  have hquarters : ∀ k, k < twoPow 53 →
      roundDigits (k * twoPow 1072 * den) den = k * twoPow 1072 :=
    fun k hk => roundDigits_mul hden (exact_mul_twoPow 1072 hk)
  have hnum : rounded * unitsPerOne = 4 * rounded * twoPow 1072 := by
    rw [unitsPerOne_eq, Nat.mul_left_comm, Nat.mul_assoc]
  have hlow : (4 * n - 1) * twoPow 1072 ≤ roundDigits (rounded * unitsPerOne) den := by
    rw [hnum, ← hquarters (4 * n - 1) (by omega)]
    refine roundDigits_mono den ?_
    rw [Nat.mul_right_comm (4 * n - 1)]
    refine Nat.mul_le_mul_right _ ?_
    rw [Nat.sub_mul, Nat.mul_assoc, Nat.mul_comm n]
    omega
  have hhigh : roundDigits (rounded * unitsPerOne) den ≤ (4 * n + 1) * twoPow 1072 := by
    rw [hnum, ← hquarters (4 * n + 1) hfew]
    refine roundDigits_mono den ?_
    rw [Nat.mul_right_comm (4 * n + 1)]
    refine Nat.mul_le_mul_right _ ?_
    rw [Nat.add_mul, Nat.mul_assoc, Nat.mul_comm n]
    omega
  have hwhole : n * unitsPerOne = 4 * n * twoPow 1072 := by
    rw [unitsPerOne_eq, Nat.mul_left_comm, Nat.mul_assoc]
  rw [Nat.sub_mul] at hlow
  rw [Nat.add_mul] at hhigh
  omega

namespace Double

/-- The nearest place of a count. -/
theorem nearest_natCast (n : Nat) : nearest n = (min (roundDigits n 1) unitsOverflow : Nat) := by
  rw [nearest, if_neg (Int.not_lt.mpr (Int.natCast_nonneg n)), Int.natAbs_natCast]

/-- A count that needs no rounding is its own nearest place. -/
theorem nearest_of_exact {n : Nat} (hexact : twoPow (lastPlace n) ∣ n) (hn : n ≤ unitsOverflow) :
    nearest n = n := by
  rw [nearest_natCast, roundDigits_one hexact, Nat.min_eq_left hn]

variable {x y : Double}

/-- The place of a number that is not negative, as a count that needs no rounding. -/
theorem exact_place (hx : x.isFinite = true) (hx0 : 0 ≤ x.place) :
    twoPow (lastPlace x.place.toNat) ∣ x.place.toNat ∧
      x.place.toNat + twoPow 2045 ≤ twoPow 2098 := by
  cases x with
  | finite s m =>
    rw [← (units_eq hx0).1]
    exact ⟨m.exact, m.units_le⟩
  | _ => cases hx

/-- A remainder is the exact one. -/
theorem place_fmod (hx : x.isFinite = true) (hx0 : 0 ≤ x.place) (hy : y.isFinite = true)
    (hy0 : 0 < y.place) : (fmod x y).place = x.place % y.place := by
  have hexact := exact_mod (exact_place hx hx0).1 (exact_place hy hy0.le).1
  have hbound := (exact_place hx hx0).2
  have hmod := Nat.mod_le x.place.toNat y.place.toNat
  have htop : unitsOverflow = twoPow 2098 := rfl
  have hcast : ((x.place.toNat % y.place.toNat : Nat) : Int) = x.place % y.place := by
    rw [Int.natCast_mod, Int.toNat_of_nonneg hx0, Int.toNat_of_nonneg hy0.le]
  have hplace : (fmod x y).place = nearest (x.place.toNat % y.place.toNat : Nat) := by
    cases x with
    | finite s m =>
      cases y with
      | finite t n =>
        obtain ⟨hm, hs⟩ := units_eq hx0
        obtain ⟨hn, -⟩ := units_eq hy0.le
        rw [fmod, if_neg (by omega), place_ofUnits, ← hm, ← hn]
        cases s with
        | false => rfl
        | true => rw [hs rfl, Nat.zero_mod]; rfl
      | _ => cases hy
    | _ => cases hx
  rw [hplace, nearest_of_exact hexact (by omega), hcast]

/-! ## §3 Whole quotients -/

/-- A count of few digits with zeros behind them is its own nearest place. -/
theorem nearest_mul_twoPow {digits place : Nat} (h : digits < twoPow 53) (hplace : place ≤ 2045) :
    nearest (digits * twoPow place : Nat) = (digits * twoPow place : Nat) := by
  refine nearest_of_exact (exact_mul_twoPow place h) ?_
  calc digits * twoPow place ≤ twoPow 53 * twoPow place := Nat.mul_le_mul_right _ h.le
    _ = twoPow (53 + place) := (twoPow_add 53 place).symm
    _ ≤ unitsOverflow := twoPow_le (by omega)

/-- A whole number of few digits is its own nearest place. -/
theorem nearest_whole {n : Nat} (h : n < 2 ^ 53) : nearest (n * unitsPerOne) = n * unitsPerOne := by
  rw [← Int.natCast_mul, unitsPerOne]
  exact nearest_mul_twoPow h (by decide)

/-- The whole number at or below a number between it and the next one. -/
theorem place_floor (hx : x.isFinite = true) {n : Nat} (hn : n < 2 ^ 53)
    (hle : n * unitsPerOne ≤ x.place) (hlt : x.place < n * unitsPerOne + unitsPerOne) :
    x.floor.place = n * unitsPerOne := by
  have hone : (0 : Int) < unitsPerOne := Int.natCast_pos.mpr unitsPerOne_pos
  have hwhole : Int.fdiv x.place unitsPerOne = n := by
    have hnext : x.place < (n + 1) * unitsPerOne := by
      rw [Int.add_mul, Int.one_mul]
      exact hlt
    rw [Int.fdiv_eq_ediv_of_nonneg _ hone.le]
    exact Int.le_antisymm (Int.lt_add_one_iff.mp (Int.ediv_lt_of_lt_mul hone hnext))
      (Int.le_ediv_of_mul_le hone hle)
  cases x with
  | finite s m => rw [floor, place_ofUnits, ← place_finite, hwhole, nearest_whole hn]
  | _ => cases hx

/-- A number that is at most a quarter away from a whole one is corrected to that. -/
theorem place_corrected (hx : x.isFinite = true) {n : Nat} (hn0 : 0 < n) (hn : n < 2 ^ 53)
    (hbelow : n * unitsPerOne ≤ x.place + twoPow 1072)
    (habove : x.place ≤ n * unitsPerOne + twoPow 1072) :
    (if (ofUnits false (twoPow 1073)).lt (x - x.floor) then x.floor + 1 else x.floor).place =
      n * unitsPerOne := by
  have hquarter : (0 : Int) < twoPow 1072 := Int.natCast_pos.mpr (twoPow_pos 1072)
  have hone : (unitsPerOne : Int) = 4 * twoPow 1072 := by rw [unitsPerOne_eq, Int.natCast_mul]; rfl
  have hquarters : ∀ k : Nat, k < twoPow 53 → nearest (k * twoPow 1072) = k * twoPow 1072 :=
    fun k hk => Int.natCast_mul k _ ▸ nearest_mul_twoPow hk (by decide)
  have hhalf : (ofUnits false (twoPow 1073)).place = 2 * twoPow 1072 := by
    have htwo : twoPow 1 = 2 := rfl
    rw [place_ofUnits, nearest_twoPow (by decide), twoPow_add 1 1072, htwo, Int.natCast_mul]
    rfl
  have hwhole0 : (unitsPerOne : Int) ≤ n * unitsPerOne :=
    le_mul_of_one_le_left (Int.natCast_nonneg _) (by omega)
  have hx0 : 0 ≤ x.place := by omega
  obtain ⟨hfinite, -, -⟩ := floor_le hx hx0
  obtain ⟨hne, hsub⟩ := place_sub hx hfinite
  rcases Int.lt_or_le x.place (n * unitsPerOne) with hless | hmore
  · -- the floor is one too low, and the rest is at least three quarters
    obtain ⟨k, rfl⟩ : ∃ k, n = k + 1 := ⟨n - 1, by omega⟩
    rw [Int.natCast_add, Int.natCast_one, Int.add_mul, Int.one_mul] at *
    have hfloor := place_floor hx (n := k) (by omega) (by omega) (by omega)
    have hrest : 3 * twoPow 1072 ≤ (x - x.floor).place := by
      rw [hsub, hfloor]
      exact (hquarters 3 (by decide)).ge.trans (nearest_mono (by push_cast; omega))
    rw [if_pos (lt_iff.mpr ⟨ofUnits_ne_nan _ _, hne, by omega⟩),
      (place_add hfinite place_one.1).2, place_one.2, hfloor]
    have hnearest := nearest_whole hn
    push_cast at hnearest
    rwa [Int.add_mul, Int.one_mul] at hnearest
  · -- the floor is the whole number, and the rest is at most one quarter
    have hfloor := place_floor hx hn hmore (by omega)
    have hrest : (x - x.floor).place ≤ 2 * twoPow 1072 := by
      rw [hsub, hfloor]
      exact (nearest_mono (by push_cast; omega)).trans (hquarters 2 (by decide)).le
    rw [if_neg fun hlt => ?_, hfloor]
    have hmore := (lt_iff.mp hlt).2.2
    omega

/-- A number that is not at zero is none of the two zeros. -/
theorem isZero_eq_false (h : x.place ≠ 0) : x.isZero = false := by
  cases x with
  | finite s m =>
    refine beq_eq_false_iff_ne.mpr fun hzero => h ?_
    rw [place_finite, signedUnits, hzero]
    cases s <;> rfl
  | _ => rfl

/-- Without its remainder a number has a quotient that is at most a quarter away from the whole part
of the exact one. -/
theorem quotient_close (hx : x.isFinite = true) (hx0 : 0 ≤ x.place) (hy : y.isFinite = true)
    (hy0 : 0 < y.place) {n : Nat} (hn : x.place / y.place = n) (hless : n < 2 ^ 51) :
    n * unitsPerOne ≤ ((x - fmod x y) / y).place + twoPow 1072 ∧
      ((x - fmod x y) / y).place ≤ n * unitsPerOne + twoPow 1072 := by
  obtain ⟨hrest, hrest0, hrestx⟩ := fmod_le hx hx0 hy hy0
  obtain ⟨hne, hsub⟩ := place_sub hx hrest
  obtain ⟨hexact, hbound⟩ := exact_place hx hx0
  have hden : 0 < y.place.toNat := by omega
  have htop : unitsOverflow = twoPow 2098 := rfl
  -- what is divided is a multiple of the divisor, rounded
  have hmultiple : x.place - (fmod x y).place = (y.place.toNat * n : Nat) := by
    have hparts := Int.emod_add_mul_ediv x.place y.place
    rw [place_fmod hx hx0 hy hy0, Int.natCast_mul, Int.toNat_of_nonneg hy0.le, ← hn]
    omega
  have hle : roundDigits (y.place.toNat * n) 1 ≤ x.place.toNat := by
    rw [← roundDigits_one hexact]
    exact roundDigits_mono 1 (by omega)
  have hrounded : (x - fmod x y).place = (roundDigits (y.place.toNat * n) 1 : Nat) := by
    rw [hsub, hmultiple, nearest_natCast, Nat.min_eq_left (by omega)]
  have hfinite := isFinite_of_le hne (hrounded ▸ Int.natCast_nonneg _) hx (by omega)
  obtain ⟨-, hdiv⟩ := place_div hfinite hy (hrounded ▸ Int.natCast_nonneg _) hy0
  rw [hrounded, Int.toNat_natCast] at hdiv
  obtain ⟨hlow, hhigh⟩ := quotient_near hden hless
  have hroom : n * unitsPerOne + twoPow 1072 ≤ unitsOverflow := by
    calc n * unitsPerOne + twoPow 1072 ≤ (n + 1) * unitsPerOne := by
          rw [Nat.add_mul, Nat.one_mul]
          exact Nat.add_le_add_left (twoPow_le (by decide)) _
      _ ≤ twoPow 51 * unitsPerOne := Nat.mul_le_mul_right _ hless
      _ = twoPow 1125 := by rw [unitsPerOne, ← twoPow_add]
      _ ≤ unitsOverflow := twoPow_le (by decide)
  rw [hdiv, Nat.min_eq_left (by omega)]
  constructor
  · exact_mod_cast hlow
  · exact_mod_cast hhigh

/-- A whole quotient below `2 ^ 51` is the whole part of the exact one. -/
theorem wholeQuotient_eq (hx : x.isFinite = true) (hx0 : 0 ≤ x.place) (hy : y.isFinite = true)
    (hy0 : 0 < y.place) (hshort : x.place < 2 ^ 51 * y.place) :
    Seconds.wholeQuotient x y = .ok (x.place / y.place) := by
  rcases Int.lt_or_le x.place y.place with hless | hmore
  · rw [wholeQuotient_of_lt hx hx0 hy hless, Int.ediv_eq_zero_of_lt hx0 hless]
  · obtain ⟨n, hn⟩ := Int.eq_ofNat_of_zero_le (Int.ediv_nonneg hx0 hy0.le)
    have hone : 1 ≤ x.place / y.place := Int.le_ediv_of_mul_le hy0 (by omega)
    have hfew : x.place / y.place < 2 ^ 51 := Int.ediv_lt_of_lt_mul hy0 hshort
    have hquotient : (x / y).isFinite = true :=
      isFinite_div hx hx0 hy hy0 (j := 51) (by decide) hshort.le
    obtain ⟨hlow, hhigh⟩ := quotient_close hx hx0 hy hy0 hn (by omega)
    obtain ⟨hq, -, -⟩ := quotient_le hx hx0 hy hy0 hquotient
    obtain ⟨hfinite, h0⟩ := floorDiv_finite hx hx0 hy hy0 hquotient
    have hplace := place_corrected hq (n := n) (by omega) (by omega) hlow hhigh
    have hone' : (unitsPerOne : Int) ≤ n * unitsPerOne :=
      le_mul_of_one_le_left (Int.natCast_nonneg _) (by omega)
    have hquarter : twoPow 1072 < unitsPerOne := twoPow_lt (by decide)
    have hnonzero : ((x - fmod x y) / y).isZero = false := isZero_eq_false (by omega)
    have hwhole : Seconds.wholeQuotient x y = .ok ((floorDiv x y).place / unitsPerOne) :=
      toInt_eq hfinite h0
    rw [hwhole, floorDiv_eq hx hx0 hy hy0, if_neg (by rw [hnonzero]; exact Bool.false_ne_true),
      hplace, hn, Int.mul_ediv_cancel _ (Int.natCast_ne_zero.mpr unitsPerOne_pos.ne')]

/-! ## §4 Finite quotients -/

section Reach

variable {a b c : Nat}

/-- The largest finite count and one last place more. -/
theorem unitsOverflow_eq_mul : unitsOverflow = 2 ^ 53 * twoPow 2045 := by
  rw [show (2 : Nat) ^ 53 = twoPow 53 from rfl, ← twoPow_add, unitsOverflow]

theorem unitsPerOne_mul_eq (b : Nat) :
    unitsPerOne * (twoPow 1024 * b) = 2 ^ 53 * (twoPow 2045 * b) := by
  rw [← Nat.mul_assoc, ← Nat.mul_assoc, ← unitsOverflow_eq_mul, unitsPerOne, ← twoPow_add,
    unitsOverflow]

/-- A rounded multiple of an interval does not reach the interval taken `2 ^ 1024` times. -/
theorem roundDigits_mul_lt (hb : 0 < b) (hc : c + twoPow 2045 ≤ unitsOverflow) :
    roundDigits (c * b) unitsPerOne < twoPow 1024 * b := by
  by_contra hreach
  obtain ⟨hnear, -⟩ := roundHalfEven_near (c * b)
    (Nat.mul_pos unitsPerOne_pos (twoPow_pos (lastPlace (c * b / unitsPerOne))))
  have hsmall := lastPlace_small (c * b) unitsPerOne
  set place := lastPlace (c * b / unitsPerOne) with hplace
  have hbeyond : unitsPerOne * (twoPow 1024 * b) ≤ unitsPerOne * twoPow place *
      roundHalfEven (c * b) (unitsPerOne * twoPow place) := by
    rw [Nat.mul_assoc, Nat.mul_comm (twoPow place), hplace, ← roundDigits]
    exact Nat.mul_le_mul_left _ (Nat.not_lt.mp hreach)
  have hlarge : unitsPerOne * 2 ^ 53 ≤ unitsPerOne * (twoPow 1024 * b) := by
    refine Nat.mul_le_mul_left _ (Nat.le_trans ?_ (Nat.le_mul_of_pos_right _ hb))
    exact twoPow_le (m := 53) (by decide)
  -- the exact multiple lies below by one part in `2 ^ 53`
  have hbelow : 2 ^ 53 * (c * b) + unitsPerOne * (twoPow 1024 * b) ≤
      2 ^ 53 * (unitsPerOne * (twoPow 1024 * b)) := by
    have hroom : c * b + twoPow 2045 * b ≤ 2 ^ 53 * (twoPow 2045 * b) := by
      rw [← Nat.add_mul, ← Nat.mul_assoc, ← unitsOverflow_eq_mul]
      exact Nat.mul_le_mul_right _ hc
    have htop := unitsPerOne_mul_eq b
    omega
  have hpos := unitsPerOne_pos
  rcases hsmall with hzero | hsmall
  · rw [hzero, show twoPow 0 = 1 from rfl, Nat.mul_one] at hnear hbeyond
    omega
  · rw [show twoPow 52 = 2 ^ 52 from rfl] at hsmall
    omega

/-- A count that a rounded multiple of an interval reaches has a finite quotient by the interval. -/
theorem roundDigits_lt_of_le_mul (hb : 0 < b) (ha : twoPow (lastPlace a) ∣ a)
    (hexact : twoPow (lastPlace b) ∣ b) (hc : c + twoPow 2045 ≤ unitsOverflow)
    (hle : a ≤ roundDigits (c * b) unitsPerOne) :
    roundDigits (a * unitsPerOne) b < unitsOverflow := by
  have hless : a < twoPow 1024 * b := hle.trans_lt (roundDigits_mul_lt hb hc)
  have hgap := exact_gap ha (exact_twoPow_mul 1024 hexact) hless
  have hlargest : a * unitsPerOne ≤ (2 ^ 53 - 1) * twoPow 2045 * b := by
    have htop := unitsPerOne_mul_eq b
    have hscaled : unitsPerOne * (twoPow 1024 * b) + 2 ^ 53 * (unitsPerOne * a) ≤
        2 ^ 53 * (unitsPerOne * (twoPow 1024 * b)) := by
      rw [Nat.mul_left_comm (2 ^ 53) _ a, Nat.mul_left_comm (2 ^ 53) unitsPerOne, ← Nat.mul_add]
      exact Nat.mul_le_mul_left _ hgap
    rw [Nat.mul_assoc, Nat.sub_mul, Nat.one_mul, Nat.mul_comm a]
    omega
  calc roundDigits (a * unitsPerOne) b ≤ roundDigits ((2 ^ 53 - 1) * twoPow 2045 * b) b :=
        roundDigits_mono b hlargest
    _ = (2 ^ 53 - 1) * twoPow 2045 := roundDigits_mul hb (exact_mul_twoPow 2045 (by decide))
    _ < unitsOverflow := by
      rw [unitsOverflow_eq_mul]
      exact Nat.mul_lt_mul_of_pos_right (by decide) (twoPow_pos 2045)

end Reach

/-- A quotient is finite if a finite multiple of the divisor reaches the dividend. -/
theorem isFinite_div_of_le_mul {factor : Double} (hx : x.isFinite = true) (hx0 : 0 ≤ x.place)
    (hy : y.isFinite = true) (hy0 : 0 < y.place) (hfactor : factor.isFinite = true)
    (hfactor0 : 0 ≤ factor.place) (hle : x.place ≤ (factor * y).place) :
    (x / y).isFinite = true := by
  obtain ⟨-, hmul⟩ := place_mul hfactor hy hfactor0 hy0.le
  obtain ⟨hne, hdiv⟩ := place_div hx hy hx0 hy0
  have hreach : x.place.toNat ≤
      roundDigits (factor.place.toNat * y.place.toNat) unitsPerOne := by omega
  have hless := roundDigits_lt_of_le_mul (by omega) (exact_place hx hx0).1 (exact_place hy hy0.le).1
    (exact_place hfactor hfactor0).2 hreach
  have hpos := unitsOverflow_pos
  refine (isFinite_iff hne).mpr ?_
  rw [hdiv]
  omega

end Double

end BrokerLoad
