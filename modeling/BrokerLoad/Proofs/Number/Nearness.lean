import BrokerLoad.Proofs.Number.Quotient

/-!
# How near a rounded number is

A rounded count is at most half of its last place away from the exact one, and that is at most one
part in `2 ^ 53` of it. From this follows how far every result is off that a schedule computes: a
multiple of its interval, a deadline, and the whole quotient that says which deadline is due. A time
that is much larger than what is added to it stays where it is.

## Main statements

* `roundHalfEven_near`, `roundDigits_near`: the error of rounding a quotient.
* `Double.nearest_le_add`: the error of rounding a count.
* `Double.nearest_add_of_small`: what is small beside a number does not move it.
* `Double.times_le`, `Double.wholeQuotient_le`: the errors of multiples and of whole quotients.
-/

namespace BrokerLoad

/-! ## §1 Half of the last place -/

/-- The nearest natural number is at most a half away from the quotient. -/
theorem roundHalfEven_near (num : Nat) {den : Nat} (hden : 0 < den) :
    2 * (den * roundHalfEven num den) ≤ 2 * num + den ∧
      2 * num ≤ 2 * (den * roundHalfEven num den) + den := by
  have hnum := Nat.div_add_mod num den
  have hparity : num / den % 2 ≤ 1 := Nat.le_of_lt_succ (Nat.mod_lt _ (by decide))
  have hround : roundHalfEven num den = num / den ∧ 2 * (num % den) ≤ den ∨
      roundHalfEven num den = num / den + 1 ∧ den ≤ 2 * (num % den) ∧ num % den ≤ den := by
    unfold roundHalfEven
    split
    · next hless => exact .inl ⟨rfl, hless.le⟩
    · split
      · next hmore =>
        exact .inr ⟨rfl, hmore.le, (Nat.mod_lt _ hden).le⟩
      · rcases Nat.le_one_iff_eq_zero_or_eq_one.mp hparity with heven | hodd
        · exact .inl ⟨by rw [heven, Nat.add_zero], by omega⟩
        · exact .inr ⟨by rw [hodd], by omega, by omega⟩
  rcases hround with ⟨hround, hrest⟩ | ⟨hround, hrest, hless⟩
  · rw [hround]
    omega
  · rw [hround, Nat.mul_add, Nat.mul_one]
    omega

/-- What is less than half away from a multiple is rounded to it. -/
theorem roundHalfEven_eq {num den n : Nat} (hden : 0 < den) (hmore : 2 * num < 2 * (den * n) + den)
    (hless : 2 * (den * n) < 2 * num + den) : roundHalfEven num den = n := by
  obtain ⟨habove, hbelow⟩ := roundHalfEven_near num hden
  have hle : roundHalfEven num den < n + 1 := by
    refine Nat.lt_of_mul_lt_mul_left (a := den) ?_
    rw [Nat.mul_add, Nat.mul_one]
    omega
  have hge : n < roundHalfEven num den + 1 := by
    refine Nat.lt_of_mul_lt_mul_left (a := den) ?_
    rw [Nat.mul_add, Nat.mul_one]
    omega
  omega

/-- The last place of a whole quotient is small beside the quotient, or it is one. -/
theorem lastPlace_small (num den : Nat) :
    lastPlace (num / den) = 0 ∨ twoPow 52 * (den * twoPow (lastPlace (num / den))) ≤ num := by
  by_cases hzero : lastPlace (num / den) = 0
  · exact .inl hzero
  · right
    have hne : num / den ≠ 0 := by
      intro hnone
      rw [hnone] at hzero
      exact hzero (by decide)
    have hlog : (num / den).log2 = 52 + lastPlace (num / den) := by
      unfold lastPlace at hzero ⊢
      omega
    have htop := Nat.log2_self_le hne
    rw [hlog] at htop
    calc twoPow 52 * (den * twoPow (lastPlace (num / den)))
        = den * twoPow (52 + lastPlace (num / den)) := by
          rw [twoPow_add, Nat.mul_left_comm]
      _ ≤ den * (num / den) := Nat.mul_le_mul_left _ htop
      _ ≤ num := Nat.mul_div_le num den

/-- A rounded quotient is at most one part in `2 ^ 53` above the exact one, or half a unit. -/
theorem roundDigits_near (num : Nat) {den : Nat} (hden : 0 < den) :
    2 ^ 53 * (den * roundDigits num den) ≤ (2 ^ 53 + 1) * num + 2 ^ 52 * den := by
  obtain ⟨hnear, -⟩ :=
    roundHalfEven_near num (Nat.mul_pos hden (twoPow_pos (lastPlace (num / den))))
  have hplace : den * roundDigits num den =
      den * twoPow (lastPlace (num / den)) *
        roundHalfEven num (den * twoPow (lastPlace (num / den))) := by
    rw [roundDigits, Nat.mul_comm (roundHalfEven _ _), Nat.mul_assoc]
  have htwo : twoPow 52 = 2 ^ 52 := rfl
  rw [hplace]
  rcases lastPlace_small num den with hzero | hsmall
  · rw [hzero, show twoPow 0 = 1 from rfl, Nat.mul_one] at hnear ⊢
    omega
  · rw [htwo] at hsmall
    omega

/-- A rounded count is at most one part in `2 ^ 53` off. -/
theorem roundDigits_one_near (num : Nat) :
    2 ^ 53 * roundDigits num 1 ≤ (2 ^ 53 + 1) * num ∧
      2 ^ 53 * num ≤ 2 ^ 53 * roundDigits num 1 + num := by
  have hplace : roundDigits num 1 =
      twoPow (lastPlace num) * roundHalfEven num (twoPow (lastPlace num)) := by
    rw [roundDigits, Nat.div_one, Nat.one_mul, Nat.mul_comm]
  have htwo : twoPow 52 = 2 ^ 52 := rfl
  have hsmall := lastPlace_small num 1
  rw [Nat.div_one, Nat.one_mul, htwo] at hsmall
  rcases hsmall with hzero | hsmall
  · have hexact : roundDigits num 1 = num := roundDigits_one (by rw [hzero]; exact Nat.one_dvd num)
    rw [hexact]
    omega
  · obtain ⟨habove, hbelow⟩ := roundHalfEven_near num (twoPow_pos (lastPlace num))
    rw [hplace]
    omega

/-- A count is rounded to a multiple of its last place that it is near to. -/
theorem roundDigits_of_near {num n : Nat} (hdvd : twoPow (lastPlace num) ∣ n)
    (hmore : 2 * num < 2 * n + twoPow (lastPlace num))
    (hless : 2 * n < 2 * num + twoPow (lastPlace num)) : roundDigits num 1 = n := by
  obtain ⟨digits, rfl⟩ := hdvd
  rw [roundDigits, Nat.div_one, Nat.one_mul, roundHalfEven_eq (twoPow_pos _) hmore hless,
    Nat.mul_comm]

/-- Where at least half of a count is left, the last place goes down by one at most. -/
theorem lastPlace_le_succ {n num : Nat} (h : n ≤ 2 * num) : lastPlace n ≤ lastPlace num + 1 := by
  by_cases hn : n = 0
  · subst hn
    exact Nat.zero_le _
  · have hlog : n.log2 ≤ num.log2 + 1 := by
      have htop : n < 2 * 2 ^ (num.log2 + 1) :=
        Nat.lt_of_le_of_lt h (Nat.mul_lt_mul_of_pos_left Nat.lt_log2_self (by decide))
      rw [← Nat.pow_succ', ← Nat.log2_lt hn] at htop
      omega
    unfold lastPlace
    omega

/-- Beside a count that needs no rounding, what is small is rounded away. -/
theorem roundDigits_beside {n num t : Nat} (hexact : twoPow (lastPlace n) ∣ n) (hle : n ≤ num + t)
    (hge : num ≤ n + t) (hsmall : 2 ^ 56 * t < n) : roundDigits num 1 = n := by
  have hdigits : n < 2 ^ 53 * twoPow (lastPlace n) :=
    (Nat.div_lt_iff_lt_mul (twoPow_pos _)).mp (div_twoPow_lastPlace_lt n)
  rcases Nat.le_total n num with hmore | hless
  · -- the sum has the same last place, because there is room for one unit of it
    have hroom : n + twoPow (lastPlace n) ≤ 2 ^ 53 * twoPow (lastPlace n) := by
      obtain ⟨digits, hn⟩ := hexact
      have hless : digits < 2 ^ 53 := by
        refine Nat.lt_of_mul_lt_mul_left (a := twoPow (lastPlace n)) ?_
        rw [← hn, Nat.mul_comm]
        exact hdigits
      calc n + twoPow (lastPlace n) = twoPow (lastPlace n) * (digits + 1) := by
            rw [Nat.mul_add, Nat.mul_one, ← hn]
        _ ≤ twoPow (lastPlace n) * 2 ^ 53 := Nat.mul_le_mul_left _ hless
        _ = 2 ^ 53 * twoPow (lastPlace n) := Nat.mul_comm _ _
    have hplace : lastPlace num = lastPlace n := by
      refine Nat.le_antisymm (lastPlace_le_of_lt ?_) (lastPlace_mono hmore)
      rw [twoPow_add, show twoPow 53 = 2 ^ 53 from rfl]
      omega
    refine roundDigits_of_near (by rwa [hplace]) ?_ ?_
    · rw [hplace]
      omega
    · rw [hplace]
      omega
  · have hplace : lastPlace n ≤ lastPlace num + 1 := lastPlace_le_succ (by omega)
    have hdouble : twoPow (lastPlace n) ≤ 2 * twoPow (lastPlace num) := by
      have htop := twoPow_le hplace
      rwa [twoPow_add, Nat.mul_comm] at htop
    refine roundDigits_of_near ((twoPow_dvd (lastPlace_mono hless)).trans hexact) ?_ ?_
    · omega
    · omega

namespace Double

/-! ## §2 Sums and differences -/

/-- A rounded place is at most one part in `2 ^ 53` above the exact one. -/
theorem nearest_le_add {u : Int} (h : -(unitsOverflow : Int) ≤ u) :
    2 ^ 53 * nearest u ≤ 2 ^ 53 * u + |u| := by
  obtain ⟨habove, hbelow⟩ := roundDigits_one_near u.natAbs
  unfold nearest
  generalize unitsOverflow = bound at h ⊢
  split
  · next hneg =>
    rw [abs_of_neg hneg]
    omega
  · next hpos =>
    rw [abs_of_nonneg (Int.not_lt.mp hpos)]
    omega

/-- What is small beside a number does not move it. -/
theorem nearest_add_of_small {x : Double} (hx : x.isFinite = true) {t : Int} (ht : 0 ≤ t)
    (hsmall : 2 ^ 56 * t < |x.place|) : nearest (x.place + t) = x.place := by
  cases x with
  | finite s m =>
    have hbound := m.bounded
    have habs : |(finite s m).place| = m.units := by
      cases s with
      | false => exact Nat.abs_cast _
      | true => exact (abs_neg _).trans (Nat.abs_cast _)
    rw [habs] at hsmall
    have hsum : ((finite s m).place + t).natAbs ≤ m.units + t.toNat ∧
        m.units ≤ ((finite s m).place + t).natAbs + t.toNat := by
      cases s with
      | false => simp only [place_finite, signedUnits]; omega
      | true => simp only [place_finite, signedUnits]; omega
    have hround : roundDigits ((finite s m).place + t).natAbs 1 = m.units :=
      roundDigits_beside m.exact hsum.2 hsum.1 (by omega)
    rw [nearest, hround, Nat.min_eq_left hbound.le]
    cases s with
    | false => exact if_neg (Int.not_lt.mpr (Int.add_nonneg (Int.natCast_nonneg _) ht))
    | true =>
      have hplace : (finite true m).place = -(m.units : Int) := rfl
      rw [hplace]
      exact if_pos (by omega)
  | _ => cases hx

/-! ## §3 Multiples and quotients -/

variable {x y : Double}

/-- A rounded quotient of counts, as an integer. -/
theorem min_roundDigits_near (num : Nat) {den : Nat} (hden : 0 < den) :
    2 ^ 53 * ((den : Int) * (min (roundDigits num den) unitsOverflow : Nat)) ≤
      (2 ^ 53 + 1) * num + 2 ^ 52 * den := by
  have hnear := roundDigits_near num hden
  have hmin : den * min (roundDigits num den) unitsOverflow ≤ den * roundDigits num den :=
    Nat.mul_le_mul_left _ (Nat.min_le_left _ _)
  rw [← Int.natCast_mul]
  omega

/-- A product is hardly more than the exact one. -/
theorem mul_le (hx : x.isFinite = true) (hy : y.isFinite = true) (hx0 : 0 ≤ x.place)
    (hy0 : 0 ≤ y.place) :
    2 ^ 53 * (unitsPerOne * (x * y).place) ≤
      (2 ^ 53 + 1) * (x.place * y.place) + 2 ^ 52 * unitsPerOne := by
  have hnear := min_roundDigits_near (x.place.toNat * y.place.toNat) unitsPerOne_pos
  rwa [Int.natCast_mul, Int.toNat_of_nonneg hx0, Int.toNat_of_nonneg hy0,
    ← (place_mul hx hy hx0 hy0).2] at hnear

/-- A quotient is hardly more than the exact one. -/
theorem div_le (hx : x.isFinite = true) (hy : y.isFinite = true) (hx0 : 0 ≤ x.place)
    (hy0 : 0 < y.place) :
    2 ^ 53 * (y.place * (x / y).place) ≤
      (2 ^ 53 + 1) * (x.place * unitsPerOne) + 2 ^ 52 * y.place := by
  have hnear := min_roundDigits_near (x.place.toNat * unitsPerOne) (show 0 < y.place.toNat by omega)
  rwa [Int.natCast_mul, Int.toNat_of_nonneg hx0, Int.toNat_of_nonneg hy0.le,
    ← (place_div hx hy hx0 hy0).2] at hnear

/-- A multiple of an interval is hardly more than the exact one. -/
theorem times_le (hx : x.isFinite = true) (hx0 : 0 ≤ x.place) {k : Int} (hk : 0 ≤ k) {t : Double}
    (h : Seconds.times k x = .ok t) :
    2 ^ 53 * t.place ≤ (2 ^ 53 + 3) * (k * x.place) + 2 ^ 53 := by
  obtain ⟨y, hy, rfl⟩ := times_eq h
  obtain ⟨hfinite, hplace⟩ := ofInt?_eq hy
  have hone : (0 : Int) < unitsPerOne := Int.natCast_pos.mpr unitsPerOne_pos
  have hk0 : 0 ≤ k * unitsPerOne := Int.mul_nonneg hk hone.le
  have hy0 : 0 ≤ y.place := hplace ▸ nearest_nonneg hk0
  have hindex : 2 ^ 53 * y.place ≤ (2 ^ 53 + 1) * (k * unitsPerOne) := by
    have hnear := nearest_le_add (u := k * unitsPerOne)
      ((Int.neg_nonpos_of_nonneg (Int.natCast_nonneg _)).trans hk0)
    rw [abs_of_nonneg hk0, ← hplace] at hnear
    omega
  have hproduct : 2 ^ 53 * (y.place * x.place) ≤
      (2 ^ 53 + 1) * (unitsPerOne * (k * x.place)) := by
    calc 2 ^ 53 * (y.place * x.place) = 2 ^ 53 * y.place * x.place := by ring
      _ ≤ (2 ^ 53 + 1) * (k * unitsPerOne) * x.place := Int.mul_le_mul_of_nonneg_right hindex hx0
      _ = (2 ^ 53 + 1) * (unitsPerOne * (k * x.place)) := by ring
  have hmul := mul_le hfinite hx hy0 hx0
  have hmultiple : 0 ≤ k * x.place := Int.mul_nonneg hk hx0
  -- both errors together, without the unit
  have hboth : (unitsPerOne : Int) * (2 ^ 106 * (y * x).place) ≤
      unitsPerOne * ((2 ^ 53 + 1) ^ 2 * (k * x.place) + 2 ^ 105) := by
    linarith
  have hless := Int.le_of_mul_le_mul_left hboth hone
  omega

/-- A whole quotient is hardly more than one above the quotient. -/
theorem floorDiv_le (hx : x.isFinite = true) (hx0 : 0 ≤ x.place) (hy : y.isFinite = true)
    (hy0 : 0 < y.place) (hquotient : (x / y).isFinite = true) :
    2 ^ 53 * (floorDiv x y).place ≤ (2 ^ 53 + 1) * ((x / y).place + unitsPerOne) := by
  obtain ⟨hq, hq0, hqle⟩ := quotient_le hx hx0 hy hy0 hquotient
  obtain ⟨hfloor, hfloor0, hfloorq⟩ := floor_le hq hq0
  have hone : (0 : Int) < unitsPerOne := Int.natCast_pos.mpr unitsPerOne_pos
  rw [floorDiv_eq hx hx0 hy hy0]
  generalize (x - fmod x y) / y = quotient at *
  split
  · have hzero : (zero (x / y).negative).place = 0 := by rw [zero, place_ofUnits, nearest_zero]
    rw [hzero]
    omega
  · split
    · obtain ⟨-, hsum⟩ := place_add hfloor place_one.1
      rw [place_one.2] at hsum
      have hpos : 0 ≤ quotient.floor.place + unitsPerOne := Int.add_nonneg hfloor0 hone.le
      have hnear := nearest_le_add
        ((Int.neg_nonpos_of_nonneg (Int.natCast_nonneg unitsOverflow)).trans hpos)
      rw [abs_of_nonneg hpos, ← hsum] at hnear
      omega
    · omega

/-- The whole quotient by an interval, taken as often, is hardly more than two intervals above the
number. -/
theorem wholeQuotient_le (hx : x.isFinite = true) (hx0 : 0 ≤ x.place) (hy : y.isFinite = true)
    (hy0 : 0 < y.place) (hquotient : (x / y).isFinite = true) {n : Int}
    (h : Seconds.wholeQuotient x y = .ok n) :
    2 ^ 53 * (n * y.place) ≤ (2 ^ 53 + 3) * x.place + 2 ^ 54 * y.place := by
  obtain ⟨hfinite, h0⟩ := floorDiv_finite hx hx0 hy hy0 hquotient
  have hone : (0 : Int) < unitsPerOne := Int.natCast_pos.mpr unitsPerOne_pos
  have hn : n = (floorDiv x y).place / unitsPerOne :=
    Except.ok.inj (h.symm.trans (toInt_eq hfinite h0))
  have hwhole : n * unitsPerOne ≤ (floorDiv x y).place := by
    rw [hn]
    exact Int.ediv_mul_le _ hone.ne'
  have hfloor := floorDiv_le hx hx0 hy hy0 hquotient
  have hmany : 2 ^ 53 * (n * unitsPerOne) ≤ (2 ^ 53 + 1) * ((x / y).place + unitsPerOne) := by
    omega
  have htimes := Int.mul_le_mul_of_nonneg_right hmany hy0.le
  have hdiv := div_le hx hy hx0 hy0
  have hunit : y.place ≤ unitsPerOne * y.place := le_mul_of_one_le_left hy0.le hone
  have hboth : (unitsPerOne : Int) * (2 ^ 106 * (n * y.place)) ≤
      unitsPerOne * ((2 ^ 53 + 1) ^ 2 * x.place + (2 ^ 53 + 1) * (2 ^ 53 + 2 ^ 52) * y.place) := by
    linarith
  have hless := Int.le_of_mul_le_mul_left hboth hone
  omega

/-- A quotient is finite unless the interval is all too short. -/
theorem isFinite_div (hx : x.isFinite = true) (hx0 : 0 ≤ x.place) (hy : y.isFinite = true)
    (hy0 : 0 < y.place) {j : Nat} (hj : j < 1024) (h : x.place ≤ twoPow j * y.place) :
    (x / y).isFinite = true := by
  obtain ⟨hne, hquotient⟩ := place_div hx hy hx0 hy0
  have hnum : x.place.toNat * unitsPerOne ≤ twoPow (j + 1074) * y.place.toNat := by
    have htoNat : x.place.toNat ≤ twoPow j * y.place.toNat := by
      rw [← Int.ofNat_le, Int.natCast_mul, Int.toNat_of_nonneg hx0, Int.toNat_of_nonneg hy0.le]
      exact h
    calc x.place.toNat * unitsPerOne ≤ twoPow j * y.place.toNat * unitsPerOne :=
          Nat.mul_le_mul_right _ htoNat
      _ = twoPow (j + 1074) * y.place.toNat := by
        rw [twoPow_add, Nat.mul_right_comm, unitsPerOne]
  have hround : roundDigits (x.place.toNat * unitsPerOne) y.place.toNat ≤ twoPow (j + 1074) := by
    refine (roundDigits_mono _ hnum).trans_eq (roundDigits_mul (by omega) (twoPow_dvd ?_))
    exact lastPlace_le_of_lt (twoPow_lt (by omega))
  have hless : twoPow (j + 1074) < unitsOverflow := twoPow_lt (by omega)
  refine (isFinite_iff hne).mpr ?_
  rw [hquotient]
  constructor
  · have hpos := unitsOverflow_pos
    omega
  · omega

end Double

end BrokerLoad
