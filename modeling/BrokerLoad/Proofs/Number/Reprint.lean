import BrokerLoad.Proofs.Number.Nearness
import BrokerLoad.Proofs.Number.Written

/-!
# Numbers with some places, printed again

A number that is written with some decimal places is rounded to a grid of decimals, and what is read
back is that decimal, rounded to a grid of binary numbers. If the binary grid is the finer one there,
the number that is read is nearer to the decimal than to any other. If it is the coarser one, the
number that is read is the one that was written, or a power of two that lies between that one and the
decimal. So the number that is read is printed as the same decimal again.

## Main statements

* `roundHalfEven_roundDigits`: a decimal that was rounded to 53 binary digits rounds back to itself.
* `Double.read_fixed_again`: a number with some places reads back as one with the same text.
-/

namespace BrokerLoad

/-! ## §1 Two grids -/

section Grids

variable {u scale n : Nat}

/-- The decimal `n / scale` is nearest to the number that it is read as, if the binary grid around
it is no coarser than that of the decimals. -/
theorem roundHalfEven_of_fine (hscale : 0 < scale)
    (hfine : scale * twoPow (lastPlace (n * unitsPerOne / scale)) ≤ unitsPerOne) :
    roundHalfEven (roundDigits (n * unitsPerOne) scale * scale) unitsPerOne = n := by
  set grid := scale * twoPow (lastPlace (n * unitsPerOne / scale)) with hgrid
  have hread : roundDigits (n * unitsPerOne) scale * scale =
      grid * roundHalfEven (n * unitsPerOne) grid := by
    rw [roundDigits, ← hgrid, Nat.mul_assoc, Nat.mul_comm (twoPow _), Nat.mul_comm]
  rcases Nat.lt_or_eq_of_le hfine with hless | heq
  · obtain ⟨habove, hbelow⟩ :=
      roundHalfEven_near (n * unitsPerOne) (Nat.mul_pos hscale (twoPow_pos _))
    rw [← hgrid] at habove hbelow
    rw [Nat.mul_comm n] at habove hbelow hread ⊢
    rw [hread]
    exact roundHalfEven_eq unitsPerOne_pos (by omega) (by omega)
  · -- every decimal is a binary number
    rw [hread, heq, roundHalfEven_mul n unitsPerOne_pos, Nat.mul_comm,
      roundHalfEven_mul n unitsPerOne_pos]

/-- If the binary grid is the coarser one, a decimal that was written for a number `u` is read as
that number, or as a power of two between the number and the decimal. -/
theorem roundDigits_of_coarse (hexact : twoPow (lastPlace u) ∣ u)
    (hcoarse : unitsPerOne < scale * twoPow (lastPlace (n * unitsPerOne / scale)))
    (habove : 2 * (unitsPerOne * n) ≤ 2 * (u * scale) + unitsPerOne)
    (hbelow : 2 * (u * scale) ≤ 2 * (unitsPerOne * n) + unitsPerOne) :
    roundDigits (n * unitsPerOne) scale = u ∨
      u < roundDigits (n * unitsPerOne) scale ∧
        roundDigits (n * unitsPerOne) scale * scale ≤ unitsPerOne * n := by
  rw [Nat.mul_comm n] at hcoarse ⊢
  set place := lastPlace (unitsPerOne * n / scale) with hplace
  have hgrid : 0 < scale * twoPow place := Nat.zero_lt_of_lt hcoarse
  by_cases hdvd : twoPow place ∣ u
  · -- the number lies on the grid, at most half a decimal away
    obtain ⟨digits, rfl⟩ := hdvd
    have hnumber : twoPow place * digits * scale = scale * twoPow place * digits := by
      rw [Nat.mul_comm, Nat.mul_assoc]
    left
    rw [roundDigits, ← hplace, roundHalfEven_eq hgrid (n := digits) (by omega) (by omega),
      Nat.mul_comm]
  · -- the number belongs to a finer grid, which ends at a power of two
    have hfiner : lastPlace u < place := by
      by_contra hsame
      exact hdvd ((twoPow_dvd (Nat.not_lt.mp hsame)).trans hexact)
    have hless : u < twoPow (52 + place) := by
      have hdigits := div_twoPow_lastPlace_lt u
      rw [Nat.div_lt_iff_lt_mul (twoPow_pos _), ← twoPow_add] at hdigits
      exact hdigits.trans_le (twoPow_le (by omega))
    have hmore : twoPow 52 * (scale * twoPow place) ≤ unitsPerOne * n :=
      (lastPlace_small _ _).resolve_left (by omega)
    have hpower : twoPow (52 + place) * scale = scale * twoPow place * twoPow 52 := by
      rw [twoPow_add, Nat.mul_comm, Nat.mul_comm (twoPow 52), Nat.mul_assoc]
    have hbetween : u * scale ≤ twoPow (52 + place) * scale := Nat.mul_le_mul_right _ hless.le
    rw [Nat.mul_comm (twoPow 52)] at hmore
    have hread : roundDigits (unitsPerOne * n) scale = twoPow (52 + place) := by
      rw [roundDigits, ← hplace,
        roundHalfEven_eq hgrid (n := twoPow 52) (by omega) (by omega), twoPow_add]
    right
    rw [hread, hpower]
    exact ⟨hless, hmore⟩

/-- A decimal that was written for a number and rounded to 53 binary digits rounds back to
itself. -/
theorem roundHalfEven_roundDigits (hscale : 0 < scale) (hexact : twoPow (lastPlace u) ∣ u) :
    roundHalfEven
        (roundDigits (roundHalfEven (u * scale) unitsPerOne * unitsPerOne) scale * scale)
        unitsPerOne = roundHalfEven (u * scale) unitsPerOne := by
  obtain ⟨habove, hbelow⟩ := roundHalfEven_near (u * scale) unitsPerOne_pos
  set n := roundHalfEven (u * scale) unitsPerOne with hn
  rcases Nat.lt_or_ge unitsPerOne (scale * twoPow (lastPlace (n * unitsPerOne / scale))) with
    hcoarse | hfine
  · rcases roundDigits_of_coarse hexact hcoarse habove hbelow with hsame | ⟨hmore, hless⟩
    · rw [hsame, ← hn]
    · have hnumber := Nat.mul_lt_mul_of_pos_right hmore hscale
      have hpos := unitsPerOne_pos
      exact roundHalfEven_eq hpos (by omega) (by omega)
  · exact roundHalfEven_of_fine hscale hfine

end Grids

/-! ## §2 Numbers with some places -/

/-- What a decimal with some places is read as, when it is neither very long nor very large. -/
theorem Double.ofDecimal_places (negative : Bool) {digits places : Nat} (hplaces : places < 400)
    (hdigits : digits < tenPow (400 + places)) :
    ofDecimal negative digits (-((places + 1 : Nat) : Int)) =
      ofRatio negative (digits * unitsPerOne) (tenPow (places + 1)) := by
  by_cases hzero : digits = 0
  · have hnone : ∀ den, 0 < den → roundDigits 0 den = 0 := fun den => roundDigits_zero
    subst hzero
    rw [ofDecimal, if_pos (.inl rfl), zero, ofUnits, if_pos rfl, Nat.zero_mul]
    simp only [ofRatio, Int.natAbs_zero, hnone _ (tenPow_pos _), hnone 1 Nat.one_pos]
  · have hlength : 0 < decimalLength digits ∧ decimalLength digits ≤ 400 + places := by
      rw [decimalLength, if_neg hzero]
      exact ⟨Nat.length_toDigits_pos, Nat.toDigits_length 10 _ _ (by omega) hdigits⟩
    have htop : ¬ (digits = 0 ∨
        (decimalLength digits : Int) + -((places + 1 : Nat) : Int) < -400) := by omega
    have hbottom : ¬ 400 < (decimalLength digits : Int) + -((places + 1 : Nat) : Int) := by omega
    have hsign : ¬ (0 : Int) ≤ -((places + 1 : Nat) : Int) := by omega
    have hexponent : (- -((places + 1 : Nat) : Int)).toNat = places + 1 := by omega
    simp only [ofDecimal, htop, hbottom, hsign, hexponent, if_false]

namespace Magnitude

variable (m : Magnitude) {scale : Nat}

/-- The decimal that is written for a magnitude is not read as an infinite one. -/
theorem roundDigits_lt (hscale : 0 < scale) :
    roundDigits (roundHalfEven (m.units * scale) unitsPerOne * unitsPerOne) scale <
      unitsOverflow := by
  have hsame := roundHalfEven_roundDigits hscale m.exact
  obtain ⟨hwritten, -⟩ := roundHalfEven_near (m.units * scale) unitsPerOne_pos
  set n := roundHalfEven (m.units * scale) unitsPerOne
  obtain ⟨-, hread⟩ := roundHalfEven_near (roundDigits (n * unitsPerOne) scale * scale)
    unitsPerOne_pos
  rw [hsame] at hread
  have hone : unitsPerOne ≤ unitsPerOne * scale := Nat.le_mul_of_pos_right _ hscale
  have hle : roundDigits (n * unitsPerOne) scale ≤ m.units + unitsPerOne := by
    refine Nat.le_of_mul_le_mul_right ?_ hscale
    rw [Nat.add_mul]
    omega
  have hless : unitsPerOne < twoPow 2045 := twoPow_lt (by decide)
  have hlargest := m.units_le
  have htop : unitsOverflow = twoPow 2098 := rfl
  omega

/-- With some places a magnitude has few digits in front of them. -/
theorem roundHalfEven_lt (places : Nat) :
    roundHalfEven (m.units * tenPow (places + 1)) unitsPerOne < tenPow (400 + places) := by
  have hunits : m.units < twoPow 1024 * unitsPerOne := by
    rw [unitsPerOne, ← twoPow_add]
    exact m.bounded
  have hwhole : m.units * tenPow (places + 1) / unitsPerOne < twoPow 1024 * tenPow (places + 1) := by
    rw [Nat.div_lt_iff_lt_mul unitsPerOne_pos, Nat.mul_right_comm]
    exact Nat.mul_lt_mul_of_pos_right hunits (tenPow_pos _)
  have htop : twoPow 1024 < tenPow 399 := by decide +kernel
  calc roundHalfEven (m.units * tenPow (places + 1)) unitsPerOne
      ≤ m.units * tenPow (places + 1) / unitsPerOne + 1 := roundHalfEven_le _ _
    _ ≤ twoPow 1024 * tenPow (places + 1) := hwhole
    _ < tenPow 399 * tenPow (places + 1) := Nat.mul_lt_mul_of_pos_right htop (tenPow_pos _)
    _ = tenPow (400 + places) := by
      rw [← tenPow_add]
      congr 1
      omega

end Magnitude

/-- What is written with some places depends only on the decimal. -/
theorem fixedPlaces_congr {places num num' den : Nat}
    (h : roundHalfEven (num * tenPow places) den = roundHalfEven (num' * tenPow places) den) :
    fixedPlaces places num den = fixedPlaces places num' den := by
  unfold fixedPlaces
  rw [h]

/-- A finite number with some places reads back as a number with the same text. -/
theorem Double.fixedChars_ofReading {places : Nat} (hplaces : places < 400) (s : Bool)
    (m : Magnitude) :
    (Double.ofReading (.decimal s (roundHalfEven (m.units * tenPow (places + 1)) unitsPerOne)
      (-((places + 1 : Nat) : Int)))).fixedChars (places + 1) =
        (Double.finite s m).fixedChars (places + 1) := by
  have hten := tenPow_pos (places + 1)
  rw [ofReading, ofDecimal_places s hplaces (m.roundHalfEven_lt places), ofRatio,
    dif_pos (m.roundDigits_lt hten), fixedChars, fixedChars]
  exact congrArg _ (fixedPlaces_congr (roundHalfEven_roundDigits hten m.exact))

/-- A number with some places reads back as a number with the same text. -/
theorem Double.read_fixed_again {places : Nat} (hplaces : places < 400) (x : Double) :
    ∃ y : Double, Seconds.read (Seconds.fixed (places + 1) x) = .ok y ∧
      Seconds.fixed (places + 1) y = Seconds.fixed (places + 1) x := by
  have hread : ∃ reading, readReal (x.fixedChars (places + 1)) = some reading ∧
      (Double.ofReading reading).fixedChars (places + 1) = x.fixedChars (places + 1) := by
    cases x with
    | nan => exact ⟨.nan, rfl, rfl⟩
    | infinite s => exact ⟨.infinite s, by cases s <;> rfl, rfl⟩
    | finite s m => exact ⟨_, readReal_fixedChars places s m, fixedChars_ofReading hplaces s m⟩
  obtain ⟨reading, hreading, hagain⟩ := hread
  exact ⟨_, read_fixed_of_readReal hreading, congrArg String.ofList hagain⟩

end BrokerLoad
