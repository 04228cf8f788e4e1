/-!
# Rounding a quotient of natural numbers

`roundHalfEven num den` is the natural number nearest to `num / den`, a half going to the even
neighbour. `roundDigits` keeps 53 binary digits of a quotient instead of its whole part: this is
the rounding of a measured quantity to a binary floating-point number.

## Main statements

* `roundHalfEven_mul`: rounding is exact on multiples of the denominator.
* `twoPow_lastPlace_dvd_roundDigits`: a quotient rounded to 53 digits is a multiple of its last
  place.
-/

namespace BrokerLoad

/-! ## §1 Powers -/

/-- The power of two with exponent `n`. -/
def twoPow (n : Nat) : Nat := Nat.pow 2 n

/-- The power of ten with exponent `n`. -/
def tenPow (n : Nat) : Nat := Nat.pow 10 n

theorem twoPow_pos (n : Nat) : 0 < twoPow n := Nat.two_pow_pos n

theorem tenPow_pos (n : Nat) : 0 < tenPow n := Nat.pow_pos (by decide)

theorem twoPow_add (m n : Nat) : twoPow (m + n) = twoPow m * twoPow n := Nat.pow_add 2 m n

theorem twoPow_le {m n : Nat} (h : m ≤ n) : twoPow m ≤ twoPow n :=
  Nat.pow_le_pow_right (by decide) h

theorem twoPow_lt {m n : Nat} (h : m < n) : twoPow m < twoPow n :=
  Nat.pow_lt_pow_right (by decide) h

theorem twoPow_dvd {m n : Nat} (h : m ≤ n) : twoPow m ∣ twoPow n := Nat.pow_dvd_pow 2 h

/-! ## §2 The nearest natural number -/

/-- The natural number nearest to `num / den`; a half goes to the even neighbour. -/
def roundHalfEven (num den : Nat) : Nat :=
  if 2 * (num % den) < den then num / den
  else if den < 2 * (num % den) then num / den + 1
  else num / den + num / den % 2

/-- The nearest natural number is one of the two neighbours of the quotient. -/
theorem roundHalfEven_le (num den : Nat) : roundHalfEven num den ≤ num / den + 1 := by
  unfold roundHalfEven
  split
  · omega
  · split <;> omega

/-- A multiple of the denominator is met exactly. -/
theorem roundHalfEven_mul (n : Nat) {den : Nat} (h : 0 < den) :
    roundHalfEven (n * den) den = n := by
  unfold roundHalfEven
  rw [Nat.mul_mod_left, Nat.mul_div_cancel n h, if_pos (by omega)]

/-! ## §3 Fifty-three binary digits -/

/-- The exponent of the last of the 53 leading binary digits of `n`; `0` when `n` has no more
than 53 digits. -/
def lastPlace (n : Nat) : Nat := n.log2 - 52

/-- `num / den` rounded to 53 leading binary digits, or to a whole number if that needs fewer. -/
def roundDigits (num den : Nat) : Nat :=
  roundHalfEven num (den * twoPow (lastPlace (num / den))) * twoPow (lastPlace (num / den))

/-- A number below `2 ^ (53 + s)` has its last place at `s` or lower. -/
theorem lastPlace_le_of_lt {n s : Nat} (h : n < twoPow (53 + s)) : lastPlace n ≤ s := by
  unfold lastPlace
  by_cases hn : n = 0
  · subst hn; simp
  · have : n.log2 < 53 + s := (Nat.log2_lt hn).2 h
    omega

/-- Above its last place a number has at most 53 digits. -/
theorem div_twoPow_lastPlace_lt (n : Nat) : n / twoPow (lastPlace n) < twoPow 53 := by
  rw [Nat.div_lt_iff_lt_mul (twoPow_pos _), ← twoPow_add]
  refine Nat.lt_of_lt_of_le (m := twoPow (n.log2 + 1)) Nat.lt_log2_self (twoPow_le ?_)
  unfold lastPlace
  omega

/-- A quotient rounded to 53 digits is a multiple of its own last place. -/
theorem twoPow_lastPlace_dvd_roundDigits (num den : Nat) :
    twoPow (lastPlace (roundDigits num den)) ∣ roundDigits num den := by
  unfold roundDigits
  -- the digits kept are at most `2 ^ 53`, and `2 ^ 53` itself has a last place one higher
  have hle : roundHalfEven num (den * twoPow (lastPlace (num / den))) ≤ twoPow 53 := by
    have hr := roundHalfEven_le num (den * twoPow (lastPlace (num / den)))
    have hq := div_twoPow_lastPlace_lt (num / den)
    rw [Nat.div_div_eq_div_mul] at hq
    omega
  generalize roundHalfEven num (den * twoPow (lastPlace (num / den))) = r at hle
  generalize lastPlace (num / den) = s
  rcases Nat.lt_or_eq_of_le hle with hlt | rfl
  · have hr : r * twoPow s < twoPow (53 + s) := by
      rw [twoPow_add]
      exact Nat.mul_lt_mul_of_pos_right hlt (twoPow_pos s)
    exact Nat.dvd_trans (twoPow_dvd (lastPlace_le_of_lt hr)) (Nat.dvd_mul_left _ _)
  · rw [← twoPow_add]
    refine twoPow_dvd (Nat.le_trans (lastPlace_le_of_lt (s := s + 1) ?_) (by omega))
    exact twoPow_lt (by omega)

end BrokerLoad
