import BrokerLoad.Number.Shortest
import BrokerLoad.Proofs.Number.Places

/-!
# How numbers are written

Numbers are written with digits and a few marks. The digits of an integer are as many as its
magnitude asks for, and a double-precision number has a bounded magnitude, so its shortest decimal
cannot be long. The bounds are coarse: they are there to show that a written number fits into a field
of a table.

## Main definitions

* `IsNumberChar`: the characters of written numbers.

## Main statements

* `isNumberChar_of_mem_integerChars`, `Double.isNumberChar_of_mem_chars`: there are no others.
* `length_integerChars`, `Double.length_chars`: how long a written number can be.
* `isWritable_of_readInteger`: an integer that was read can be written.
-/

namespace BrokerLoad

/-! ## §1 Characters -/

/-- The characters of written numbers: digits, the marks of decimals, and the letters of infinity and
not-a-number. -/
def IsNumberChar (c : Char) : Prop := c.isDigit = true ∨ c ∈ ['-', '+', '.', 'e', 'i', 'n', 'f', 'a']

theorem isNumberChar_of_mem_decimalDigits {n : Nat} {c : Char} (hc : c ∈ decimalDigits n) :
    IsNumberChar c := .inl (isDigit_of_mem_decimalDigits hc)

theorem isNumberChar_of_mem_signText {negative : Bool} {c : Char} (hc : c ∈ signText negative) :
    IsNumberChar c := by
  cases negative with
  | false => cases hc
  | true =>
    obtain rfl := List.mem_singleton.mp hc
    exact .inr (by decide)

theorem isNumberChar_of_mem_integerChars {n : Int} {c : Char} (hc : c ∈ integerChars n) :
    IsNumberChar c := by
  rcases List.mem_append.mp hc with hc | hc
  · exact isNumberChar_of_mem_signText hc
  · exact isNumberChar_of_mem_decimalDigits hc

/-- The text of an exponent is a sign and digits. -/
theorem isNumberChar_of_mem_exponentText (e : Int) :
    ∀ c ∈ exponentText e, IsNumberChar c := by
  have hdigits : ∀ c ∈ decimalDigits e.natAbs, IsNumberChar c := fun c =>
    isNumberChar_of_mem_decimalDigits
  refine List.forall_mem_cons.mpr ⟨?_, ?_⟩
  · split <;> exact .inr (by decide)
  · split
    · exact List.forall_mem_cons.mpr ⟨.inl rfl, hdigits⟩
    · exact hdigits

theorem Decimal.isNumberChar_of_mem_text {d : Decimal} {c : Char} (hc : c ∈ d.text) :
    IsNumberChar c := by
  have hdigits : ∀ c ∈ decimalDigits d.digits, IsNumberChar c := fun c =>
    isNumberChar_of_mem_decimalDigits
  have hzero : IsNumberChar '0' := .inl rfl
  have hpoint : IsNumberChar '.' := .inr (by decide)
  have hletter : IsNumberChar 'e' := .inr (by decide)
  have hexponent :=
    isNumberChar_of_mem_exponentText ((decimalDigits d.digits).length + d.exponent - 1)
  revert c
  show ∀ c ∈ d.text, IsNumberChar c
  unfold Decimal.text
  dsimp only
  split
  · split
    · simp only [List.forall_mem_cons, List.forall_mem_append]
      exact ⟨hzero, hpoint, fun c hc => (List.eq_of_mem_replicate hc) ▸ hzero, hdigits⟩
    · split
      · simp only [List.forall_mem_append, List.forall_mem_cons]
        exact ⟨⟨hdigits, fun c hc => (List.eq_of_mem_replicate hc) ▸ hzero⟩, hpoint, hzero,
          fun c hc => absurd hc List.not_mem_nil⟩
      · simp only [List.forall_mem_append, List.forall_mem_cons]
        exact ⟨fun c hc => hdigits c (List.mem_of_mem_take hc), hpoint,
          fun c hc => hdigits c (List.mem_of_mem_drop hc)⟩
  · simp only [List.forall_mem_append, List.forall_mem_cons]
    refine ⟨⟨fun c hc => hdigits c (List.mem_of_mem_take hc), ?_⟩, hletter, hexponent⟩
    split
    · exact fun c hc => absurd hc List.not_mem_nil
    · exact List.forall_mem_cons.mpr ⟨hpoint, fun c hc => hdigits c (List.mem_of_mem_drop hc)⟩

/-- Only digits and marks stand in the text of a number. -/
theorem Double.isNumberChar_of_mem_chars {x : Double} {c : Char} (hc : c ∈ x.chars) :
    IsNumberChar c := by
  cases x with
  | nan =>
    have hletters : ['n', 'a', 'n'] ⊆ ['-', '+', '.', 'e', 'i', 'n', 'f', 'a'] := by decide
    exact .inr (hletters hc)
  | infinite s =>
    have hletters : ['i', 'n', 'f'] ⊆ ['-', '+', '.', 'e', 'i', 'n', 'f', 'a'] := by decide
    rcases List.mem_append.mp hc with hc | hc
    · exact isNumberChar_of_mem_signText hc
    · exact .inr (hletters hc)
  | finite s m =>
    rcases List.mem_append.mp hc with hc | hc
    · exact isNumberChar_of_mem_signText hc
    · exact Decimal.isNumberChar_of_mem_text hc

/-! ## §2 Lengths -/

theorem tenPow_eq (n : Nat) : tenPow n = 10 ^ n := rfl

theorem tenPow_le {m n : Nat} (h : m ≤ n) : tenPow m ≤ tenPow n :=
  Nat.pow_le_pow_right (by decide) h

theorem tenPow_lt {m n : Nat} (h : m < n) : tenPow m < tenPow n :=
  Nat.pow_lt_pow_right (by decide) h

theorem tenPow_add (m n : Nat) : tenPow (m + n) = tenPow m * tenPow n := Nat.pow_add 10 m n

theorem twoPow_le_tenPow (n : Nat) : twoPow n ≤ tenPow n := twoPow_le_pow_ten (Nat.le_refl n)

/-- A number below a power of ten has as many digits as its exponent, at most. -/
theorem length_decimalDigits {n k : Nat} (hk : 0 < k) (h : n < tenPow k) :
    (decimalDigits n).length ≤ k :=
  Nat.toDigits_length 10 n k hk h

theorem length_signText (negative : Bool) : (signText negative).length ≤ 1 := by
  cases negative <;> decide

theorem length_integerChars {n : Int} (hn : isWritable n = true) :
    (integerChars n).length ≤ maxIntegerDigits + 1 := by
  have hdigits := length_decimalDigits_of_isWritable hn
  have hsign := length_signText (decide (n < 0))
  rw [integerChars, List.length_append]
  omega

theorem length_exponentText {e : Int} (he : e.natAbs < tenPow 5) : (exponentText e).length ≤ 6 := by
  have hdigits := length_decimalDigits (by decide) he
  unfold exponentText
  simp only [List.length_cons]
  split
  · rw [List.length_cons]
    omega
  · omega

/-- A decimal with few digits and a small exponent is short. -/
theorem Decimal.length_text {d : Decimal} {k : Nat} (hk : 0 < k) (hdigits : d.digits < tenPow k)
    (hexponent : k + d.exponent.natAbs < 10 ^ 4) : d.text.length ≤ k + 20 := by
  have hlength := length_decimalDigits hk hdigits
  have htail : (exponentText ((decimalDigits d.digits).length + d.exponent - 1)).length ≤ 6 :=
    length_exponentText (Nat.lt_trans (by omega) (show 10 ^ 4 + 10 ^ 4 < tenPow 5 by decide))
  unfold Decimal.text
  dsimp only
  -- the zeros that a positional text adds are few, as its point is not far from its digits
  split
  · split
    · simp only [List.length_cons, List.length_append, List.length_replicate]
      omega
    · split
      · simp only [List.length_cons, List.length_append, List.length_replicate, List.length_nil]
        omega
      · simp only [List.length_cons, List.length_append, List.length_take, List.length_drop]
        omega
  · simp only [List.length_cons, List.length_append, List.length_take]
    split
    · simp only [List.length_nil]
      omega
    · simp only [List.length_cons, List.length_drop]
      omega

/-! ## §3 Integers that were read -/

/-- Decimal digits denote a number below the power of ten that their count gives. -/
theorem digitsValue_lt (digits : List Char) : digitsValue digits < tenPow digits.length := by
  have hvalues : ∀ values : List Nat, (∀ d ∈ values, d < 10) → ∀ start,
      values.foldl (fun n d => 10 * n + d) start + 1 ≤ (start + 1) * tenPow values.length := by
    intro values
    induction values with
    | nil => intro _ start; simp [tenPow]
    | cons d values ih =>
      intro hall start
      obtain ⟨hd, hvalues⟩ := List.forall_mem_cons.mp hall
      calc values.foldl (fun n d => 10 * n + d) (10 * start + d) + 1
          ≤ (10 * start + d + 1) * tenPow values.length := ih hvalues _
        _ ≤ (start + 1) * 10 * tenPow values.length := Nat.mul_le_mul_right _ (by omega)
        _ = (start + 1) * tenPow (values.length + 1) := by
          rw [Nat.mul_assoc, Nat.add_comm values.length, tenPow_add]
          rfl
  have hbound := hvalues (digits.filterMap decimalValue?) (fun d hd => by
    obtain ⟨c, _, hc⟩ := List.mem_filterMap.mp hd
    exact decimalValue?_lt hc) 0
  have hfewer : tenPow (digits.filterMap decimalValue?).length ≤ tenPow digits.length :=
    tenPow_le (List.length_filterMap_le ..)
  rw [digitsValue]
  omega

/-- A number with few enough digits can be written. -/
theorem isWritable_of_lt {n : Int} {k : Nat} (hk : k ≤ maxIntegerDigits)
    (h : n.natAbs < tenPow k) : isWritable n = true := by
  refine decide_eq_true ?_
  unfold Double.decimalLength
  split
  · exact Nat.zero_le _
  · exact length_decimalDigits (by decide) (Nat.lt_of_lt_of_le h (tenPow_le hk))

theorem lt_of_isWritable {n : Int} (h : isWritable n = true) :
    n.natAbs < tenPow maxIntegerDigits := by
  have hvalue := digitsValue_lt (decimalDigits n.natAbs)
  rw [digitsValue_decimalDigits] at hvalue
  exact Nat.lt_of_lt_of_le hvalue (tenPow_le (length_decimalDigits_of_isWritable h))

/-- A smaller number than one that can be written can be written too. -/
theorem isWritable_of_le {m n : Int} (h : m.natAbs ≤ n.natAbs) (hn : isWritable n = true) :
    isWritable m = true :=
  isWritable_of_lt (Nat.le_refl _) (Nat.lt_of_le_of_lt h (lt_of_isWritable hn))

/-- An integer that was read can be written. -/
theorem isWritable_of_readInteger {text : String} {n : Int} (h : readInteger text = .ok n) :
    isWritable n = true := by
  unfold readInteger readIntegerChars at h
  dsimp only at h
  split at h
  · cases h
  · next digits _ =>
    split at h
    · cases h
    · next hshort =>
      split at h
      · obtain rfl := Except.ok.inj h
        refine isWritable_of_lt (Nat.le_of_not_lt hshort) ?_
        have hvalue := digitsValue_lt digits
        split <;> simpa using hvalue
      · cases h

/-! ## §4 The shortest decimal -/

/-- The zeros that are stripped off go into the exponent. -/
theorem Decimal.stripZeros_bounds (fuel : Nat) (d : Decimal) :
    (stripZeros fuel d).digits ≤ d.digits ∧ d.exponent ≤ (stripZeros fuel d).exponent ∧
      (stripZeros fuel d).exponent ≤ d.exponent + fuel := by
  induction fuel generalizing d with
  | zero => exact ⟨Nat.le_refl _, Int.le_refl _, by simp [stripZeros]⟩
  | succ fuel ih =>
    unfold stripZeros
    split
    · obtain ⟨hdigits, hlow, hhigh⟩ := ih ⟨d.digits / 10, d.exponent + 1⟩
      refine ⟨Nat.le_trans hdigits (Nat.div_le_self ..), ?_, ?_⟩
      · exact Int.le_trans (by simp) hlow
      · refine Int.le_trans hhigh ?_
        push_cast
        omega
    · exact ⟨Nat.le_refl _, Int.le_refl _, by omega⟩

namespace Magnitude

theorem decimalBelow_digits (m : Magnitude) {e : Int} {k : Nat} (he : -e ≤ k) :
    (m.decimalBelow e).digits ≤ m.units * tenPow k := by
  refine Nat.le_trans (Nat.div_le_self ..) (Nat.mul_le_mul_left _ (tenPow_le ?_))
  omega

/-- The search goes to finer grids step by step. -/
theorem searchShortest_bounds (m : Magnitude) (fuel : Nat) (e : Int) {k : Nat}
    (hk : fuel - e ≤ k) :
    (m.searchShortest fuel e).digits ≤ m.units * tenPow k + 1 ∧
      e - fuel ≤ (m.searchShortest fuel e).exponent ∧
      (m.searchShortest fuel e).exponent ≤ e := by
  induction fuel generalizing e with
  | zero =>
    refine ⟨Nat.le_succ_of_le (m.decimalBelow_digits (by simpa using hk)), ?_, ?_⟩ <;>
      simp [searchShortest, decimalBelow]
  | succ fuel ih =>
    have hbelow : (m.decimalBelow e).digits ≤ m.units * tenPow k :=
      m.decimalBelow_digits (by push_cast at hk; omega)
    have hlow : e - (fuel + 1 : Nat) ≤ e := by omega
    -- a hit on this grid, or the search goes on
    unfold searchShortest
    dsimp only
    split
    · split
      · exact ⟨Nat.succ_le_succ hbelow, hlow, Int.le_refl e⟩
      · exact ⟨Nat.le_succ_of_le hbelow, hlow, Int.le_refl e⟩
    · exact ⟨Nat.le_succ_of_le hbelow, hlow, Int.le_refl e⟩
    · exact ⟨Nat.succ_le_succ hbelow, hlow, Int.le_refl e⟩
    · obtain ⟨hdigits, hlow, hhigh⟩ := ih (e - 1) (by push_cast at hk; omega)
      exact ⟨hdigits, by push_cast; omega, by omega⟩

/-- A decimal power that lies above every magnitude. -/
theorem units_lt (m : Magnitude) : m.units < tenPow 2098 :=
  Nat.lt_of_lt_of_le m.bounded (twoPow_le_tenPow 2098)

theorem units_mul_lt (m : Magnitude) (k : Nat) : m.units * tenPow k < tenPow (2098 + k) := by
  rw [tenPow_add]
  exact Nat.mul_lt_mul_of_pos_right m.units_lt (tenPow_pos k)

theorem decimalTop_bounds (m : Magnitude) : -330 ≤ m.decimalTop ∧ m.decimalTop ≤ 2098 := by
  have hlength : Double.decimalLength (m.units * tenPow 330 / unitsPerOne) ≤ 2428 := by
    have hscaled : m.units * tenPow 330 / unitsPerOne < tenPow 2428 :=
      Nat.lt_of_le_of_lt (Nat.div_le_self ..) (m.units_mul_lt 330)
    unfold Double.decimalLength
    split
    · exact Nat.zero_le _
    · exact length_decimalDigits (by decide) hscaled
  unfold decimalTop
  omega

/-- The shortest decimal has a bounded number of digits and a bounded exponent. -/
theorem shortest_bounds (m : Magnitude) :
    m.shortest.digits < tenPow 2448 ∧ m.shortest.exponent.natAbs ≤ 2200 := by
  obtain ⟨hbottom, htop⟩ := m.decimalTop_bounds
  unfold shortest
  split
  · exact ⟨tenPow_pos 2448, by decide⟩
  · obtain ⟨hdigits, hlow, hhigh⟩ :=
      m.searchShortest_bounds 18 (m.decimalTop - 1) (k := 349) (by push_cast; omega)
    obtain ⟨hstripped, hlow', hhigh'⟩ :=
      Decimal.stripZeros_bounds 20 (m.searchShortest 18 (m.decimalTop - 1))
    refine ⟨?_, by push_cast at *; omega⟩
    calc (Decimal.stripZeros 20 (m.searchShortest 18 (m.decimalTop - 1))).digits
        ≤ m.units * tenPow 349 + 1 := Nat.le_trans hstripped hdigits
      _ ≤ tenPow 2447 := m.units_mul_lt 349
      _ < tenPow 2448 := tenPow_lt (by decide)

end Magnitude

/-- How long the text of a double-precision number can be. -/
theorem Double.length_chars (x : Double) : x.chars.length ≤ 2469 := by
  cases x with
  | nan => decide
  | infinite s => cases s <;> decide
  | finite s m =>
    obtain ⟨hdigits, hexponent⟩ := m.shortest_bounds
    have htext := Decimal.length_text (by decide) hdigits (by omega)
    have hsign := length_signText s
    rw [Double.chars, List.length_append]
    omega

end BrokerLoad
