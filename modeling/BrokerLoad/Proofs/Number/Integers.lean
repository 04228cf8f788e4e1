import BrokerLoad.Proofs.Number.Numerals
import BrokerLoad.Proofs.Text.Lines
import Mathlib.Tactic.Ring

/-!
# Integers as text

An integer is written with the ten digits of one script, and these stand in numerals, as those of
every other script do. So what was written is a numeral, as long as it is no longer than numerals
may be, and is read back.

## Main statements

* `digitsValue_decimalDigits`: the digits of a number denote it.
* `integerNumeral_integerChars`: an integer is written as a numeral.
* `readIntegerChars_integerChars`, `readInteger_integerText`: an integer reads back from its text.
-/

namespace BrokerLoad

/-! ## §1 Digits -/

/-- The ten digits have their values. -/
theorem decimalValue?_of_isDigit {c : Char} (hc : c.isDigit = true) :
    decimalValue? c = some (c.toNat - 48) := by
  have hrange : 48 ≤ c.toNat ∧ c.toNat < 58 := by
    simp only [Char.isDigit, Bool.and_eq_true, decide_eq_true_eq] at hc
    exact ⟨hc.1, Nat.lt_succ_of_le hc.2⟩
  simp [decimalValue?, zeroPoints, hrange]

theorem isDecimalDigit_of_isDigit {c : Char} (hc : c.isDigit = true) : isDecimalDigit c = true := by
  rw [isDecimalDigit, decimalValue?_of_isDigit hc]
  rfl

/-- No digit is a blank. -/
theorem isBlank_of_isDigit {c : Char} (hc : c.isDigit = true) : isBlank c = false := by
  simp only [Char.isDigit, Bool.and_eq_true, decide_eq_true_eq] at hc
  have hrange : 48 ≤ c.toNat ∧ c.toNat < 58 := ⟨hc.1, Nat.lt_succ_of_le hc.2⟩
  simp only [isBlank, Bool.or_eq_false_iff, decide_eq_false_iff_not, beq_eq_false_iff_ne]
  omega

theorem isNumeralBlank_of_isDigit {c : Char} (hc : c.isDigit = true) :
    isNumeralBlank c = false := by
  rw [isNumeralBlank, isBlank_of_isDigit hc, Bool.false_and]

theorem ne_of_isDigit {c d : Char} (hc : c.isDigit = true) (hd : d.isDigit = false) : c ≠ d := by
  rintro rfl
  rw [hc] at hd
  cases hd

theorem isDigit_of_mem_decimalDigits {n : Nat} {c : Char} (hc : c ∈ decimalDigits n) :
    c.isDigit = true :=
  Nat.isDigit_of_mem_toDigits (by decide) (by decide) hc

theorem decimalDigits_ne_nil (n : Nat) : decimalDigits n ≠ [] := Nat.toDigits_ne_nil

/-- The first digit of a number, and the others. -/
theorem exists_decimalDigits (n : Nat) :
    ∃ c rest, decimalDigits n = c :: rest ∧ c.isDigit = true := by
  cases h : decimalDigits n with
  | nil => exact absurd h (decimalDigits_ne_nil n)
  | cons c rest =>
    refine ⟨c, rest, rfl, isDigit_of_mem_decimalDigits (n := n) ?_⟩
    rw [h]
    exact List.mem_cons_self

/-- Digits that follow others are the lower places of their number. -/
theorem foldl_decimalValue? {digits : List Char} (h : ∀ c ∈ digits, c.isDigit = true)
    (start : Nat) :
    (digits.filterMap decimalValue?).foldl (fun n d => 10 * n + d) start =
      start * tenPow digits.length + digitsValue digits := by
  unfold digitsValue
  induction digits generalizing start with
  | nil => simp [tenPow]
  | cons c rest ih =>
    obtain ⟨hc, hrest⟩ := List.forall_mem_cons.mp h
    have hplaces : tenPow (c :: rest).length = tenPow rest.length * 10 := Nat.pow_succ 10 _
    simp only [List.filterMap_cons_some (decimalValue?_of_isDigit hc), List.foldl_cons]
    rw [ih hrest, ih hrest (10 * 0 + _), hplaces]
    ring

theorem digitsValue_append (front : List Char) {digits : List Char}
    (h : ∀ c ∈ digits, c.isDigit = true) :
    digitsValue (front ++ digits) =
      digitsValue front * tenPow digits.length + digitsValue digits := by
  rw [digitsValue, List.filterMap_append, List.foldl_append, foldl_decimalValue? h]
  rfl

/-- The digits of a number denote it. -/
theorem digitsValue_decimalDigits (n : Nat) : digitsValue (decimalDigits n) = n := by
  have hvalues : ∀ digits : List Char, (∀ c ∈ digits, c.isDigit = true) → ∀ start,
      (digits.filterMap decimalValue?).foldl (fun n d => 10 * n + d) start =
        Nat.ofDigitChars 10 digits start := by
    intro digits
    induction digits with
    | nil => intro _ start; rfl
    | cons c rest ih =>
      intro hdigits start
      rw [List.filterMap_cons_some (decimalValue?_of_isDigit (hdigits c List.mem_cons_self)),
        List.foldl_cons, Nat.ofDigitChars_cons]
      exact ih (fun d hd => hdigits d (List.mem_cons_of_mem c hd)) _
  rw [digitsValue, hvalues _ (fun c => isDigit_of_mem_decimalDigits)]
  exact Nat.ofDigitChars_ten_toDigits

/-! ## §2 Numerals -/

theorem length_decimalDigits_of_isWritable {n : Int} (hn : isWritable n = true) :
    (decimalDigits n.natAbs).length ≤ maxIntegerDigits := by
  by_cases hzero : n.natAbs = 0
  · rw [hzero]
    decide
  · have h := of_decide_eq_true hn
    rwa [Double.decimalLength, if_neg hzero] at h

/-- An integer is written as a numeral that denotes it. -/
theorem integerNumeral_integerChars {n : Int} (hn : isWritable n = true) :
    IntegerNumeral (integerChars n) n := by
  have hdigits : ∀ c ∈ decimalDigits n.natAbs, isDecimalDigit c = true :=
    fun c hc => isDecimalDigit_of_isDigit (isDigit_of_mem_decimalDigits hc)
  have hsign : Sign (signText (decide (n < 0))) (decide (n < 0)) := by
    cases decide (n < 0) with
    | true => exact .minus
    | false => exact .none
  have hvalue : signedValue (decide (n < 0)) (decimalDigits n.natAbs) = n := by
    simp only [signedValue, digitsValue_decimalDigits, decide_eq_true_eq]
    split <;> omega
  have hnumeral :=
    IntegerNumeral.digits (decimalDigits_ne_nil _) hdigits
      (length_decimalDigits_of_isWritable hn) hsign
  rwa [hvalue] at hnumeral

/-- An integer reads back from its characters. -/
theorem readIntegerChars_integerChars {n : Int} (hn : isWritable n = true) :
    readIntegerChars (integerChars n) = .ok n :=
  readIntegerChars_of_numeral (integerNumeral_integerChars hn)

/-- An integer reads back from its text. -/
theorem readInteger_integerText {n : Int} (hn : isWritable n = true) :
    readInteger (integerText n) = .ok n := by
  rw [readInteger, integerText, String.toList_ofList, readIntegerChars_integerChars hn]

end BrokerLoad
