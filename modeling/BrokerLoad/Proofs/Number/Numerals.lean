import BrokerLoad.Number.Numeral
import Mathlib.Data.List.TakeWhile

/-!
# The grammar of integer numerals

An integer numeral is a row of groups of decimal digits with single underscores between them. A sign
may stand in front of it, and blanks around all that. The reader follows this grammar: it skips
blanks, takes a sign off, takes digits and underscores as long as there are any, and accepts only
blanks behind them. No decimal digit is a blank, a sign or an underscore, so every step of the reader
ends where its part of the numeral does.

## Main definitions

* `Sign`, `DigitGroups`, `IntegerNumeral`: the grammar, with the number that is denoted.

## Main statements

* `isDigitLike_plain`: a digit in name is none of the other characters of a numeral.
* `readIntegerChars_eq_ok_iff`: what the reader accepts, and as which number.
-/

namespace BrokerLoad

/-! ## §1 Digits in name -/

/-- The code points of the digits in name. -/
def digitPoints : List Nat :=
  zeroPoints.flatMap (fun z => List.range' z 10) ++
    otherDigitRanges.flatMap fun r => List.range' r.1 (r.2 + 1 - r.1)

theorem mem_digitPoints {c : Char} (h : isDigitLike c = true) : c.toNat ∈ digitPoints := by
  -- a decimal digit lies less than ten above a zero, any other digit in one of the ranges
  rcases Bool.or_eq_true_iff.1 h with hdecimal | hother
  · obtain ⟨n, hn⟩ := Option.isSome_iff_exists.1 hdecimal
    obtain ⟨z, hz, _⟩ := Option.map_eq_some_iff.1 hn
    have hrange := List.find?_some hz
    simp only [decide_eq_true_eq] at hrange
    refine List.mem_append_left _ (List.mem_flatMap.2 ⟨z, List.mem_of_find?_eq_some hz, ?_⟩)
    exact List.mem_range'_1.2 hrange
  · obtain ⟨r, hr, hrange⟩ := List.any_eq_true.1 hother
    simp only [decide_eq_true_eq] at hrange
    refine List.mem_append_right _ (List.mem_flatMap.2 ⟨r, hr, ?_⟩)
    exact List.mem_range'_1.2 (by omega)

/-- A digit in name is neither a blank nor a sign nor an underscore. -/
theorem isDigitLike_plain {c : Char} (h : isDigitLike c = true) :
    isNumeralBlank c = false ∧ c ≠ '-' ∧ c ≠ '+' ∧ c ≠ '_' := by
  -- the digits in name are finitely many, so each of them can be looked at
  have hall : ∀ n ∈ digitPoints, isNumeralBlank (Char.ofNat n) = false ∧ Char.ofNat n ≠ '-' ∧
      Char.ofNat n ≠ '+' ∧ Char.ofNat n ≠ '_' := by decide +kernel
  have hc := hall c.toNat (mem_digitPoints h)
  rwa [Char.ofNat_toNat] at hc

theorem isDecimalDigit_plain {c : Char} (h : isDecimalDigit c = true) :
    isNumeralBlank c = false ∧ c ≠ '-' ∧ c ≠ '+' ∧ c ≠ '_' :=
  isDigitLike_plain (Bool.or_eq_true_iff.2 (.inl h))

/-! ## §2 Groups of digits -/

theorem splitWhere_eq_splitOn (mark : Char) (s : List Char) :
    splitWhere (· == mark) s = s.splitOn mark := by
  induction s with
  | nil => rfl
  | cons c rest ih =>
    rw [splitWhere, ih]
    exact (List.splitOnP_cons_eq_if_modifyHead (p := (· == mark)) c rest).symm

/-- The pieces of a text have no marks, and no characters of their own. -/
theorem of_mem_splitWhere {p : Char → Bool} {s piece : List Char} (h : piece ∈ splitWhere p s) :
    ∀ c ∈ piece, p c = false ∧ c ∈ s := by
  induction s generalizing piece with
  | nil =>
    rw [List.mem_singleton.mp h]
    exact List.forall_mem_nil _
  | cons d rest ih =>
    have hlater : piece ∈ splitWhere p rest → ∀ c ∈ piece, p c = false ∧ c ∈ d :: rest :=
      fun hpiece c hc => (ih hpiece c hc).imp_right (List.mem_cons_of_mem d)
    rw [splitWhere] at h
    split at h
    · rcases List.mem_cons.mp h with rfl | hpiece
      · exact List.forall_mem_nil _
      · exact hlater hpiece
    · next hd =>
      -- the first piece of the rest goes on with this character
      cases hsplit : splitWhere p rest with
      | nil =>
        rw [hsplit] at h
        cases h
      | cons first more =>
        rw [hsplit, List.modifyHead_cons] at h
        rcases List.mem_cons.mp h with rfl | hpiece
        · refine List.forall_mem_cons.mpr ⟨⟨Bool.eq_false_iff.mpr hd, List.mem_cons_self⟩, ?_⟩
          have hfirst : first ∈ splitWhere p rest := hsplit ▸ List.mem_cons_self
          exact fun c hc => (ih hfirst c hc).imp_right (List.mem_cons_of_mem d)
        · exact hlater (hsplit ▸ List.mem_cons_of_mem first hpiece)

theorem mem_intercalate {mark c : Char} {pieces : List (List Char)}
    (h : c ∈ [mark].intercalate pieces) : c = mark ∨ ∃ piece ∈ pieces, c ∈ piece := by
  induction pieces with
  | nil => cases h
  | cons piece rest ih =>
    cases rest with
    | nil =>
      rw [List.intercalate_singleton] at h
      exact .inr ⟨piece, List.mem_cons_self, h⟩
    | cons next more =>
      rw [List.intercalate_cons_cons, List.append_assoc, List.mem_append, List.mem_append,
        List.mem_singleton] at h
      rcases h with hpiece | hmark | hrest
      · exact .inr ⟨piece, List.mem_cons_self, hpiece⟩
      · exact .inl hmark
      · refine (ih hrest).imp_right ?_
        rintro ⟨other, hother, hc⟩
        exact ⟨other, List.mem_cons_of_mem _ hother, hc⟩

/-- One or more groups of at least one decimal digit each. -/
structure DigitGroups (groups : List (List Char)) : Prop where
  ne_nil : groups ≠ []
  digits : ∀ g ∈ groups, g ≠ [] ∧ ∀ c ∈ g, isDecimalDigit c = true

/-- Whether a character may stand in the row of groups. -/
def inGroups (c : Char) : Bool := isDecimalDigit c || c == '_'

variable {groups : List (List Char)}

/-- The groups with underscores between them. -/
def underscored (groups : List (List Char)) : List Char := ['_'].intercalate groups

theorem DigitGroups.inGroups (h : DigitGroups groups) {c : Char} (hc : c ∈ underscored groups) :
    BrokerLoad.inGroups c = true := by
  rcases mem_intercalate hc with rfl | ⟨g, hg, hc⟩
  · rfl
  · exact Bool.or_eq_true_iff.mpr (.inl ((h.digits g hg).2 c hc))

/-- The first of the groups begins with a digit. -/
theorem DigitGroups.exists_cons (h : DigitGroups groups) :
    ∃ c rest, underscored groups = c :: rest ∧ isDecimalDigit c = true := by
  obtain ⟨g, more, rfl⟩ := List.exists_cons_of_ne_nil h.ne_nil
  obtain ⟨hne, hdigits⟩ := h.digits g List.mem_cons_self
  obtain ⟨c, rest, rfl⟩ := List.exists_cons_of_ne_nil hne
  cases more with
  | nil => exact ⟨c, rest, List.intercalate_singleton, hdigits c List.mem_cons_self⟩
  | cons next more =>
    exact ⟨c, _, List.intercalate_cons_cons_left, hdigits c List.mem_cons_self⟩

theorem joinGroups?_underscored (h : DigitGroups groups) :
    joinGroups? (underscored groups) = some groups.flatten := by
  have hplain : ∀ g ∈ groups, '_' ∉ g := by
    intro g hg hmem
    exact (isDecimalDigit_plain ((h.digits g hg).2 '_' hmem)).2.2.2 rfl
  have hfull : ∀ g ∈ groups, (!g.isEmpty) = true := by
    intro g hg
    rw [List.isEmpty_eq_false_iff.mpr (h.digits g hg).1]
    rfl
  simp only [joinGroups?, splitWhere_eq_splitOn, underscored,
    List.splitOn_intercalate '_' hplain h.ne_nil, List.all_eq_true.mpr hfull, if_true]

/-- A run of digits and underscores that can be joined is a row of groups. -/
theorem exists_of_joinGroups? {run digits : List Char} (hrun : ∀ c ∈ run, inGroups c = true)
    (h : joinGroups? run = some digits) :
    ∃ groups, DigitGroups groups ∧ run = underscored groups ∧ digits = groups.flatten := by
  rw [joinGroups?, Option.ite_none_right_eq_some] at h
  obtain ⟨hfull, hdigits⟩ := h
  refine ⟨splitWhere (· == '_') run, ⟨?_, fun g hg => ⟨?_, fun c hc => ?_⟩⟩, ?_,
    (Option.some.inj hdigits).symm⟩
  · rw [splitWhere_eq_splitOn]
    exact List.splitOnP_ne_nil _ _
  · simpa using List.all_eq_true.mp hfull g hg
  · obtain ⟨hother, hmem⟩ := of_mem_splitWhere hg c hc
    have hc := hrun c hmem
    rwa [inGroups, hother, Bool.or_false] at hc
  · rw [underscored, splitWhere_eq_splitOn, List.intercalate_splitOn]

/-! ## §3 Numerals -/

/-- A sign, and whether it is that of a negative number; there may be none. -/
inductive Sign : List Char → Bool → Prop
  | none : Sign [] false
  | plus : Sign ['+'] false
  | minus : Sign ['-'] true

/-- The integer that digits behind a sign denote. -/
def signedValue (negative : Bool) (digits : List Char) : Int :=
  if negative then -(digitsValue digits : Int) else digitsValue digits

/-- The integer numerals, and what they denote. -/
inductive IntegerNumeral : List Char → Int → Prop
  | mk {before sign : List Char} {negative : Bool} {groups : List (List Char)} {after : List Char} :
    (∀ c ∈ before, isNumeralBlank c = true) → Sign sign negative → DigitGroups groups →
    groups.flatten.length ≤ maxIntegerDigits → (∀ c ∈ after, isNumeralBlank c = true) →
    IntegerNumeral (before ++ (sign ++ (underscored groups ++ after)))
      (signedValue negative groups.flatten)

/-- Digits alone are a numeral. -/
theorem IntegerNumeral.digits {digits : List Char} (hne : digits ≠ [])
    (hdigits : ∀ c ∈ digits, isDecimalDigit c = true) (hlength : digits.length ≤ maxIntegerDigits)
    {sign : List Char} {negative : Bool} (hsign : Sign sign negative) :
    IntegerNumeral (sign ++ digits) (signedValue negative digits) := by
  have hgroups : DigitGroups [digits] :=
    ⟨List.cons_ne_nil _ _, List.forall_mem_singleton.mpr ⟨hne, hdigits⟩⟩
  have hflatten : [digits].flatten = digits := by simp
  have hnumeral := IntegerNumeral.mk (List.forall_mem_nil _) hsign hgroups
    (hflatten.symm ▸ hlength) (List.forall_mem_nil _)
  rwa [hflatten, underscored, List.intercalate_singleton, List.append_nil, List.nil_append]
    at hnumeral

/-- A numeral without blanks, signs and underscores is a row of digits. -/
theorem IntegerNumeral.of_plain {text : List Char} {n : Int} (h : IntegerNumeral text n)
    (hplain : ∀ c ∈ text, isNumeralBlank c = false ∧ c ≠ '-' ∧ c ≠ '+' ∧ c ≠ '_') :
    (∀ c ∈ text, isDecimalDigit c = true) ∧ text.length ≤ maxIntegerDigits := by
  obtain @⟨before, sign, negative, groups, after, hbefore, hsign, hgroups, hlength, hafter⟩ := h
  simp only [List.forall_mem_append] at hplain
  obtain ⟨hplainBefore, hplainSign, hplainGroups, hplainAfter⟩ := hplain
  have hnone : ∀ {blanks : List Char}, (∀ c ∈ blanks, isNumeralBlank c = true) →
      (∀ c ∈ blanks, isNumeralBlank c = false ∧ c ≠ '-' ∧ c ≠ '+' ∧ c ≠ '_') → blanks = [] := by
    intro blanks hblank hother
    refine List.eq_nil_iff_forall_not_mem.mpr fun c hc => ?_
    exact Bool.false_ne_true ((hother c hc).1.symm.trans (hblank c hc))
  obtain rfl := hnone hbefore hplainBefore
  obtain rfl := hnone hafter hplainAfter
  obtain rfl : sign = [] := by
    cases hsign with
    | none => rfl
    | plus => exact absurd rfl (hplainSign '+' List.mem_cons_self).2.2.1
    | minus => exact absurd rfl (hplainSign '-' List.mem_cons_self).2.1
  -- two groups would have an underscore between them
  obtain ⟨g, more, rfl⟩ := List.exists_cons_of_ne_nil hgroups.ne_nil
  cases more with
  | nil =>
    rw [List.flatten_singleton] at hlength
    rw [List.nil_append, List.nil_append, List.append_nil, underscored, List.intercalate_singleton]
    exact ⟨(hgroups.digits g List.mem_cons_self).2, hlength⟩
  | cons next more =>
    have hmark : '_' ∈ underscored (g :: next :: more) := by
      rw [underscored, List.intercalate_cons_cons]
      exact List.mem_append_left _ (List.mem_append_right _ List.mem_cons_self)
    exact absurd rfl (hplainGroups '_' hmark).2.2.2

theorem takeSign_spec (text : List Char) :
    ∃ sign, Sign sign (takeSign text).1 ∧ text = sign ++ (takeSign text).2 := by
  unfold takeSign
  split
  · exact ⟨_, .minus, rfl⟩
  · exact ⟨_, .plus, rfl⟩
  · exact ⟨_, .none, rfl⟩

/-- What begins with a digit is what follows the sign. -/
theorem takeSign_append {sign : List Char} {negative : Bool} (h : Sign sign negative) {c : Char}
    (hc : isDecimalDigit c = true) (rest : List Char) :
    takeSign (sign ++ c :: rest) = (negative, c :: rest) := by
  obtain ⟨-, hminus, hplus, -⟩ := isDecimalDigit_plain hc
  cases h with
  | none => simp [takeSign, hminus, hplus]
  | plus => rfl
  | minus => rfl

/-- Neither a sign nor a digit is a blank. -/
theorem dropWhile_sign {sign : List Char} {negative : Bool} (h : Sign sign negative) {c : Char}
    (hc : isDecimalDigit c = true) (rest : List Char) :
    (sign ++ c :: rest).dropWhile isNumeralBlank = sign ++ c :: rest := by
  cases h with
  | none => simp [(isDecimalDigit_plain hc).1]
  | plus => rfl
  | minus => rfl

/-- A blank is not among the digits and underscores. -/
theorem inGroups_of_isNumeralBlank {c : Char} (h : isNumeralBlank c = true) :
    inGroups c = false := by
  rw [inGroups, Bool.or_eq_false_iff, beq_eq_false_iff_ne]
  constructor
  · refine Bool.eq_false_iff.mpr fun hdigit => ?_
    rw [(isDecimalDigit_plain hdigit).1] at h
    cases h
  · rintro rfl
    cases h

/-- The reader takes the row of groups, and leaves what follows it. -/
theorem takeWhile_underscored (h : DigitGroups groups) {after : List Char}
    (hafter : ∀ c ∈ after, isNumeralBlank c = true) :
    (underscored groups ++ after).takeWhile inGroups = underscored groups ∧
      (underscored groups ++ after).dropWhile inGroups = after := by
  have hrun : ∀ c ∈ underscored groups, inGroups c = true := fun c => h.inGroups
  have hrest : after.takeWhile inGroups = [] ∧ after.dropWhile inGroups = after := by
    cases after with
    | nil => exact ⟨rfl, rfl⟩
    | cons c rest =>
      have hc := inGroups_of_isNumeralBlank (hafter c List.mem_cons_self)
      rw [List.takeWhile_cons, List.dropWhile_cons, hc]
      exact ⟨rfl, rfl⟩
  rw [List.takeWhile_append_of_pos hrun, List.dropWhile_append_of_pos hrun, hrest.1, hrest.2,
    List.append_nil]
  exact ⟨rfl, rfl⟩

/-- The reader, step by step. -/
theorem readIntegerChars_eq (text : List Char) :
    readIntegerChars text =
      let signed := takeSign (text.dropWhile isNumeralBlank)
      match joinGroups? (signed.2.takeWhile inGroups) with
      | none => .error .malformed
      | some digits =>
        if maxIntegerDigits < digits.length then .error (.tooManyDigits digits.length)
        else if (signed.2.dropWhile inGroups).all isNumeralBlank then
          .ok (signedValue signed.1 digits)
        else .error .malformed := rfl

theorem readIntegerChars_of_numeral {text : List Char} {n : Int} (h : IntegerNumeral text n) :
    readIntegerChars text = .ok n := by
  obtain ⟨hbefore, hsign, hgroups, hlength, hafter⟩ := h
  obtain ⟨htake, hdrop⟩ := takeWhile_underscored hgroups hafter
  have hjoin := joinGroups?_underscored hgroups
  obtain ⟨c, rest, hfirst, hc⟩ := hgroups.exists_cons
  rw [hfirst, List.cons_append] at htake hdrop
  rw [hfirst] at hjoin
  simp only [readIntegerChars_eq, hfirst, List.cons_append, List.dropWhile_append_of_pos hbefore,
    dropWhile_sign hsign hc, takeSign_append hsign hc, htake, hdrop, hjoin,
    if_neg (Nat.not_lt.mpr hlength), List.all_eq_true.mpr hafter, if_true]

theorem numeral_of_readIntegerChars {text : List Char} {n : Int}
    (h : readIntegerChars text = .ok n) : IntegerNumeral text n := by
  obtain ⟨sign, hsign, hsigned⟩ := takeSign_spec (text.dropWhile isNumeralBlank)
  simp only [readIntegerChars_eq] at h
  generalize takeSign (text.dropWhile isNumeralBlank) = signed at h hsign hsigned
  obtain ⟨negative, body⟩ := signed
  cases hjoin : joinGroups? (body.takeWhile inGroups) with
  | none =>
    rw [hjoin] at h
    cases h
  | some digits =>
    obtain ⟨groups, hgroups, hrun, rfl⟩ :=
      exists_of_joinGroups? (fun c => List.mem_takeWhile_imp) hjoin
    simp only [hjoin] at h
    split at h
    · cases h
    · next hlength =>
      split at h
      · next hafter =>
        obtain rfl := Except.ok.inj h
        -- blanks, the sign, the groups and blanks are all of the text
        have htext : text = text.takeWhile isNumeralBlank ++
            (sign ++ (underscored groups ++ body.dropWhile inGroups)) := by
          rw [← hrun, List.takeWhile_append_dropWhile, ← hsigned, List.takeWhile_append_dropWhile]
        rw [htext]
        exact .mk (fun c => List.mem_takeWhile_imp) hsign hgroups (Nat.not_lt.mp hlength)
          (List.all_eq_true.mp hafter)
      · cases h

/-- The reader accepts the integer numerals, each as the number that it denotes. -/
theorem readIntegerChars_eq_ok_iff {text : List Char} {n : Int} :
    readIntegerChars text = .ok n ↔ IntegerNumeral text n :=
  ⟨numeral_of_readIntegerChars, readIntegerChars_of_numeral⟩

end BrokerLoad
