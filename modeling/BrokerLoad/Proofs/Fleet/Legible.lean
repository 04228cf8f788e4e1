import BrokerLoad.Fleet.Output
import BrokerLoad.Proofs.Number.Numerals
import BrokerLoad.Proofs.Text.Lines

/-!
# Outputs whose count cannot be read

The runner takes the fourth word of a line `PID _ sent _ _` for a count when all its characters are
digits in name, and only then reads it as a numeral. The two do not agree: superscripts and circled
numbers are digits in name but stand in no numeral, and a numeral must not be too long.

## Main definitions

* `CountLine`: a line whose fourth word is taken for a count.
* `Misleading`: an output that ends in such a line, where the word is no numeral.

## Main statements

* `readIntegerChars_ok_iff`: which rows of digits in name are numerals.
* `findReport_count_error_iff`: an output is misleading exactly when its count cannot be read.
-/

namespace BrokerLoad

/-! ## §1 Rows of digits in name -/

/-- Which rows of digits in name are numerals: those of decimal digits that are not too long. -/
theorem readIntegerChars_ok_iff {count : List Char} (hne : count ≠ [])
    (hdigits : count.all isDigitLike = true) :
    (∃ n, readIntegerChars count = .ok n) ↔
      count.all isDecimalDigit = true ∧ count.length ≤ maxIntegerDigits := by
  simp only [readIntegerChars_eq_ok_iff]
  constructor
  · rintro ⟨n, hn⟩
    have hplain : ∀ c ∈ count, isNumeralBlank c = false ∧ c ≠ '-' ∧ c ≠ '+' ∧ c ≠ '_' :=
      fun c hc => isDigitLike_plain (List.all_eq_true.1 hdigits c hc)
    obtain ⟨hall, hlength⟩ := hn.of_plain hplain
    exact ⟨List.all_eq_true.2 hall, hlength⟩
  · rintro ⟨hall, hlength⟩
    exact ⟨_, .digits hne (List.all_eq_true.1 hall) hlength .none⟩

/-! ## §2 Lines and outputs -/

/-- A line whose fourth word is taken for a count. -/
structure CountLine (count line : List Char) : Prop where
  plain : "sent=".toList.isPrefixOf line = false
  words : ∃ process last, words line =
    ["PID".toList, process, "sent".toList, count, last]
  digits : count.all isDigitLike = true

/-- A line that says nothing. -/
def Silent (line : List Char) : Prop :=
  "sent=".toList.isPrefixOf line = false ∧ ∀ count, ¬ CountLine count line

/-- An output that ends, but for lines that say nothing, in a line whose count is no numeral. -/
def Misleading (output : String) : Prop :=
  ∃ later line earlier count, (lines output.toList).reverse = later ++ line :: earlier ∧
    (∀ l ∈ later, Silent l) ∧ CountLine count line ∧
    ¬ (count.all isDecimalDigit = true ∧ count.length ≤ maxIntegerDigits)

variable {τ : Type} [Seconds τ] {line count : List Char}

/-- What can be read from a line. -/
theorem readLine_cases (τ : Type) [Seconds τ] (line : List Char) :
    ("sent=".toList.isPrefixOf line = true ∧
      ((∃ r, (readLine line : Finding τ) = .report r) ∨
        (readLine line : Finding τ) = .unreadable (String.ofList line))) ∨
    (∃ count, CountLine count line ∧
      (readLine line : Finding τ) = .count (Report.readCount (String.ofList count))) ∨
    (Silent line ∧ (readLine line : Finding τ) = .nothing) := by
  unfold readLine
  cases hplain : "sent=".toList.isPrefixOf line with
  | true =>
    refine .inl ⟨rfl, ?_⟩
    simp only [if_true]
    split
    · exact .inl ⟨_, rfl⟩
    · exact .inr rfl
  | false =>
    refine .inr ?_
    simp only [Bool.false_eq_true, if_false]
    split
    · rename_i first process third count last hwords
      split
      · rename_i hfound
        obtain ⟨rfl, rfl, hdigits⟩ := hfound
        exact .inl ⟨count, ⟨hplain, ⟨process, last, hwords⟩, hdigits⟩, rfl⟩
      · rename_i hother
        refine .inr ⟨⟨hplain, ?_⟩, rfl⟩
        intro count' hyp
        obtain ⟨_, ⟨process', last', hwords'⟩, hdigits⟩ := hyp
        rw [hwords] at hwords'
        simp only [List.cons.injEq, and_true] at hwords'
        obtain ⟨rfl, rfl, rfl, rfl, rfl⟩ := hwords'
        exact hother ⟨rfl, rfl, hdigits⟩
    · rename_i hother
      refine .inr ⟨⟨hplain, ?_⟩, rfl⟩
      intro count hyp
      obtain ⟨_, ⟨process, last, hwords⟩, _⟩ := hyp
      exact hother _ _ _ _ _ hwords

theorem readLine_eq_nothing_iff : (readLine line : Finding τ) = .nothing ↔ Silent line := by
  rcases readLine_cases τ line with ⟨hsent, hread⟩ | ⟨count, hcount, hread⟩ | ⟨hsilent, hread⟩
  -- a report in the new format says something
  · refine iff_of_false ?_ fun hsilent => ?_
    · rcases hread with ⟨r, hread⟩ | hread
      · rw [hread]
        exact nofun
      · rw [hread]
        exact nofun
    · exact absurd (hsent.symm.trans hsilent.1) nofun
  · refine iff_of_false ?_ fun hsilent => hsilent.2 count hcount
    rw [hread]
    exact nofun
  · exact iff_of_true hread hsilent

/-- The count of a line cannot be read exactly when it is no row of decimal digits, or too long. -/
theorem CountLine.readCount_error_iff (h : CountLine count line) :
    (∃ f, Report.readCount (String.ofList count) = .error f) ↔
      ¬ (count.all isDecimalDigit = true ∧ count.length ≤ maxIntegerDigits) := by
  obtain ⟨process, last, hwords⟩ := h.words
  -- a word is never empty
  have hne : count ≠ [] := by
    apply ne_nil_of_mem_words (s := line)
    rw [hwords]
    simp
  rw [← readIntegerChars_ok_iff hne h.digits]
  simp only [Report.readCount, readInteger, String.toList_ofList]
  cases readIntegerChars count with
  | ok n => simp
  | error cause => simp

theorem readCount_error {text : String} {f : Fault} (h : Report.readCount text = .error f) :
    ∃ e, f = .value e := by
  unfold Report.readCount at h
  split at h
  · cases h
  · cases h
    exact ⟨_, rfl⟩

theorem firstFinding_of_nothing {first : List Char} (rest : List (List Char))
    (h : (readLine first : Finding τ) = .nothing) :
    (firstFinding (first :: rest) : Finding τ) = firstFinding rest := by
  simp only [firstFinding, h]

theorem firstFinding_of_ne {first : List Char} (rest : List (List Char))
    (h : (readLine first : Finding τ) ≠ .nothing) :
    (firstFinding (first :: rest) : Finding τ) = readLine first := by
  simp only [firstFinding]

/-- What is found in some lines comes from the first of them that says something. -/
theorem firstFinding_eq_iff {found : Finding τ} (hfound : found ≠ .nothing)
    (all : List (List Char)) :
    firstFinding all = found ↔ ∃ later line earlier, all = later ++ line :: earlier ∧
      (∀ l ∈ later, (readLine l : Finding τ) = .nothing) ∧ readLine line = found := by
  -- induction on the lines
  induction all with
  | nil =>
    apply iff_of_false (fun h => hfound h.symm)
    intro hyp
    obtain ⟨later, line, earlier, hall, _⟩ := hyp
    cases later <;> cases hall
  | cons first rest ih =>
    by_cases hfirst : (readLine first : Finding τ) = .nothing
    · rw [firstFinding_of_nothing rest hfirst, ih]
      constructor
      · intro hyp
        obtain ⟨later, line, earlier, rfl, hlater, hline⟩ := hyp
        refine ⟨first :: later, line, earlier, rfl, fun l hl => ?_, hline⟩
        rcases List.mem_cons.1 hl with rfl | hl
        · exact hfirst
        · exact hlater l hl
      · intro hyp
        obtain ⟨later, line, earlier, hall, hlater, hline⟩ := hyp
        cases later with
        | nil =>
          cases hall
          exact absurd (hline.symm.trans hfirst) hfound
        | cons l later =>
          cases hall
          exact ⟨later, line, earlier, rfl, fun l hl => hlater l (List.mem_cons_of_mem _ hl), hline⟩
    · rw [firstFinding_of_ne rest hfirst]
      constructor
      · exact fun h => ⟨[], first, rest, rfl, fun l hl => absurd hl List.not_mem_nil, h⟩
      · intro hyp
        obtain ⟨later, line, earlier, hall, hlater, hline⟩ := hyp
        cases later with
        | nil =>
          cases hall
          exact hline
        | cons l later =>
          cases hall
          exact absurd (hlater _ (List.mem_cons_self ..)) hfirst

theorem findReport_error {output : String} {f : Fault}
    (h : (findReport output : Finding τ) = .count (.error f)) : ∃ e, f = .value e := by
  obtain ⟨_, line, _, _, _, hline⟩ := (firstFinding_eq_iff (by exact nofun) _).1 h
  rcases readLine_cases τ line with ⟨_, ⟨r, hread⟩ | hread⟩ | ⟨count, _, hread⟩ | ⟨_, hread⟩
  · cases hline.symm.trans hread
  · cases hline.symm.trans hread
  · exact readCount_error (Finding.count.inj (hline.symm.trans hread)).symm
  · cases hline.symm.trans hread

/-- An output is misleading exactly when it ends in a count that cannot be read. -/
theorem findReport_count_error_iff (τ : Type) [Seconds τ] (output : String) :
    (∃ f, (findReport output : Finding τ) = .count (.error f)) ↔ Misleading output := by
  have hne : ∀ f, (.count (.error f) : Finding τ) ≠ .nothing := fun f => nofun
  constructor
  · intro h
    obtain ⟨f, hfind⟩ := h
    obtain ⟨later, line, earlier, hall, hlater, hline⟩ := (firstFinding_eq_iff (hne f) _).1 hfind
    rcases readLine_cases τ line with ⟨_, ⟨r, hread⟩ | hread⟩ | ⟨count, hcount, hread⟩ | ⟨_, hread⟩
    · cases hline.symm.trans hread
    · cases hline.symm.trans hread
    · have herror : Report.readCount (String.ofList count) = .error f :=
        (Finding.count.inj (hline.symm.trans hread)).symm
      refine ⟨later, line, earlier, count, hall, fun l hl => ?_, hcount, ?_⟩
      · exact readLine_eq_nothing_iff.1 (hlater l hl)
      · exact hcount.readCount_error_iff.1 ⟨f, herror⟩
    · cases hline.symm.trans hread
  · intro h
    obtain ⟨later, line, earlier, count, hall, hlater, hcount, hcannot⟩ := h
    obtain ⟨f, hf⟩ := hcount.readCount_error_iff.2 hcannot
    refine ⟨f, (firstFinding_eq_iff (hne f) _).2 ⟨later, line, earlier, hall, fun l hl => ?_, ?_⟩⟩
    · exact readLine_eq_nothing_iff.2 (hlater l hl)
    · rcases readLine_cases τ line with ⟨hsent, _⟩ | ⟨count', hcount', hread⟩ | ⟨hsilent, _⟩
      · exact absurd (hsent.symm.trans hcount.plain) nofun
      · -- a line has one fourth word
        obtain ⟨process, last, hwords⟩ := hcount.words
        obtain ⟨process', last', hwords'⟩ := hcount'.words
        rw [hwords] at hwords'
        simp only [List.cons.injEq, and_true, true_and] at hwords'
        obtain ⟨_, rfl, _⟩ := hwords'
        rw [hread, hf]
      · exact absurd hcount (hsilent.2 count)

end BrokerLoad
