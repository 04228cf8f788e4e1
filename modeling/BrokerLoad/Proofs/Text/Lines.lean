import BrokerLoad.Text.Blank

/-!
# Texts put together from lines and words

A reader cuts a text at line ends and blanks. Here it is said what it finds in a text that was put
together from pieces: a line with its line end is one line, lines in front of it stay as they are,
and words are found as they were written. Only where a carriage return meets a line feed is more
lost than the seam between two pieces.

## Main definitions

* `Complete`: a text that ends with a line end, or is empty.

## Main statements

* `lines_append`: the lines of a complete text and those that follow it.
* `lines_line`: a line, and what follows it.
* `words_append`: a word, and what follows it.
-/

namespace BrokerLoad

/-! ## §1 Lines -/

/-- A text of complete lines. -/
def Complete (text : List Char) : Prop := ∀ c ∈ text.getLast?, isLineEnd c = true

theorem Complete.tail {c : Char} {text : List Char} (h : Complete (c :: text)) : Complete text := by
  intro d hd
  cases text with
  | nil => cases hd
  | cons e rest => exact h d hd

/-- A character that ends no line belongs to the line that follows it. -/
theorem lines_cons {c : Char} (hc : isLineEnd c = false) (rest : List Char) :
    lines (c :: rest) =
      match lines rest with
      | [] => [[c]]
      | line :: more => (c :: line) :: more := by
  rw [lines, hc]
  · rfl
  · rintro rest rfl
    cases hc

/-- A line end ends a line, unless a line feed follows a carriage return. -/
theorem lines_end {c : Char} {rest : List Char} (hc : isLineEnd c = true)
    (hrest : c = '\r' → rest.head? ≠ some '\n') : lines (c :: rest) = [] :: lines rest := by
  rw [lines, if_pos hc]
  rintro tail hreturn rfl
  exact hrest hreturn rfl

theorem lines_eq_nil {text : List Char} (h : lines text = []) : text = [] := by
  fun_cases lines text with
  | case1 => rfl
  | case2 tail =>
    rw [lines] at h
    cases h
  | case3 c tail hreturn hend =>
    rw [lines, if_pos hend] at h
    · cases h
    · exact hreturn
  | case4 c tail hreturn hend hnone =>
    rw [lines_cons (Bool.not_eq_true _ ▸ hend), hnone] at h
    cases h
  | case5 c tail hreturn hend line more hmore =>
    rw [lines_cons (Bool.not_eq_true _ ▸ hend), hmore] at h
    cases h

/-- The lines of a complete text and those that follow it. -/
theorem lines_append {before rest : List Char} (hbefore : Complete before)
    (hrest : rest.head? ≠ some '\n') : lines (before ++ rest) = lines before ++ lines rest := by
  fun_induction lines before with
  | case1 => rfl
  | case2 text ih =>
    rw [List.cons_append, List.cons_append, lines, ih hbefore.tail.tail, List.cons_append]
  | case3 c text hreturn hend ih =>
    have hseam : c = '\r' → (text ++ rest).head? ≠ some '\n' := by
      intro hc
      cases text with
      | nil => exact hrest
      | cons d tail =>
        intro hd
        cases hd
        exact hreturn tail hc rfl
    rw [List.cons_append, lines_end hend hseam, ih hbefore.tail, List.cons_append]
  | case4 c text hreturn hend hnone ih =>
    -- a line without its end is not complete
    obtain rfl := lines_eq_nil hnone
    exact absurd (hbefore c rfl) hend
  | case5 c text hreturn hend line more hmore ih =>
    have hplain : isLineEnd c = false := by simpa using hend
    rw [List.cons_append, lines_cons hplain, ih hbefore.tail, hmore]
    rfl

/-- A line, and what follows it. -/
theorem lines_line {line : List Char} (hline : ∀ c ∈ line, isLineEnd c = false)
    (after : List Char) : lines (line ++ '\n' :: after) = line :: lines after := by
  induction line with
  | nil => exact lines_end rfl fun hreturn => absurd hreturn (by decide)
  | cons c rest ih =>
    obtain ⟨hc, hrest⟩ := List.forall_mem_cons.mp hline
    rw [List.cons_append, lines_cons hc, ih hrest]

/-! ## §2 Pieces and words -/

/-- A text whose ends are not of a class is trimmed. -/
theorem trimWhere_eq_self {p : Char → Bool} {s : List Char} (hfirst : ∀ d ∈ s.head?, p d = false)
    (hlast : ∀ d ∈ s.getLast?, p d = false) : trimWhere p s = s := by
  have hkeep : ∀ {t : List Char}, (∀ d ∈ t.head?, p d = false) → t.dropWhile p = t := by
    intro t ht
    cases t with
    | nil => rfl
    | cons d rest => rw [List.dropWhile_cons, ht d rfl, if_neg Bool.false_ne_true]
  rw [trimWhere, hkeep hfirst, hkeep (by rwa [List.head?_reverse]), List.reverse_reverse]

/-- A text without marks is one piece. -/
theorem splitWhere_of_forall {p : Char → Bool} {piece : List Char} (h : ∀ c ∈ piece, p c = false) :
    splitWhere p piece = [piece] := by
  induction piece with
  | nil => rfl
  | cons c rest ih =>
    rw [splitWhere, h c List.mem_cons_self, ih fun d hd => h d (List.mem_cons_of_mem c hd)]
    rfl

/-- A piece without marks, and what follows the mark behind it. -/
theorem splitWhere_append {p : Char → Bool} {piece : List Char} {mark : Char}
    (h : ∀ c ∈ piece, p c = false) (hmark : p mark = true) (rest : List Char) :
    splitWhere p (piece ++ mark :: rest) = piece :: splitWhere p rest := by
  induction piece with
  | nil => rw [List.nil_append, splitWhere, if_pos hmark]
  | cons c piece ih =>
    obtain ⟨hc, hpiece⟩ := List.forall_mem_cons.mp h
    rw [List.cons_append, splitWhere, hc, ih hpiece]
    rfl

/-- A word alone. -/
theorem words_word {word : List Char} (hne : word ≠ []) (h : ∀ c ∈ word, isBlank c = false) :
    words word = [word] := by
  rw [words, splitWhere_of_forall h]
  exact List.filter_cons_of_pos (by simpa using hne)

/-- A word, and what follows the blank behind it. -/
theorem words_append {word : List Char} {blank : Char} (hne : word ≠ [])
    (h : ∀ c ∈ word, isBlank c = false) (hblank : isBlank blank = true) (rest : List Char) :
    words (word ++ blank :: rest) = word :: words rest := by
  rw [words, splitWhere_append h hblank]
  exact List.filter_cons_of_pos (by simpa using hne)

/-- A text in which no blank is found has none. -/
theorem isBlank_of_all {text : List Char} (h : text.all (!isBlank ·) = true) {c : Char}
    (hc : c ∈ text) : isBlank c = false := by
  have hnot := List.all_eq_true.mp h c hc
  rwa [Bool.not_eq_true'] at hnot

/-- A text is cut at the first mark in it. -/
theorem cutFirst?_append {mark : Char} {before : List Char} (h : mark ∉ before)
    (after : List Char) : cutFirst? mark (before ++ mark :: after) = some (before, after) := by
  induction before with
  | nil => rw [List.nil_append, cutFirst?, if_pos rfl]
  | cons c before ih =>
    rw [List.mem_cons, not_or] at h
    rw [List.cons_append, cutFirst?, if_neg (Ne.symm h.1), ih h.2]
    rfl

end BrokerLoad
