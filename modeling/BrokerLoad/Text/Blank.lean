/-!
# Blanks, words and lines

Texts are cut at blanks and at line ends. The blanks are those of Unicode together with the four
information separators; a carriage return followed by a line feed is one line end.

## Main definitions

* `isBlank`, `isLineEnd`: the two character classes.
* `strip`: a text without blanks at its ends.
* `words`, `lines`: the pieces between blanks and between line ends.
-/

namespace BrokerLoad

/-- The blank characters. -/
def isBlank (c : Char) : Bool :=
  let n := c.toNat
  decide (9 ≤ n ∧ n ≤ 13) || decide (28 ≤ n ∧ n ≤ 32) || n == 0x85 || n == 0xa0 || n == 0x1680 ||
    decide (0x2000 ≤ n ∧ n ≤ 0x200a) || n == 0x2028 || n == 0x2029 || n == 0x202f || n == 0x205f ||
    n == 0x3000

/-- The characters that end a line. -/
def isLineEnd (c : Char) : Bool :=
  let n := c.toNat
  decide (10 ≤ n ∧ n ≤ 13) || decide (28 ≤ n ∧ n ≤ 30) || n == 0x85 || n == 0x2028 || n == 0x2029

/-- The text without its leading and trailing characters of a class. -/
def trimWhere (p : Char → Bool) (s : List Char) : List Char :=
  ((s.dropWhile p).reverse.dropWhile p).reverse

/-- The text without leading and trailing blanks. -/
def strip (s : List Char) : List Char := trimWhere isBlank s

/-- The pieces between the elements of a class, empty pieces included. -/
def splitWhere (p : Char → Bool) : List Char → List (List Char)
  | [] => [[]]
  | c :: rest => if p c then [] :: splitWhere p rest else (splitWhere p rest).modifyHead (c :: ·)

/-- The nonempty pieces between blanks. -/
def words (s : List Char) : List (List Char) :=
  (splitWhere isBlank s).filter fun w => !w.isEmpty

/-- The lines of a text, without their line ends. A line end at the very end opens no line. -/
def lines : List Char → List (List Char)
  | [] => []
  | '\r' :: '\n' :: rest => [] :: lines rest
  | c :: rest =>
    if isLineEnd c then [] :: lines rest
    else match lines rest with
      | [] => [[c]]
      | line :: more => (c :: line) :: more

/-- Every line end is a blank. -/
theorem isBlank_of_isLineEnd {c : Char} (h : isLineEnd c = true) : isBlank c = true := by
  simp only [isLineEnd, isBlank, Bool.or_eq_true, decide_eq_true_eq, beq_iff_eq] at *
  omega

/-- No word is empty. -/
theorem ne_nil_of_mem_words {s w : List Char} (h : w ∈ words s) : w ≠ [] := by
  simpa using (List.mem_filter.1 h).2

/-- The text cut at the first character of a kind: what stands before it and what after. -/
def cutFirst? (mark : Char) : List Char → Option (List Char × List Char)
  | [] => none
  | c :: rest =>
    if c = mark then some ([], rest) else (cutFirst? mark rest).map fun (a, b) => (c :: a, b)

/-- The text cut at the last character of a kind. -/
def cutLast? (mark : Char) : List Char → Option (List Char × List Char)
  | [] => none
  | c :: rest =>
    match cutLast? mark rest with
    | some (a, b) => some (c :: a, b)
    | none => if c = mark then some ([], rest) else none

end BrokerLoad
