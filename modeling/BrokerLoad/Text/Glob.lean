import BrokerLoad.Text.Blank

/-!
# File name patterns

In a pattern `*` stands for any characters, `?` for one, and a bracket for one of a set or, after an
exclamation mark, for one outside it. A set lists characters and ranges; a range that runs backward
is empty and vanishes from the set. A bracket that is never closed stands for itself.

## Main definitions

* `Pattern.ofChars`: reads a pattern.
* `Pattern.admits`: whether a name fits a pattern.
-/

namespace BrokerLoad

/-- One element of a pattern. -/
inductive PatternItem where
  | anything
  | one
  | exactly (c : Char)
  | among (negated : Bool) (ranges : List (Char × Char))
  deriving DecidableEq, Repr

/-- Whether an element that stands for one character admits it. -/
def PatternItem.admitsChar : PatternItem → Char → Bool
  | .anything, _ => false
  | .one, _ => true
  | .exactly d, c => c == d
  | .among negated ranges, c => negated != ranges.any fun r => decide (r.1 ≤ c ∧ c ≤ r.2)

/-- A file name pattern. -/
abbrev Pattern := List PatternItem

namespace Pattern

/-! ## §1 Sets -/

/-- An element of a set as it is written: a character, or the dash of a range. -/
inductive SetMark where
  | char (c : Char)
  | dash
  deriving DecidableEq, Repr

/-- The contents of a bracket, cut at the dashes of its ranges. A dash makes a range if something
follows it and at least `skip` characters come first; after a cut these are the end of the range and
one character more. `done` holds the characters of the current piece in reverse. -/
def pieces : Nat → List Char → List Char → List (List Char)
  | _, done, [] => [done.reverse]
  | 0, done, '-' :: high :: rest => done.reverse :: pieces 1 [high] rest
  | skip, done, c :: rest => pieces (skip - 1) (c :: done) rest

/-- Whether the range between two pieces runs backward. -/
def runsBackward (piece next : List Char) : Bool :=
  match piece.getLast?, next.head? with
  | some low, some high => decide (high < low)
  | _, _ => false

/-- Drops the ranges that run backward, the last one first; the pieces around such a range are
joined without its ends. -/
def dropBackward : List (List Char) → List (List Char)
  | [] => []
  | piece :: rest =>
    match dropBackward rest with
    | [] => [piece]
    | next :: more =>
      if runsBackward piece next then (piece.dropLast ++ next.tail) :: more
      else piece :: next :: more

/-- The elements of a set with its contents; an exclamation mark in front counts as one of them. -/
def setMarks (inside : List Char) : List SetMark :=
  let skip := if inside.head? = some '!' then 2 else 1
  List.intercalate [.dash] ((dropBackward (pieces skip [] inside)).map (·.map .char))

/-- The ranges of a set. A dash that has lost the character in front of it stands for itself. -/
def ranges : List SetMark → List (Char × Char)
  | .char low :: .dash :: .char high :: rest => (low, high) :: ranges rest
  | .char c :: rest => (c, c) :: ranges rest
  | .dash :: rest => ('-', '-') :: ranges rest
  | [] => []

/-- The set with some contents. An exclamation mark that comes first negates it, also if it came
there because a range vanished. -/
def setOf (inside : List Char) : PatternItem :=
  match setMarks inside with
  | .char '!' :: rest => .among true (ranges rest)
  | marks => .among false (ranges marks)

/-- The contents of a bracket and what follows it. A closing bracket that comes first, possibly
after an exclamation mark, belongs to the contents. -/
def bracket? (text : List Char) : Option (List Char × List Char) :=
  let (first, body) := match text with
    | '!' :: ']' :: rest => (['!', ']'], rest)
    | '!' :: rest => (['!'], rest)
    | ']' :: rest => ([']'], rest)
    | rest => ([], rest)
  (cutFirst? ']' body).map fun (inside, rest) => (first ++ inside, rest)

/-! ## §2 Patterns -/

/-- Reads a pattern; `fuel` is at least its length. -/
def ofCharsWithin : Nat → List Char → Pattern
  | 0, _ => []
  | _, [] => []
  | fuel + 1, '*' :: rest => .anything :: ofCharsWithin fuel rest
  | fuel + 1, '?' :: rest => .one :: ofCharsWithin fuel rest
  | fuel + 1, '[' :: rest =>
    match bracket? rest with
    | some (inside, rest) => setOf inside :: ofCharsWithin fuel rest
    | none => .exactly '[' :: ofCharsWithin fuel rest
  | fuel + 1, c :: rest => .exactly c :: ofCharsWithin fuel rest

/-- Reads a pattern. -/
def ofChars (text : List Char) : Pattern := ofCharsWithin text.length text

/-- The tails of a text, the longest first. -/
def tails : List Char → List (List Char)
  | [] => [[]]
  | c :: rest => (c :: rest) :: tails rest

/-- What may be left of a text after one more element, from what was left before it. Both lists hold
tails of one text, the longest first; so the tails of the longest are all there can be. -/
def advance (left : List (List Char)) : PatternItem → List (List Char)
  | .anything => match left with
    | [] => []
    | longest :: _ => tails longest
  | item => left.filterMap fun text => match text with
    | [] => none
    | c :: rest => if item.admitsChar c then some rest else none

/-- Whether a text fits a pattern: nothing may be left of it in the end. -/
def admits (pattern : Pattern) (text : List Char) : Bool :=
  (pattern.foldl advance [text]).contains []

end Pattern

/-- Whether a text holds a character with a meaning in patterns. -/
def isPattern (text : List Char) : Bool := text.any fun c => c == '*' || c == '?' || c == '['

end BrokerLoad
