import BrokerLoad.Text.Printable

/-!
# Quoted texts

Messages quote the texts they complain about. A text stands between single quotes, or between
double quotes when it holds a single quote and no double one. Backslashes, the closing quote and
the three common control characters get a backslash; other characters that do not show are written
by their code point in two, four or eight hexadecimal digits.

## Main definitions

* `quoted`: a text between quotes.
* `quotedList`: a list of texts between brackets.
-/

namespace BrokerLoad

/-- The low `width` hexadecimal digits of a number. -/
def hexDigits : Nat → Nat → List Char
  | 0, _ => []
  | width + 1, n => hexDigits width (n / 16) ++ [Nat.digitChar (n % 16)]

/-- A character as it stands between the quotes `mark`. -/
def quotedChar (mark c : Char) : List Char :=
  if c = mark ∨ c = '\\' then ['\\', c]
  else if c = '\n' then ['\\', 'n']
  else if c = '\r' then ['\\', 'r']
  else if c = '\t' then ['\\', 't']
  else if isShown c then [c]
  else if c.toNat < 0x100 then '\\' :: 'x' :: hexDigits 2 c.toNat
  else if c.toNat < 0x10000 then '\\' :: 'u' :: hexDigits 4 c.toNat
  else '\\' :: 'U' :: hexDigits 8 c.toNat

/-- The quote that a text stands between. -/
def quoteMark (s : List Char) : Char := if '\'' ∈ s ∧ '"' ∉ s then '"' else '\''

/-- A text between quotes. -/
def quotedChars (s : List Char) : List Char :=
  quoteMark s :: (s.flatMap (quotedChar (quoteMark s)) ++ [quoteMark s])

/-- A text between quotes. -/
def quoted (s : String) : String := String.ofList (quotedChars s.toList)

/-- A list of quoted texts between brackets. -/
def quotedList (items : List String) : String :=
  "[" ++ String.intercalate ", " (items.map quoted) ++ "]"

end BrokerLoad
