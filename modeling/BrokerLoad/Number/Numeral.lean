import BrokerLoad.Number.Fixed
import BrokerLoad.Text.Blank
import BrokerLoad.Text.Digit

/-!
# Numerals

Reading numbers from text. Both kinds of numeral may stand between blanks, start with a sign, use
the decimal digits of any script, and separate digits by single underscores. The four information
separators are no blanks here.

## Main definitions

* `readInteger`: an integer of at most `4300` digits, or why there is none.
* `readReal`: not-a-number, an infinity, or a signed decimal.
* `readDouble?`: the double-precision number nearest to a numeral.
* `integerText`: the text of an integer.
-/

namespace BrokerLoad

/-! ## §1 Characters of numerals -/

/-- The blanks that may surround a numeral. -/
def isNumeralBlank (c : Char) : Bool := isBlank c && !decide (28 ≤ c.toNat ∧ c.toNat ≤ 31)

/-- Whether a character is a decimal digit. -/
def isDecimalDigit (c : Char) : Bool := (decimalValue? c).isSome

/-- The number that a row of decimal digits denotes; other characters are passed over. -/
def digitsValue (digits : List Char) : Nat :=
  (digits.filterMap decimalValue?).foldl (fun n d => 10 * n + d) 0

/-- A sign in front of a numeral, and what follows it. -/
def takeSign : List Char → Bool × List Char
  | '-' :: rest => (true, rest)
  | '+' :: rest => (false, rest)
  | rest => (false, rest)

/-! ## §2 Integers -/

/-- The most digits that an integer numeral may have, in reading and in writing. -/
def maxIntegerDigits : Nat := 4300

/-- Why a text is no integer numeral. -/
inductive IntegerError where
  | malformed
  | tooManyDigits (count : Nat)
  deriving DecidableEq, Repr

/-- The digits of a run of digits and underscores, if every underscore separates two digits. -/
def joinGroups? (run : List Char) : Option (List Char) :=
  let groups := splitWhere (· == '_') run
  if groups.all fun g => !g.isEmpty then some groups.flatten else none

/-- Reads an integer numeral. The number of digits is looked at before what follows them. -/
def readIntegerChars (text : List Char) : Except IntegerError Int :=
  let (negative, body) := takeSign (text.dropWhile isNumeralBlank)
  let inRun := fun c => isDecimalDigit c || c == '_'
  match joinGroups? (body.takeWhile inRun) with
  | none => .error .malformed
  | some digits =>
    if maxIntegerDigits < digits.length then .error (.tooManyDigits digits.length)
    else if (body.dropWhile inRun).all isNumeralBlank then
      .ok (if negative then -(digitsValue digits : Int) else digitsValue digits)
    else .error .malformed

/-- Reads an integer numeral. -/
def readInteger (text : String) : Except IntegerError Int := readIntegerChars text.toList

/-- The characters of an integer. -/
def integerChars (n : Int) : List Char := signText (decide (n < 0)) ++ decimalDigits n.natAbs

/-- The text of an integer. -/
def integerText (n : Int) : String := String.ofList (integerChars n)

/-- The text of an integer that may be unknown. -/
def knownIntegerText : Option Int → String
  | some n => integerText n
  | none => "None"

/-- Whether an integer has few enough digits to be written where the limit holds. -/
def isWritable (n : Int) : Bool := decide (Double.decimalLength n.natAbs ≤ maxIntegerDigits)

/-! ## §3 Reals -/

/-- What a real numeral denotes. -/
inductive Reading where
  | nan
  | infinite (negative : Bool)
  | decimal (negative : Bool) (digits : Nat) (exponent : Int)
  deriving DecidableEq, Repr

/-- Whether every underscore stands between two digits; `afterDigit` tells whether the character
in front is a digit. -/
def underscoresSeparate : Bool → List Char → Bool
  | _, [] => true
  | afterDigit, '_' :: rest =>
    match rest with
    | [] => false
    | c :: _ => afterDigit && isDecimalDigit c && underscoresSeparate false rest
  | _, c :: rest => underscoresSeparate (isDecimalDigit c) rest

/-- The exponent part of a decimal: nothing, or the letter, a sign and at least one digit. -/
def readExponent? : List Char → Option Int
  | [] => some 0
  | c :: rest =>
    let (negative, digits) := takeSign rest
    if (c = 'e' ∨ c = 'E') ∧ !digits.isEmpty ∧ digits.all isDecimalDigit then
      some (if negative then -(digitsValue digits : Int) else digitsValue digits)
    else none

/-- An unsigned decimal: digits with at most one point among them, and an exponent. -/
def readDecimal? (body : List Char) : Option (Nat × Int) :=
  let whole := body.takeWhile isDecimalDigit
  let (fraction, rest) :=
    match body.dropWhile isDecimalDigit with
    | '.' :: tail => (tail.takeWhile isDecimalDigit, tail.dropWhile isDecimalDigit)
    | tail => ([], tail)
  if whole.isEmpty && fraction.isEmpty then none
  else (readExponent? rest).map fun e => (digitsValue (whole ++ fraction), e - fraction.length)

/-- Reads a real numeral; the names of infinity and not-a-number may be in any case. -/
def readReal (text : List Char) : Option Reading :=
  let (negative, body) := takeSign (trimWhere isNumeralBlank text)
  let name := body.map Char.toLower
  if name = "inf".toList ∨ name = "infinity".toList then some (.infinite negative)
  else if name = "nan".toList then some .nan
  else if underscoresSeparate false body then
    (readDecimal? (body.filter (· != '_'))).map fun (digits, exponent) =>
      .decimal negative digits exponent
  else none

/-- The double-precision number nearest to a reading. -/
def Double.ofReading : Reading → Double
  | .nan => .nan
  | .infinite negative => .infinite negative
  | .decimal negative digits exponent => .ofDecimal negative digits exponent

/-- Reads a double-precision number. -/
def readDouble? (text : String) : Option Double := (readReal text.toList).map Double.ofReading

end BrokerLoad
