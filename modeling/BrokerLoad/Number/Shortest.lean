import BrokerLoad.Number.Double

/-!
# The shortest decimal that reads back

A finite number is written with the fewest significant decimal digits that lie in its rounding
interval, the set of reals that round to it. Of the decimals with that many digits the one nearest
to the number is taken, an exact tie going to the even digit. The text is positional for decimal
exponents from `-4` to `15` and has an exponent of at least two digits outside that range.

## Main definitions

* `Decimal`: a significand and a power of ten.
* `Magnitude.shortest`: the shortest decimal of a magnitude.
* `Double.text`: the text of a number.
-/

namespace BrokerLoad

/-- The decimal `digits * 10 ^ exponent`. -/
structure Decimal where
  digits : Nat
  exponent : Int
  deriving DecidableEq, Repr

namespace Decimal

/-- The numerator of a decimal in quarters of a unit of `2 ^ -1074`, over `denominator`. -/
def quarterUnits (d : Decimal) : Nat :=
  d.digits * tenPow d.exponent.toNat * (4 * unitsPerOne)

/-- The power of ten below the fraction bar. -/
def denominator (d : Decimal) : Nat := tenPow (-d.exponent).toNat

/-- The same decimal without trailing zeros, as long as `fuel` lasts. -/
def stripZeros : Nat → Decimal → Decimal
  | 0, d => d
  | fuel + 1, d =>
    if d.digits ≠ 0 ∧ d.digits % 10 = 0 then stripZeros fuel ⟨d.digits / 10, d.exponent + 1⟩ else d

end Decimal

namespace Magnitude

/-! ## §1 The rounding interval -/

/-- The lower end of the rounding interval in quarters of a unit. Below a power of two the
neighbours lie twice as close. -/
def lowerEnd (m : Magnitude) : Nat :=
  let place := lastPlace m.units
  if 0 < place ∧ m.units = twoPow (52 + place) then 4 * m.units - twoPow place
  else 4 * m.units - 2 * twoPow place

/-- The upper end of the rounding interval in quarters of a unit. -/
def upperEnd (m : Magnitude) : Nat := 4 * m.units + 2 * twoPow (lastPlace m.units)

/-- The ends belong to the interval when the last binary digit is even, as halves round to even. -/
def closedEnds (m : Magnitude) : Bool := m.units / twoPow (lastPlace m.units) % 2 == 0

/-- Whether a decimal lies in the rounding interval. -/
def admits (m : Magnitude) (d : Decimal) : Bool :=
  let value := d.quarterUnits
  let low := m.lowerEnd * d.denominator
  let high := m.upperEnd * d.denominator
  if m.closedEnds then decide (low ≤ value ∧ value ≤ high) else decide (low < value ∧ value < high)

/-! ## §2 The search -/

/-- The least `e` with value below `10 ^ e`. Scaled by `10 ^ 330` every magnitude but zero has a
whole part, whose length tells it. -/
def decimalTop (m : Magnitude) : Int :=
  (Double.decimalLength (m.units * tenPow 330 / unitsPerOne) : Int) - 330

/-- The decimal with last digit at `10 ^ exponent` next below the magnitude. -/
def decimalBelow (m : Magnitude) (exponent : Int) : Decimal :=
  ⟨m.units * tenPow (-exponent).toNat / (unitsPerOne * tenPow exponent.toNat), exponent⟩

/-- Whether `above` is nearer to the magnitude than its lower neighbour `below` on the same grid;
of two equally near the even one wins. -/
def prefersAbove (m : Magnitude) (below above : Decimal) : Bool :=
  let twice := 2 * 4 * m.units * below.denominator
  let sum := below.quarterUnits + above.quarterUnits
  if twice = sum then below.digits % 2 == 1 else decide (sum < twice)

/-- The first grid, from `10 ^ exponent` on to finer ones, with a decimal in the interval. With
seventeen digits there always is one. -/
def searchShortest (m : Magnitude) : Nat → Int → Decimal
  | 0, exponent => m.decimalBelow exponent
  | fuel + 1, exponent =>
    let below := m.decimalBelow exponent
    let above := { below with digits := below.digits + 1 }
    match m.admits below, m.admits above with
    | true, true => if m.prefersAbove below above then above else below
    | true, false => below
    | false, true => above
    | false, false => searchShortest m fuel (exponent - 1)

/-- The shortest decimal that reads back as the magnitude. -/
def shortest (m : Magnitude) : Decimal :=
  if m.units = 0 then ⟨0, 0⟩
  else Decimal.stripZeros 20 (searchShortest m 18 (m.decimalTop - 1))

end Magnitude

/-! ## §3 The text -/

/-- The decimal digits of a natural number. -/
def decimalDigits (n : Nat) : List Char := Nat.toDigits 10 n

/-- The exponent's sign and at least two digits. -/
def exponentText (e : Int) : List Char :=
  let digits := decimalDigits e.natAbs
  (if e < 0 then '-' else '+') :: (if digits.length < 2 then '0' :: digits else digits)

/-- The text of a decimal: positional when its first digit stands between `10 ^ -4` and `10 ^ 15`,
with an exponent otherwise. A positional text always shows a point. -/
def Decimal.text (d : Decimal) : List Char :=
  let digits := decimalDigits d.digits
  let point := digits.length + d.exponent
  if -4 < point ∧ point ≤ 16 then
    if point ≤ 0 then '0' :: '.' :: (List.replicate (-point).toNat '0' ++ digits)
    else if 0 ≤ d.exponent then
      digits ++ List.replicate d.exponent.toNat '0' ++ ['.', '0']
    else digits.take point.toNat ++ '.' :: digits.drop point.toNat
  else
    digits.take 1 ++ (if digits.length = 1 then [] else '.' :: digits.drop 1) ++
      'e' :: exponentText (point - 1)

/-- A minus sign for negative numbers. -/
def signText (negative : Bool) : List Char := if negative then ['-'] else []

/-- The shortest text that reads back as the number. -/
def Double.chars : Double → List Char
  | .nan => ['n', 'a', 'n']
  | .infinite s => signText s ++ ['i', 'n', 'f']
  | .finite s m => signText s ++ m.shortest.text

/-- The shortest text that reads back as the number, such as `0.1`, `5.0`, `1e-05`, `nan`. -/
def Double.text (x : Double) : String := String.ofList x.chars

end BrokerLoad
