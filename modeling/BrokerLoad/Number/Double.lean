import BrokerLoad.Number.Rounding

/-!
# Double-precision numbers, exactly

Times and rates are binary floating-point numbers of 53 digits. Here such a number is exact data:
a finite one is a sign and a whole number of units of `2 ^ -1074`, the smallest positive value.
Every operation computes its exact result as a quotient of natural numbers and rounds it once, to
nearest, a half to the even neighbour. Nothing depends on the machine's own arithmetic, so every
definition can be unfolded in a proof.

## Main definitions

* `Double`: not-a-number, the infinities, and the finite numbers.
* `Double.ofRatio`: the one place where a number is rounded.
* `Double.add`, `sub`, `mul`, `div`, `fmod`, `floorDiv`: the arithmetic.
* `Double.lt`, `le`, `eq`: comparisons, false whenever an operand is not a number.
-/

namespace BrokerLoad

/-- The number of units of `2 ^ -1074` in `1`. -/
def unitsPerOne : Nat := twoPow 1074

/-- One more than the largest finite magnitude in units, up to its last place: from here on a
magnitude is infinite. -/
def unitsOverflow : Nat := twoPow 2098

/-- The magnitude of a finite number: a count of units of `2 ^ -1074` with at most 53 significant
binary digits. -/
structure Magnitude where
  units : Nat
  bounded : units < unitsOverflow
  exact : twoPow (lastPlace units) ∣ units
  deriving DecidableEq

/-- A double-precision number. Zero has two forms, one for each sign. -/
inductive Double where
  | nan
  | infinite (negative : Bool)
  | finite (negative : Bool) (magnitude : Magnitude)
  deriving DecidableEq

namespace Double

/-! ## §1 Rounding into the format -/

/-- The number nearest to `num / den` units with the given sign, infinite when the magnitude
rounds beyond the largest finite one. -/
def ofRatio (negative : Bool) (num den : Nat) : Double :=
  if h : roundDigits num den < unitsOverflow then
    .finite negative ⟨roundDigits num den, h, twoPow_lastPlace_dvd_roundDigits num den⟩
  else .infinite negative

/-- The number nearest to a signed count of units; a count of zero takes the sign `zeroSign`. -/
def ofUnits (zeroSign : Bool) (units : Int) : Double :=
  ofRatio (if units = 0 then zeroSign else decide (units < 0)) units.natAbs 1

/-- The number nearest to the integer `n`, infinite when `n` is too large. -/
def ofInt (n : Int) : Double := ofUnits false (n * unitsPerOne)

/-- Zero with a sign. -/
def zero (negative : Bool) : Double := ofUnits negative 0

instance : OfNat Double n := ⟨ofInt n⟩

instance : Inhabited Double := ⟨0⟩

/-! ## §2 Signs and parts -/

/-- The sign; not-a-number counts as positive. -/
def negative : Double → Bool
  | .nan => false
  | .infinite s => s
  | .finite s _ => s

/-- The number with the other sign. -/
protected def neg : Double → Double
  | .nan => .nan
  | .infinite s => .infinite (!s)
  | .finite s m => .finite (!s) m

/-- The signed count of units of a finite number. -/
def signedUnits (negative : Bool) (m : Magnitude) : Int :=
  if negative then -(m.units : Int) else m.units

/-- Whether the number is finite. -/
def isFinite : Double → Bool
  | .finite .. => true
  | _ => false

/-- Whether the number is one of the two zeros. -/
def isZero : Double → Bool
  | .finite _ m => m.units == 0
  | _ => false

/-! ## §3 Order -/

/-- The place of a number on a line where every infinity lies beyond every finite number. -/
private def rank : Double → Option Int
  | .nan => none
  | .infinite s => some (if s then -(unitsOverflow : Int) else unitsOverflow)
  | .finite s m => some (signedUnits s m)

/-- Strictly smaller; false when an operand is not a number. -/
def lt (x y : Double) : Bool :=
  match rank x, rank y with
  | some a, some b => decide (a < b)
  | _, _ => false

/-- Smaller or equal; false when an operand is not a number. -/
def le (x y : Double) : Bool :=
  match rank x, rank y with
  | some a, some b => decide (a ≤ b)
  | _, _ => false

/-- Equal in value: the two zeros are equal, and not-a-number differs from everything. -/
def eq (x y : Double) : Bool :=
  match rank x, rank y with
  | some a, some b => decide (a = b)
  | _, _ => false

/-! ## §4 Sum, product, quotient -/

/-- The rounded sum. Opposite infinities have none; an exact zero is negative only if both
operands are. -/
protected def add : Double → Double → Double
  | .finite s m, .finite t n => ofUnits (s && t) (signedUnits s m + signedUnits t n)
  | .infinite s, .infinite t => if s = t then .infinite s else .nan
  | .infinite s, .finite .. => .infinite s
  | .finite .., .infinite t => .infinite t
  | .nan, _ => .nan
  | _, .nan => .nan

/-- The rounded difference. -/
protected def sub (x y : Double) : Double := x.add y.neg

/-- The rounded product; zero times an infinity is not a number. -/
protected def mul : Double → Double → Double
  | .finite s m, .finite t n => ofRatio (s ^^ t) (m.units * n.units) unitsPerOne
  | .infinite s, .infinite t => .infinite (s ^^ t)
  | .infinite s, .finite t n => if n.units = 0 then .nan else .infinite (s ^^ t)
  | .finite s m, .infinite t => if m.units = 0 then .nan else .infinite (s ^^ t)
  | .nan, _ => .nan
  | _, .nan => .nan

/-- The rounded quotient; a finite number over zero is infinite, zero over zero not a number. -/
protected def div : Double → Double → Double
  | .finite s m, .finite t n =>
    if n.units = 0 then (if m.units = 0 then .nan else .infinite (s ^^ t))
    else ofRatio (s ^^ t) (m.units * unitsPerOne) n.units
  | .infinite _, .infinite _ => .nan
  | .infinite s, .finite t _ => .infinite (s ^^ t)
  | .finite s _, .infinite t => zero (s ^^ t)
  | .nan, _ => .nan
  | _, .nan => .nan

instance : Neg Double := ⟨Double.neg⟩
instance : Add Double := ⟨Double.add⟩
instance : Sub Double := ⟨Double.sub⟩
instance : Mul Double := ⟨Double.mul⟩
instance : Div Double := ⟨Double.div⟩

/-! ## §5 Remainder and whole parts -/

/-- The exact remainder of a division truncated toward zero, with the sign of the dividend. -/
def fmod : Double → Double → Double
  | .finite s m, .finite _ n =>
    if n.units = 0 then .nan
    else ofUnits s (if s then -((m.units % n.units : Nat) : Int) else (m.units % n.units : Nat))
  | .finite s m, .infinite _ => .finite s m
  | _, _ => .nan

/-- The largest whole number that is not above the argument. -/
def floor : Double → Double
  | .finite s m =>
    ofUnits s (Int.fdiv (signedUnits s m) unitsPerOne * unitsPerOne)
  | x => x

/-- The floor of a quotient, found from the exact remainder: subtract the remainder, divide, and
correct the quotient to a whole number. It can differ from the floor of the rounded quotient. -/
def floorDiv (x y : Double) : Double :=
  let rest := fmod x y
  let quotient := (x - rest) / y
  let quotient :=
    if !rest.isZero && (y.lt 0 != rest.lt 0) then quotient - 1 else quotient
  if quotient.isZero then zero (x / y).negative
  else
    let whole := quotient.floor
    if (ofUnits false (twoPow 1073)).lt (quotient - whole) then whole + 1 else whole

/-- The integer part of a finite number, toward zero. -/
def toInt? : Double → Option Int
  | .finite s m => some (Int.tdiv (signedUnits s m) unitsPerOne)
  | _ => none

/-! ## §6 Decimals -/

/-- How many decimal digits `n` has; none for zero. -/
def decimalLength (n : Nat) : Nat :=
  if n = 0 then 0 else (Nat.toDigits 10 n).length

/-- The number nearest to `digits * 10 ^ exponent`. Decimals far outside the range of the format
are recognised by their magnitude alone: from `10 ^ 400` on the number is infinite, and below
`10 ^ -400` it is zero. -/
def ofDecimal (negative : Bool) (digits : Nat) (exponent : Int) : Double :=
  let top := decimalLength digits + exponent
  if digits = 0 ∨ top < -400 then zero negative
  else if 400 < top then .infinite negative
  else if 0 ≤ exponent then
    ofRatio negative (digits * tenPow exponent.toNat * unitsPerOne) 1
  else ofRatio negative (digits * unitsPerOne) (tenPow (-exponent).toNat)

end Double

end BrokerLoad
