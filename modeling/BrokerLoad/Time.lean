import BrokerLoad.Fault

/-!
# Quantities of time

The load test adds, compares and divides times. `Seconds` gathers what it needs of them, so that
every rule on deadlines is written once and holds for two kinds of time: the double-precision
numbers that a run computes with, and exact rational numbers, where no sum is ever rounded.

## Main definitions

* `Seconds`: the operations on times.
* `Seconds.min`, `Seconds.max`: the first operand wins unless the second is strictly better.
* `instSecondsDouble`, `instSecondsRat`: the two kinds of time.
-/

namespace BrokerLoad

/-- What a load test does with times. A product can be too large for a time, and a quotient of
times can have no whole part. -/
class Seconds (τ : Type) where
  zero : τ
  add : τ → τ → τ
  sub : τ → τ → τ
  lt : τ → τ → Bool
  le : τ → τ → Bool
  /-- The given number of intervals. -/
  times : Int → τ → Except Fault τ
  /-- How many whole intervals fit into a time. -/
  wholeQuotient : τ → τ → Except Fault Int
  /-- The time `digits * 10 ^ exponent`. -/
  ofDecimal : Nat → Int → τ
  /-- The full text. -/
  text : τ → String
  /-- The text with a fixed number of decimal places. -/
  fixed : Nat → τ → String
  /-- The time that a numeral denotes. -/
  ofReading : Reading → Option τ

namespace Seconds

variable {τ : Type} [Seconds τ]

/-- The first time, unless the second is strictly earlier. -/
def min (x y : τ) : τ := if lt y x then y else x

/-- The first time, unless the second is strictly later. -/
def max (x y : τ) : τ := if lt x y then y else x

/-- Reads a time. -/
def read (text : String) : Except ValueError τ :=
  match (readReal text.toList).bind ofReading with
  | some t => .ok t
  | none => .error (.real text)

end Seconds

/-! ## §1 Double-precision times -/

/-- An integer as a double-precision number, if it is not too large for one. -/
def Double.ofInt? (n : Int) : Except Fault Double :=
  match Double.ofInt n with
  | .infinite _ => .error (.overflow .integerTooLarge)
  | x => .ok x

/-- The integer part of a number, toward zero. -/
def Double.toInt (x : Double) : Except Fault Int :=
  match x with
  | .nan => .error (.value .notANumber)
  | .infinite _ => .error (.overflow .infinite)
  | .finite .. => .ok (x.toInt?.getD 0)

instance instSecondsDouble : Seconds Double where
  zero := 0
  add := Double.add
  sub := Double.sub
  lt := Double.lt
  le := Double.le
  times k x := do return (← Double.ofInt? k) * x
  wholeQuotient x y := (x.floorDiv y).toInt
  ofDecimal := Double.ofDecimal false
  text := Double.text
  fixed := Double.fixed
  ofReading r := some (Double.ofReading r)

/-! ## §2 Exact times -/

/-- A rational number as a fraction, or as an integer if it is one. -/
def rationalText (q : Rat) : String :=
  if q.den = 1 then integerText q.num else integerText q.num ++ "/" ++ toString q.den

/-- A rational number with a fixed number of decimal places. -/
def rationalFixed (places : Nat) (q : Rat) : String :=
  String.ofList (signText (decide (q < 0)) ++ fixedPlaces places q.num.natAbs q.den)

/-- The power of ten with an integer exponent. -/
def tenScale (exponent : Int) : Rat :=
  if 0 ≤ exponent then (tenPow exponent.toNat : Nat)
  else 1 / ((tenPow (-exponent).toNat : Nat) : Rat)

instance instSecondsRat : Seconds Rat where
  zero := 0
  add x y := x + y
  sub x y := x - y
  lt x y := decide (x < y)
  le x y := decide (x ≤ y)
  times k x := .ok (k * x)
  wholeQuotient x y := .ok (x / y).floor
  ofDecimal digits exponent := digits * tenScale exponent
  text := rationalText
  fixed := rationalFixed
  ofReading
    | .decimal negative digits exponent =>
      some ((if negative then -1 else 1) * (digits * tenScale exponent))
    | _ => none

end BrokerLoad
