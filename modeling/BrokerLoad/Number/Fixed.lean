import BrokerLoad.Number.Shortest

/-!
# Decimals with a fixed number of places

The exact value is rounded to the asked number of places, a half going to the even digit, so the
text never depends on how the number would be written in full.

## Main definitions

* `fixedPlaces`: the text of a quotient of natural numbers with a fixed number of places.
* `Double.fixed`: the text of a number with a fixed number of places.
-/

namespace BrokerLoad

/-- `num / den` rounded half to even to `places` decimal places. -/
def fixedPlaces (places num den : Nat) : List Char :=
  let scaled := roundHalfEven (num * tenPow places) den
  let whole := decimalDigits (scaled / tenPow places)
  if places = 0 then whole
  else
    let fraction := decimalDigits (scaled % tenPow places)
    whole ++ '.' :: (List.replicate (places - fraction.length) '0' ++ fraction)

/-- The number with `places` decimal places; the sign is kept even when all digits are zero. -/
def Double.fixedChars (places : Nat) : Double → List Char
  | .nan => ['n', 'a', 'n']
  | .infinite s => signText s ++ ['i', 'n', 'f']
  | .finite s m => signText s ++ fixedPlaces places m.units unitsPerOne

/-- The text with a fixed number of places, such as `5.001` or `-0.000`. -/
def Double.fixed (places : Nat) (x : Double) : String := String.ofList (x.fixedChars places)

end BrokerLoad
