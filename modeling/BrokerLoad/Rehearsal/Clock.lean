import BrokerLoad.Time

/-!
# Sleeping in rehearsals

A rehearsal runs against a script instead of a network or a machine. Its clock moves only when the
script says so, and by exactly the time asked for when something sleeps.

## Main definitions

* `sleepFault?`: why a sleep is refused.
* `isEndless`: whether a clock has run through all of time.
-/

namespace BrokerLoad

/-- Why a sleep of a given length is refused: what is no number or negative cannot be slept, and
the script may name a fault of its own. -/
def sleepFault? {τ : Type} [Seconds τ] (duration : τ) (scripted : Option Fault) : Option Fault :=
  if !Seconds.le duration duration then some (.value (.other "Invalid value NaN (not a number)"))
  else if Seconds.lt duration Seconds.zero then
    some (.value (.other "sleep length must be non-negative"))
  else scripted

/-- Whether a clock shows a time that no moment is later than: such a time takes nothing away from
itself but leaves no zero. Exact times are never endless. -/
def isEndless {τ : Type} [Seconds τ] (now : τ) : Bool :=
  Seconds.le Seconds.zero now && !Seconds.le (Seconds.sub now now) Seconds.zero

end BrokerLoad
