import BrokerLoad.Time

/-!
# Send schedules

A schedule fixes when each message is due: message `k` at `start + k * interval`. Deadlines hang on
the start and never on the send before, so a slow send does not push back the ones after it.

## Main definitions

* `Schedule.deadline`: when a message is due.
* `Schedule.lastDue`: the last message due at a given time.
-/

namespace BrokerLoad

/-- Deadlines at a fixed interval from a start. -/
structure Schedule (τ : Type) [Seconds τ] where
  start : τ
  interval : τ
  interval_pos : Seconds.lt Seconds.zero interval = true

namespace Schedule

variable {τ : Type} [Seconds τ]

/-- A schedule needs a positive interval. -/
def make (start interval : τ) : Except ConfigError (Schedule τ) :=
  if h : Seconds.lt Seconds.zero interval = true then .ok ⟨start, interval, h⟩
  else .error (.interval (Seconds.text interval))

/-- When message `k` is due. The interval is multiplied, not added up, so that rounding errors do
not build up. -/
def deadline (s : Schedule τ) (k : Int) : Except Fault τ :=
  if k < 0 then .error (.value (.negativeIndex k))
  else do return Seconds.add s.start (← Seconds.times k s.interval)

/-- The index of the last message due at `now`; `-1` before the start. -/
def lastDue (s : Schedule τ) (now : τ) : Except Fault Int :=
  if Seconds.lt now s.start then .ok (-1)
  else Seconds.wholeQuotient (Seconds.sub now s.start) s.interval

/-- The first `n` deadlines. -/
def take (s : Schedule τ) (n : Nat) : Except Fault (List τ) :=
  (List.range n).mapM fun (k : Nat) => s.deadline k

/-- The schedule as it shows itself. -/
def text (s : Schedule τ) : String :=
  "RateScheduler(start_time=" ++ Seconds.text s.start ++ ", interval=" ++
    Seconds.text s.interval ++ ")"

end Schedule

end BrokerLoad
