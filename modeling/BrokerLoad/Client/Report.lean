import BrokerLoad.Time

/-!
# Publisher reports

A publisher that has finished prints one line with the number of messages sent and the time it
took. The runner reads the counts back from that line.

## Main definitions

* `Report.line`: the line a publisher prints.
* `Report.parse`: reads such a line.
-/

namespace BrokerLoad

/-- What a publisher achieved. -/
structure Report (τ : Type) where
  sent : Int
  elapsed : τ
  errors : Nat := 0

namespace Report

variable {τ : Type} [Seconds τ]

/-- The line that reports a result; the time has three decimal places. -/
def line (r : Report τ) : String :=
  "sent=" ++ integerText r.sent ++ " elapsed=" ++ Seconds.fixed 3 r.elapsed

/-- The words of a line that hold an equals sign, cut at the first one. -/
def fields (text : List Char) : List (List Char × List Char) :=
  (words text).filterMap (cutFirst? '=')

/-- The value of a field; the last field of a name counts. -/
def field (fields : List (List Char × List Char)) (name : String) : Except Fault String :=
  match fields.reverse.find? (·.1 = name.toList) with
  | some (_, value) => .ok (String.ofList value)
  | none => .error (.missingKey name)

/-- An integer, or why the text is none. -/
def readCount (text : String) : Except Fault Int :=
  match readInteger text with
  | .ok n => .ok n
  | .error cause => .error (.value (.integer cause text))

/-- Reads a report line: the count first, then the time. -/
def parse (text : String) : Except Fault (Report τ) := do
  let fields := fields text.toList
  let sent ← readCount (← field fields "sent")
  match Seconds.read (← field fields "elapsed") with
  | .ok elapsed => return { sent, elapsed }
  | .error e => throw (.value e)

end Report

end BrokerLoad
