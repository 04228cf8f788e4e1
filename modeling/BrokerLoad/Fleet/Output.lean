import BrokerLoad.Client.Report

/-!
# What a publisher's output says

The runner looks through the output of a publisher from its last line to its first, until a line
claims to be a report. Two forms are known: the report line of the bundled client, and
`PID <process> sent <count> messages` from external ones.

## Main definitions

* `Finding`: what a line or an output says.
* `findReport`: the finding of a whole output.
-/

namespace BrokerLoad

/-- What a publisher's output says: nothing, a full report, a report line that cannot be read, or a
bare count, whose digits may still be no numeral. -/
inductive Finding (τ : Type) where
  | nothing
  | report (r : Report τ)
  | unreadable (line : String)
  | count (sent : Except Fault Int)

variable {τ : Type} [Seconds τ]

/-- What one line says. -/
def readLine (line : List Char) : Finding τ :=
  if "sent=".toList.isPrefixOf line then
    match Report.parse (String.ofList line) with
    | .ok r => .report r
    | .error _ => .unreadable (String.ofList line)
  else match words line with
    | [first, _, third, count, _] =>
      if first = "PID".toList ∧ third = "sent".toList ∧ count.all isDigitLike then
        .count (Report.readCount (String.ofList count))
      else .nothing
    | _ => .nothing

/-- The finding of the first line that says something. -/
def firstFinding : List (List Char) → Finding τ
  | [] => .nothing
  | line :: rest =>
    match readLine line with
    | .nothing => firstFinding rest
    | found => found

/-- What an output says; its last lines come first. -/
def findReport (output : String) : Finding τ := firstFinding (lines output.toList).reverse

end BrokerLoad
