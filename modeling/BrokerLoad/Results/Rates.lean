import BrokerLoad.Client.Report
import BrokerLoad.Files.Search
import BrokerLoad.Table.Sheet

/-!
# Rates from results tables

After some runs the results tables are read back, and every publisher that succeeded gives a rate:
the messages it sent per second.

## Main definitions

* `loadRows`: the rows of a role in all tables whose names fit a pattern.
* `achievedRates`: the rates of the publishers that succeeded.
-/

namespace BrokerLoad

/-- The cell of a column that has to be there. -/
def SheetRow.require (r : SheetRow) (column : String) : Except Fault (Option String) :=
  match r.cell? column with
  | some cell => .ok cell
  | none => .error (.missingKey column)

/-- The rows of a role in one table, all of which have to be readable. -/
def rowsOfRole (role : String) : List (Option SheetRow) → Except Fault (List SheetRow)
  | [] => .ok []
  | none :: _ => .error .fieldTooLong
  | some row :: rest => do
    let found ← row.require "role"
    let more ← rowsOfRole role rest
    return if found = some role then row :: more else more

/-- The rows of a role in the tables at some paths. -/
def rowsOfPaths (d : Directory) (role : String) : List String → Except Fault (List SheetRow)
  | [] => .ok []
  | path :: rest => do
    let rows ← rowsOfRole role (readSheet (← d.read path))
    return rows ++ (← rowsOfPaths d role rest)

/-- The rows of a role in all tables whose names fit a pattern, in the order of the names. -/
def loadRows (d : Directory) (pattern role : String) : Except Fault (List SheetRow) := do
  rowsOfPaths d role (← d.pathsMatching pattern)

/-- Whether a cell is there and not empty. -/
def hasText : Option String → Bool
  | some text => text != ""
  | none => false

/-- The rate that a row gives, if its publisher succeeded and reported a positive time. -/
def rateOf (row : SheetRow) : Except Fault (Option Double) := do
  if (← row.require "status") ≠ some "success" then return none
  let sent ← row.require "sent"
  if !hasText sent then return none
  let elapsed ← row.require "elapsed"
  if !hasText elapsed then return none
  match readDouble? (elapsed.getD "") with
  | none => throw (.value (.real (elapsed.getD "")))
  | some seconds =>
    if Double.lt 0 seconds then
      let count ← Report.readCount (sent.getD "")
      return some ((← Double.ofInt? count) / seconds)
    else return none

/-- The rates of the publishers that succeeded, in the order of the rows. -/
def achievedRates : List SheetRow → Except Fault (List Double)
  | [] => .ok []
  | row :: rest => do
    let rate ← rateOf row
    return rate.toList ++ (← achievedRates rest)

end BrokerLoad
