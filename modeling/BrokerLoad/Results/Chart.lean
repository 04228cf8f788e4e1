import BrokerLoad.CommandLine.Outcome
import BrokerLoad.Results.Rates

/-!
# The chart of a series

The rates of all publishers that succeeded are drawn as one box, with a line at the rate that was
asked for, and the share of publishers that succeeded is printed.

## Main definitions

* `ChartStep`: the steps of drawing.
* `ChartProgram.run`: runs a command line.
-/

namespace BrokerLoad

/-- The steps of drawing a chart. -/
inductive ChartStep where
  | figure
  | boxes (rates : List Double) (label : String)
  | level (height : Double) (style label : String)
  | yLabel (text : String)
  | title (text : String)
  | legend
  | grid
  | show
  deriving DecidableEq

namespace ChartProgram

open CommandLine

/-- The options. -/
def command : Command where
  name := "plot_results.py"
  switches := [
    helpSwitch,
    ⟨["--pattern"], "pattern", .text⟩,
    ⟨["--interval"], "interval", .real⟩]

/-- The pattern of the tables that are loaded if no other is asked for. -/
def defaultPattern : String := "results_run_*.csv"

/-- The share `part / whole`, rounded to a double-precision number. -/
def share (part whole : Nat) : Double := .ofRatio false (part * unitsPerOne) whole

/-- The rate that belongs to an interval. One of zero has none, and neither has an empty one. -/
def targetRate (interval : Option Double) : Except Fault Double := do
  let interval ← needed .quotient interval
  if interval.isZero then throw .divisionByZero
  return 1 / interval

/-- Draws the chart of some rates; without a rate to compare them with it stays unfinished. -/
def draw (rates : List Double) (interval : Option Double) : List ChartStep × Except Fault Unit :=
  let boxes := [.figure, .boxes rates "Publishers"]
  match targetRate interval with
  | .error f => (boxes, .error f)
  | .ok rate =>
    (boxes ++ [.level rate "--" "Target rate", .yLabel "Messages per second",
      .title "Achieved Publish Rate", .legend, .grid, .show], .ok ())

/-- The outcome for the rows of the publishers. -/
def chartRows (d : Directory) (rows : List SheetRow) (interval : Option Double) :
    Outcome ChartStep :=
  match achievedRates rows with
  | .error f => { ending := .fault f, files := d }
  | .ok rates =>
    let succeeded := rows.countP fun r => r.cell? "status" = some (some "success")
    let output := "Publisher success ratio: " ++ (share succeeded rows.length).fixed 4 ++ "\n"
    let (notes, outcome) := draw rates interval
    { ending := match outcome with
        | .ok () => .returned
        | .error f => .fault f
      output, files := d, notes }

/-- Runs a command line in a directory with results tables. -/
def run (d : Directory) (arguments : List String) : Outcome ChartStep :=
  match command.parse arguments with
  | .error refusal => .ofRefusal d .none refusal
  | .ok p =>
    let found := do
      let pattern ← needed .path (p.text "pattern" defaultPattern)
      return (pattern, ← loadRows d pattern "publisher")
    match found with
    | .error f => { ending := .fault f, files := d }
    | .ok (pattern, []) =>
      { ending := .returned, output := "No publisher rows in " ++ pattern ++ "\n", files := d }
    | .ok (_, rows) => chartRows d rows (p.real "interval" (.ofDecimal false 2 (-2)))

end ChartProgram

end BrokerLoad
