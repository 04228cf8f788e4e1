import BrokerLoad.CommandLine.Parse
import BrokerLoad.Action
import BrokerLoad.Files.Directory
import BrokerLoad.Log

/-!
# Outcomes of command lines

A command line ends with an exit code, by returning without one, or with a fault that nobody
handled. It may have printed something, written files and logged records.

## Main definitions

* `Ending`, `Outcome`: how a command line ended and what it left behind.
-/

namespace BrokerLoad

/-- How a command line ended. -/
inductive Ending where
  | returned
  | exit (code : Int)
  | fault (f : Fault)
  | outOfFuel
  deriving DecidableEq, Repr

/-- The ending for an action that stopped early. -/
def Ending.ofStop : Stop → Ending
  | .fault f => .fault f
  | .outOfFuel => .outOfFuel

/-- How a command line ended and what it left behind. -/
structure Outcome (ν : Type) where
  ending : Ending
  usage : Option CommandLine.UsageError := none
  output : String := ""
  files : Directory := {}
  setup : LogSetup := .none
  notes : List ν := []

namespace Outcome

variable {ν : Type}

/-- The outcome of a command line that was refused or asked for help. -/
def ofRefusal (files : Directory) (setup : LogSetup) : CommandLine.Refusal → Outcome ν
  | .help => { ending := .exit 0, files, setup }
  | .usage e => { ending := .exit 2, usage := some e, files, setup }

/-- The outcome of a complaint about arguments that were read. -/
def ofComplaint (files : Directory) (setup : LogSetup) (command text : String) : Outcome ν :=
  ofRefusal files setup (.usage ⟨command, .other text⟩)

end Outcome

end BrokerLoad
