import BrokerLoad.CommandLine.Parse
import BrokerLoad.Config.Plan

/-!
# Settings from a command line

The programs take the broker, the topic and the numbers of a plan from their command lines. A value
that was given as an empty one is a fault, but only when it is needed: whatever is checked before it
is refused on its own account.

## Main definitions

* `Parsed.broker`, `Parsed.topic`, `Parsed.qos`, `Parsed.keepalive`: what clients need.
* `Parsed.count`, `Parsed.span`: whole numbers and times of a plan.
-/

namespace BrokerLoad.CommandLine.Parsed

/-- The broker of a command line. -/
def broker (p : Parsed) (default : String) : Except Fault BrokerAddress := do
  let text ← needed .trimming (p.text "broker" default)
  (BrokerAddress.parse text).mapError .config

/-- The topic of a command line. An empty value is as good as an empty text. -/
def topic (p : Parsed) (default : String) : String := (p.text "topic" default).getD ""

/-- The quality of service of a command line. -/
def qos (p : Parsed) (default : Int) : Except Fault Int :=
  match p.integer "qos" default with
  | some qos => .ok qos
  | none => .error (.config (.qos none))

/-- The keep-alive time of a command line. -/
def keepalive (p : Parsed) : Except Fault Int :=
  needed (.comparison "<=") (p.integer "keepalive" defaultKeepalive)

/-- A whole number of a plan. -/
def count (p : Parsed) (key : String) (default : Int) : Except Fault Int :=
  needed (.comparison "<") (p.integer key default)

/-- A time of a plan. -/
def span (p : Parsed) (key : String) (default : Double) : Except Fault Double :=
  needed (.comparison ">") (p.real key default)

end BrokerLoad.CommandLine.Parsed
