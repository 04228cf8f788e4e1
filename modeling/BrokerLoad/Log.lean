/-!
# Log records

What the load test tells its operator: records with a level, the name of the logger and a text.
Setting up the log decides once which records are written; later attempts change nothing.

## Main definitions

* `Level`, `LogRecord`: what is logged.
* `LogSetup`: which records are written, and how they look.
-/

namespace BrokerLoad

/-- How urgent a record is. -/
inductive Level where
  | debug | info | warning | error | critical
  deriving DecidableEq, Repr

namespace Level

/-- The level's place in the order of urgency. -/
def rank : Level → Nat
  | debug => 10
  | info => 20
  | warning => 30
  | error => 40
  | critical => 50

/-- The level's name. -/
def name : Level → String
  | debug => "DEBUG"
  | info => "INFO"
  | warning => "WARNING"
  | error => "ERROR"
  | critical => "CRITICAL"

end Level

/-- One record of the log. -/
structure LogRecord where
  level : Level
  logger : String
  text : String
  deriving DecidableEq, Repr

/-- The name of the logger that stands above all others. -/
def rootLogger : String := "root"

/-- The record as a line, with `time` in front. A logger without a name is the one above all
others. -/
def LogRecord.line (time : String) (r : LogRecord) : String :=
  let logger := if r.logger = "" then rootLogger else r.logger
  time ++ " [" ++ logger ++ "] " ++ r.level.name ++ " " ++ r.text

/-- Whether and from which level on records are written. -/
inductive LogSetup where
  | none
  | since (threshold : Level)
  deriving DecidableEq, Repr

namespace LogSetup

/-- Sets up the log, from `debug` on when `verbose` and from `info` on otherwise. A log that is
set up already stays as it is. -/
def enable (verbose : Bool) : LogSetup → LogSetup
  | .none => .since (if verbose then .debug else .info)
  | .since threshold => .since threshold

/-- The level from which records count. Before the setup that is `warning`. -/
def threshold : LogSetup → Level
  | .none => .warning
  | .since level => level

/-- Whether a record counts. -/
def admits (setup : LogSetup) (r : LogRecord) : Bool :=
  decide (setup.threshold.rank ≤ r.level.rank)

/-- What is written for some records: nothing before the setup, a line for each record that counts
after it. -/
def written (setup : LogSetup) (time : String) (records : List LogRecord) : String :=
  match setup with
  | .none => ""
  | .since _ => String.join ((records.filter setup.admits).map fun r => r.line time ++ "\n")

end LogSetup

end BrokerLoad
