import BrokerLoad.CommandLine.Outcome
import BrokerLoad.CommandLine.Settings
import BrokerLoad.Fleet.Run

/-!
# The runner's command line

The runner takes the numbers of publishers and subscribers, the payload size, the duration and the
interval, checks them before anything starts, performs one run, prints its summary and writes the
results table if one is asked for.

## Main definitions

* `RunnerProgram.command`: the syntax of the command line.
* `RunnerProgram.run`: runs a command line.
-/

namespace BrokerLoad.RunnerProgram

open CommandLine

/-! ## §1 The syntax -/

/-- The options and operands. -/
def command : Command where
  name := "loadbench"
  switches := [
    helpSwitch,
    ⟨["--broker"], "broker", .text⟩,
    ⟨["--topic"], "topic", .text⟩,
    ⟨["--qos"], "qos", .choice [0, 1, 2]⟩,
    ⟨["--warmup"], "warmup", .real⟩,
    ⟨["--grace"], "grace", .real⟩,
    ⟨["--stop-grace"], "stop_grace", .real⟩,
    ⟨["--client-exe"], "client_exe", .text⟩,
    ⟨["--build-cmd"], "build_cmd", .text⟩,
    ⟨["--results-csv"], "results_csv", .text⟩,
    ⟨["-v", "--verbose"], "verbose", .flag⟩]
  operands := [
    ⟨"publishers", .integer⟩,
    ⟨"subscribers", .integer⟩,
    ⟨"payload_size", .integer⟩,
    ⟨"duration", .real⟩,
    ⟨"interval", .real⟩]

/-- The plan that a command line asks for. -/
def planOf (defaults : Defaults) (p : Parsed) : Except Fault (Plan Double) := do
  let broker ← p.broker defaults.broker
  Plan.ofAttempts .config (p.count "publishers" 0) (p.count "subscribers" 0)
    (p.count "payload_size" 0) (p.span "duration" 0) (p.span "interval" 0)
    (ClientSettings.ofAttempts .config broker (p.topic defaults.topic) (p.qos defaults.qos)
      (.ok defaultKeepalive) none none)

/-- The waiting times that a command line asks for. -/
def patienceOf (p : Parsed) : Patience Double where
  warmup := p.real "warmup" Patience.standardWarmup
  graceMargin := p.real "grace" Patience.standardGrace
  stopGrace := p.real "stop_grace" Patience.standardStop

/-- The client that a command line asks for. -/
def buildOf (interpreter : String) (p : Parsed) : Build :=
  match p.filled? "client_exe" with
  | some executable => .external executable ((p.filled? "build_cmd").map .line)
  | none => .bundled interpreter

/-! ## §2 Running -/

/-- What the runner works with: the machine, the interpreter of the bundled client, the defaults and
the working directory. -/
structure Setting (σ π : Type) where
  host : Host Double σ π
  workshop : Workshop σ
  interpreter : String
  defaults : Defaults := {}
  directory : Directory := {}

variable {σ π : Type}

/-- The name of the program's logger. -/
def logger : String := "loadbench.runner"

/-- A record of the program's logger. -/
def logNote (level : Level) (text : String) : Deed Double π := .log ⟨level, logger, text⟩

/-- Prints the summary, writes the results table if one is asked for, and exits with the summary's
code. -/
def report (s : Setting σ π) (p : Parsed) (setup : LogSetup) (notes : List (Deed Double π))
    (summary : Summary Double π) : Outcome (Deed Double π) :=
  match summary.text with
  | .error f => { ending := .fault f, files := s.directory, setup, notes }
  | .ok text =>
    let printed : Outcome (Deed Double π) :=
      { ending := .exit summary.exitCode, output := text ++ "\n", files := s.directory, setup,
        notes }
    match p.filled? "results_csv" with
    | none => printed
    | some path =>
      match s.directory.write path (summary.csv s.host.pid) with
      | .error f => { printed with ending := .fault f }
      | .ok files =>
        { printed with files, notes := notes ++ [logNote .info ("Results written to " ++ path)] }

/-- Performs a run and reports it. A client that cannot be built fails the run. -/
def perform (s : Setting σ π) (p : Parsed) (setup : LogSetup) (plan : Plan Double) (env : σ) :
    Outcome (Deed Double π) :=
  let yard : Yard Double σ π :=
    { host := s.host, workshop := s.workshop, plan, build := buildOf s.interpreter p
      patience := patienceOf p }
  let (outcome, after) := Action.runFrom (Fleet.run yard) { state := { env } }
  match outcome with
  | .ok summary => report s p setup after.history summary
  | .error (.fault (.build e)) =>
    report s p setup (after.history ++ [logNote .error e.message])
      { publishers := plan.publishers, subscribers := plan.subscribers, buildFailed := true }
  | .error stop => { ending := .ofStop stop, files := s.directory, setup, notes := after.history }

/-- Runs a command line. -/
def run (s : Setting σ π) (arguments : List String) (env : σ) : Outcome (Deed Double π) :=
  match command.parse arguments with
  | .error refusal => .ofRefusal s.directory .none refusal
  | .ok p =>
    let setup := LogSetup.none.enable (p.flag "verbose")
    if (p.filled? "build_cmd").isSome && (p.filled? "client_exe").isNone then
      .ofComplaint s.directory setup command.name "--build-cmd needs --client-exe"
    else match planOf s.defaults p with
      | .error (.config e) => .ofComplaint s.directory setup command.name e.message
      | .error f => { ending := .fault f, files := s.directory, setup }
      | .ok plan => perform s p setup plan env

end BrokerLoad.RunnerProgram
