import BrokerLoad.Fleet.Program

/-!
# A series of runs

A series performs the same load test several times. Every run starts with no records, and its
results go to a table of its own in the working directory.

## Main definitions

* `SeriesProgram.command`: the syntax of the command line.
* `SeriesProgram.run`: runs a command line.
-/

namespace BrokerLoad.SeriesProgram

open CommandLine

/-! ## §1 The syntax -/

/-- The options. -/
def command : Command where
  name := "runner.py"
  switches := [
    helpSwitch,
    ⟨["--broker"], "broker", .text⟩,
    ⟨["--topic"], "topic", .text⟩,
    ⟨["--runs"], "runs", .integer⟩,
    ⟨["--publishers"], "publishers", .integer⟩,
    ⟨["--subscribers"], "subscribers", .integer⟩,
    ⟨["--payload"], "payload", .integer⟩,
    ⟨["--duration"], "duration", .real⟩,
    ⟨["--interval"], "interval", .real⟩]

/-- The plan that a command line asks for. -/
def planOf (defaultQos : Int) (p : Parsed) : Except Fault (Plan Double) := do
  let broker ← p.broker "localhost:1883"
  Plan.ofAttempts .config (p.count "publishers" 10) (p.count "subscribers" 5)
    (p.count "payload" 100) (p.span "duration" (.ofDecimal false 10 0))
    (p.span "interval" (.ofDecimal false 2 (-2)))
    (ClientSettings.ofAttempts .config broker (p.topic "test") (.ok defaultQos)
      (.ok defaultKeepalive) none none)

/-- The name of the table of a run. -/
def tableName (run : Nat) : String := "results_run_" ++ toString run ++ ".csv"

/-! ## §2 Running -/

variable {σ π : Type}

/-- What a series has left behind so far. -/
structure Progress (σ π : Type) where
  env : σ
  output : String := ""
  files : Directory
  notes : List (Deed Double π) := []

/-- Performs one run of a series. `renew` prepares the machine for it. -/
def performOne (s : RunnerProgram.Setting σ π) (renew : σ → σ) (plan : Plan Double) (runs : Int)
    (number : Nat) (p : Progress σ π) : Except Stop Unit × Progress σ π :=
  let yard : Yard Double σ π :=
    { host := s.host, workshop := s.workshop, plan, build := .bundled s.interpreter
      patience := .standard }
  let output := p.output ++ "Run " ++ toString (number + 1) ++ "/" ++ integerText runs ++ "\n"
  let (outcome, after) := Action.runFrom (Fleet.run yard) { state := { env := renew p.env } }
  let p := { p with env := after.state.env, output, notes := p.notes ++ after.history }
  match outcome with
  | .error stop => (.error stop, p)
  | .ok summary =>
    match p.files.write (tableName number) (summary.csv s.host.pid) with
    | .error f => (.error (.fault f), p)
    | .ok files =>
      match summary.text with
      | .error f => (.error (.fault f), { p with files })
      | .ok text => (.ok (), { p with files, output := output ++ text ++ "\n" })

/-- Performs `count` runs, numbered from `number` on. -/
def performFrom (s : RunnerProgram.Setting σ π) (renew : σ → σ) (plan : Plan Double) (runs : Int)
    (number : Nat) : Nat → Progress σ π → Except Stop Unit × Progress σ π
  | 0, p => (.ok (), p)
  | count + 1, p =>
    match performOne s renew plan runs number p with
    | (.ok (), p) => performFrom s renew plan runs (number + 1) count p
    | stopped => stopped

/-- Runs a command line. -/
def run (s : RunnerProgram.Setting σ π) (renew : σ → σ) (arguments : List String) (env : σ) :
    Outcome (Deed Double π) :=
  match command.parse arguments with
  | .error refusal => .ofRefusal s.directory .none refusal
  | .ok p =>
    let setup := LogSetup.none.enable false
    let task := do
      let plan ← planOf s.defaults.qos p
      let runs ← needed .count (p.integer "runs" 10)
      return (plan, runs)
    match task with
    | .error f => { ending := .fault f, files := s.directory, setup }
    | .ok (plan, runs) =>
      let (outcome, after) := performFrom s renew plan runs 0 runs.toNat
        { env, files := s.directory }
      { ending := match outcome with
          | .ok () => .returned
          | .error stop => .ofStop stop
        output := after.output, files := after.files, setup, notes := after.notes }

end BrokerLoad.SeriesProgram
