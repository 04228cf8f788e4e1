import BrokerLoad.Client.Program
import BrokerLoad.Rehearsal.Machine
import BrokerLoad.Rehearsal.Network
import BrokerLoad.Results.Chart
import BrokerLoad.Results.Series

/-!
# The command line

The first word chooses a program: `client`, `runner`, `series` or `chart`; the rest are its
arguments. Clients and runs are rehearsed: the broker accepts everything and then asks to stop,
publishers end at once, subscribers when they are asked to, and time is that of the script. What a
program prints goes to the standard output, its log and its complaints go to the standard error, and
its files to the working directory.

## Main definitions

* `Rehearsal.broker`, `Rehearsal.machine`: the scripts of the rehearsals.
* `main`: the program.
-/

namespace BrokerLoad.Rehearsal

/-! ## §1 What is rehearsed -/

/-- A broker that accepts the connection and one subscription, and then sends the request to
terminate, to which only subscribers listen. -/
def broker : NetworkScript Double where
  loops := [
    { events := [.answered ⟨"Success", false⟩] },
    { events := [.granted 1 [⟨"Granted QoS 1", false⟩]] },
    { events := [.signal 15] }]
  loopLimit := 1000000

/-- More loop calls than that broker admits. -/
def fuel : Nat := 1000010

/-- A process that ends at the start of all time, and with the usual code when asked to stop. -/
def briefProcess : ProcessScript Double :=
  { exitAt := some 0, stop := .obeys 0 (some Fleet.stoppedCode) }

/-- A process that runs until it is asked to stop. -/
def lastingProcess : ProcessScript Double := { stop := .obeys 0 (some Fleet.stoppedCode) }

/-- A machine with brief publishers and lasting subscribers. -/
def machine : MachineRehearsal Double :=
  { now := 0, publishers := [], subscribers := []
    standardPublisher := briefProcess, standardSubscriber := lastingProcess }

end BrokerLoad.Rehearsal

namespace BrokerLoad.Terminal

/-! ## §2 The working directory and the environment -/

/-- The files of the working directory that can be read as text. -/
def readDirectory : IO Directory := do
  let mut files := []
  for entry in ← (← IO.currentDir).readDir do
    try
      files := files ++ [(entry.fileName, ← IO.FS.readFile entry.path)]
    catch _ => pure ()
  return ⟨files⟩

/-- Writes the files that a program left and that were not there before. -/
def writeFiles (before after : Directory) : IO Unit := do
  for (name, text) in after.files do
    if before.find? name ≠ some text then IO.FS.writeFile name text

/-- The defaults under the environment, or why there are none. -/
def readDefaults : IO (Except Fault Defaults) := do
  let broker ← IO.getEnv "LOADBENCH_BROKER"
  let topic ← IO.getEnv "LOADBENCH_TOPIC"
  let qos ← IO.getEnv "LOADBENCH_QOS"
  let lookup : String → Option String := fun name =>
    if name = "LOADBENCH_BROKER" then broker
    else if name = "LOADBENCH_TOPIC" then topic
    else if name = "LOADBENCH_QOS" then qos
    else none
  return (Defaults.ofEnvironment lookup).mapError fun (cause, given) =>
    .value (.integer cause given)

/-! ## §3 Outcomes -/

/-- The exit code of a program that a fault ended. -/
def exitFault : UInt32 := 1

/-- Shows what a program left behind, and gives its exit code. -/
def present {ν : Type} (before : Directory) (logged : List ν → List LogRecord)
    (o : Outcome ν) : IO UInt32 := do
  IO.eprint (o.setup.written "-" (logged o.notes))
  IO.print o.output
  writeFiles before o.files
  match o.usage with
  | some e => IO.eprintln e.line
  | none => pure ()
  match o.ending with
  | .returned => return 0
  | .exit code => return code.toNat.toUInt32
  | .fault f =>
    IO.eprintln f.message
    return exitFault
  | .outOfFuel =>
    IO.eprintln "the rehearsal is too long"
    return exitFault

/-- Runs the program that the first word chooses. -/
def run (defaults : Defaults) (directory : Directory) : List String → IO UInt32
  | "client" :: arguments =>
    let setting : ClientProgram.Setting (NetworkRehearsal Double) :=
      { wire := ⟨NetworkRehearsal.network, NetworkRehearsal.timer⟩, pid := 1
        defaults, directory, fuel := Rehearsal.fuel }
    present directory logRecords
      (ClientProgram.run setting arguments { script := Rehearsal.broker, now := 0 })
  | "runner" :: arguments =>
    present directory Deed.logRecords
      (RunnerProgram.run (runner defaults directory) arguments Rehearsal.machine)
  | "series" :: arguments =>
    present directory Deed.logRecords
      (SeriesProgram.run (runner defaults directory) MachineRehearsal.renew arguments
        Rehearsal.machine)
  | "chart" :: arguments => present directory (fun _ => []) (ChartProgram.run directory arguments)
  | _ => do
    IO.eprintln "the first word is one of: client, runner, series, chart"
    return 2
where
  /-- The setting of a runner on the rehearsed machine. -/
  runner (defaults : Defaults) (directory : Directory) :
      RunnerProgram.Setting (MachineRehearsal Double) ProcessHandle :=
    { host := MachineRehearsal.host, workshop := MachineRehearsal.workshopOver "."
      interpreter := "client", defaults, directory }

end BrokerLoad.Terminal

/-- Runs the program that the command line asks for. -/
def main (arguments : List String) : IO UInt32 := do
  match ← BrokerLoad.Terminal.readDefaults with
  | .error f =>
    IO.eprintln f.message
    return BrokerLoad.Terminal.exitFault
  | .ok defaults =>
    BrokerLoad.Terminal.run defaults (← BrokerLoad.Terminal.readDirectory) arguments
