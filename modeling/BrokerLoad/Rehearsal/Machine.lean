import BrokerLoad.Fleet.Host
import BrokerLoad.Rehearsal.Clock

/-!
# Scripted machines

A scripted machine starts processes that follow a script: each has a time at which it exits, an exit
code, an output, and a way to react to the request to stop. Waiting moves the clock.

## Main definitions

* `ProcessScript`, `StopScript`: the script of a process.
* `MachineRehearsal`: the time, the processes started so far, and the scripts of those to come.
* `MachineRehearsal.host`, `workshop`: the script as a machine.
-/

namespace BrokerLoad

/-- How a process reacts to the request to stop: the request fails, is ignored, or makes the
process exit after a while with a code. -/
inductive StopScript (τ : Type) where
  | fails (f : Fault)
  | ignores
  | obeys (delay : τ) (code : ExitCode)

/-- What a process does. One without an exit time runs to the end of all time. One whose exit time is
no number, or whose code is unknown, is over when it is waited for, but never has an exit code. -/
structure ProcessScript (τ : Type) where
  launchFault : Option Fault := none
  exitAt : Option τ := none
  code : ExitCode := some 0
  output : Option String := some ""
  stop : StopScript τ

/-- A process: its script, whether its exit has been noticed, and whether its output has been
collected. -/
structure ScriptedProcess (τ : Type) where
  script : ProcessScript τ
  noticed : Option Int := none
  collected : Bool := false

/-- A handle on a process: its number, its name, and its place among the processes. -/
structure ProcessHandle where
  pid : Int
  name : String
  place : Nat
  deriving DecidableEq, Repr

/-- What the workshop finds: whether the sources compile, how the build command goes, and the files
with whether they are executable. -/
structure WorkshopScript where
  compiles : Bool := true
  commandFault : List String → Option Fault := fun _ => none
  files : List (String × Bool) := []

/-- A machine that follows a script. Publishers and subscribers beyond the lists follow a standard
script. -/
structure MachineRehearsal (τ : Type) where
  now : τ
  publishers : List (ProcessScript τ)
  subscribers : List (ProcessScript τ)
  standardPublisher : ProcessScript τ
  standardSubscriber : ProcessScript τ
  workshop : WorkshopScript := {}
  sleepFault : Option Fault := none
  publishersLaunched : Nat := 0
  subscribersLaunched : Nat := 0
  nextPid : Int := 4000
  processes : List (ScriptedProcess τ) := []

namespace ScriptedProcess

variable {τ : Type} [Seconds τ]

/-- Whether the process has exited by a time. -/
def isOver (now : τ) (p : ScriptedProcess τ) : Bool :=
  match p.script.exitAt with
  | some exitAt => Seconds.le exitAt now
  | none => isEndless now

/-- The process after a look at time `now`: an exit that is due is noticed. -/
def look (now : τ) (p : ScriptedProcess τ) : ScriptedProcess τ :=
  match p.noticed with
  | none => if p.isOver now then { p with noticed := p.script.code } else p
  | some _ => p

/-- Whether the process still runs at the end of a wait: it exits no earlier than that. -/
def outlasts (finish : τ) (p : ScriptedProcess τ) : Bool :=
  match p.script.exitAt with
  | some exitAt => Seconds.le finish exitAt
  | none => Seconds.le finish finish

/-- The process after the request to stop at time `now`, which can only bring its exit forward. -/
def obey (now delay : τ) (code : ExitCode) (p : ScriptedProcess τ) : ScriptedProcess τ :=
  let exitAt := Seconds.add now delay
  let earlier := match p.script.exitAt with
    | some planned => Seconds.lt exitAt planned
    | none => Seconds.le exitAt exitAt && !isEndless exitAt
  if earlier then { p with script := { p.script with exitAt := some exitAt, code } } else p

end ScriptedProcess

namespace MachineRehearsal

variable {τ : Type} [Seconds τ]

/-- How a wait ended: with the exit code, or because the time was over. -/
inductive Wait where
  | exited (code : ExitCode)
  | expired

/-- The machine with a process changed. -/
def change (m : MachineRehearsal τ) (p : ProcessHandle)
    (f : ScriptedProcess τ → ScriptedProcess τ) : MachineRehearsal τ :=
  { m with processes := m.processes.modify p.place f }

/-- Looks at a process: its exit code, if it has exited. -/
def poll (p : ProcessHandle) (m : MachineRehearsal τ) : Option Int × MachineRehearsal τ :=
  let m := m.change p (·.look m.now)
  ((m.processes[p.place]?).bind (·.noticed), m)

/-- Moves the clock to the exit of a process. A process that never exits is refused. -/
def waitForExit (p : ProcessHandle) (process : ScriptedProcess τ) (m : MachineRehearsal τ) :
    Except Fault Wait × MachineRehearsal τ :=
  match process.script.exitAt with
  | none => (.error (.runtime "waiting forever"), m)
  | some exitAt =>
    let (code, m) := poll p { m with now := exitAt }
    (.ok (.exited code), m)

/-- Waits for a process, at most for some time if one is given. -/
def block (p : ProcessHandle) (within : Option τ) (m : MachineRehearsal τ) :
    Except Fault Wait × MachineRehearsal τ :=
  let (known, m) := poll p m
  match known, m.processes[p.place]? with
  | some code, _ => (.ok (.exited (some code)), m)
  | none, none => (.error (.runtime "waiting forever"), m)
  | none, some process =>
    match within.map (Seconds.add m.now) with
    | some finish =>
      if process.outlasts finish then (.ok .expired, { m with now := finish })
      else waitForExit p process m
    | none => waitForExit p process m

/-- The script of a command: one that holds the word `sub` starts a subscriber. -/
def isSubscriber (argv : List String) : Bool := argv.contains "sub"

/-- Starts a process. -/
def launch (argv : List String) (m : MachineRehearsal τ) :
    Except Fault ProcessHandle × MachineRehearsal τ :=
  let (script, name, m) :=
    if isSubscriber argv then
      ((m.subscribers[m.subscribersLaunched]?).getD m.standardSubscriber,
        "sub-" ++ toString m.subscribersLaunched,
        { m with subscribersLaunched := m.subscribersLaunched + 1 })
    else
      ((m.publishers[m.publishersLaunched]?).getD m.standardPublisher,
        "pub-" ++ toString m.publishersLaunched,
        { m with publishersLaunched := m.publishersLaunched + 1 })
  match script.launchFault with
  | some f => (.error f, m)
  | none =>
    (.ok ⟨m.nextPid, name, m.processes.length⟩,
      { m with nextPid := m.nextPid + 1, processes := m.processes ++ [⟨script, none, false⟩] })

/-- Waits for a process and collects its output. Output that was not collected yet cannot be had in
no time, even if the process has exited. -/
def collect (p : ProcessHandle) (within : Option τ) (m : MachineRehearsal τ) :
    Except Fault (Option (Option String × ExitCode)) × MachineRehearsal τ :=
  let (known, m) := poll p m
  let process := m.processes[p.place]?
  let noTime := match within with
    | some t => Seconds.le t Seconds.zero && Seconds.le Seconds.zero t
    | none => false
  let fresh := (process.map fun q => !q.collected).getD false
  if known.isSome && noTime && fresh then (.ok none, m)
  else match block p within m with
    | (.error f, m) => (.error f, m)
    | (.ok .expired, m) => (.ok none, m)
    | (.ok (.exited code), m) =>
      (.ok (some ((process.bind (·.script.output)), code)),
        m.change p fun q => { q with collected := true })

/-- Waits for a process. -/
def await (p : ProcessHandle) (within : Option τ) (m : MachineRehearsal τ) :
    Except Fault (Option ExitCode) × MachineRehearsal τ :=
  match block p within m with
  | (.error f, m) => (.error f, m)
  | (.ok .expired, m) => (.ok none, m)
  | (.ok (.exited code), m) => (.ok (some code), m)

/-- Asks a process to stop. -/
def terminate (p : ProcessHandle) (m : MachineRehearsal τ) :
    Except Fault Unit × MachineRehearsal τ :=
  match m.processes[p.place]? with
  | none => (.ok (), m)
  | some process =>
    match process.script.stop with
    | .fails f => (.error f, m)
    | .ignores => (.ok (), m)
    | .obeys delay code => (.ok (), m.change p (·.obey m.now delay code))

/-- Kills a process, unless its exit was noticed. -/
def kill (p : ProcessHandle) (m : MachineRehearsal τ) : MachineRehearsal τ :=
  let (known, m) := poll p m
  if known.isSome then m else m.change p fun q => { q with noticed := some (-9) }

/-- Sleeps. -/
def sleep (duration : τ) (m : MachineRehearsal τ) : Except Fault Unit × MachineRehearsal τ :=
  match sleepFault? duration m.sleepFault with
  | some f => (.error f, m)
  | none => (.ok (), { m with now := Seconds.add m.now duration })

/-- Turns a wait that cannot expire into its result. -/
def unbounded {α : Type} : Except Fault (Option α) × MachineRehearsal τ →
    Except Fault α × MachineRehearsal τ
  | (.ok (some a), m) => (.ok a, m)
  | (.ok none, m) => (.error (.runtime "waiting forever"), m)
  | (.error f, m) => (.error f, m)

/-- The script as a machine. Its log is written down by a handler that raises what the standard ones
keep to themselves. -/
def host : Host τ (MachineRehearsal τ) ProcessHandle where
  now m := (.ok m.now, m)
  sleep := sleep
  launch argv _ m := launch argv m
  poll p m :=
    let (code, m) := poll p m
    (.ok code, m)
  collect p m := unbounded (collect p none m)
  collectWithin p within m := collect p (some within) m
  await p m := unbounded (await p none m)
  awaitWithin p within m := await p (some within) m
  terminate := terminate
  kill p m := (.ok (), kill p m)
  pid p := p.pid
  misprint := .error

/-- The script as a workshop over some sources. -/
def workshopOver (sources : String) : Workshop (MachineRehearsal τ) where
  sources := sources
  compile _ m := (m.workshop.compiles, m)
  command argv m :=
    (match m.workshop.commandFault argv with
      | some f => .error f
      | none => .ok (), m)
  isFile path m := ((m.workshop.files.lookup path).isSome, m)
  isExecutable path m := ((m.workshop.files.lookup path).getD false, m)

/-- The machine with its lists of scripts to be followed from the start; the clock and the process
numbers go on. -/
def renew (m : MachineRehearsal τ) : MachineRehearsal τ :=
  { m with publishersLaunched := 0, subscribersLaunched := 0 }

end MachineRehearsal

end BrokerLoad
