import BrokerLoad.Config.Plan
import BrokerLoad.Fleet.Build
import BrokerLoad.Fleet.Output
import BrokerLoad.Fleet.Record

/-!
# One run of a load test

A run makes sure that there is a client, starts the subscribers, lets them warm up, starts the
publishers, waits until every publisher has finished or its time is over, stops the subscribers, and
sums up. A client that cannot be started, fails or has to be killed is recorded as a failure; the run
goes on. Whatever ends a run, no process that it started is left over.

## Main definitions

* `Fleet`: the records of the processes started so far.
* `Fleet.spawn`, `joinPublishers`, `stopSubscribers`, `killUnsettled`: the parts of a run.
* `Fleet.run`: the whole run.
-/

namespace BrokerLoad

/-- How long a run waits: before the publishers start, for a publisher beyond its duration, and for
a subscriber that was asked to stop. A time that was given as an empty value ends the run when it is
needed. -/
structure Patience (τ : Type) where
  warmup : Option τ
  graceMargin : Option τ
  stopGrace : Option τ

namespace Patience

variable {τ : Type} [Seconds τ]

/-- Two seconds to warm up. -/
def standardWarmup : τ := Seconds.ofDecimal 2 0

/-- Ten seconds of grace. -/
def standardGrace : τ := Seconds.ofDecimal 10 0

/-- Three seconds to stop. -/
def standardStop : τ := Seconds.ofDecimal 3 0

/-- The times when nothing else is said. -/
def standard : Patience τ := ⟨some standardWarmup, some standardGrace, some standardStop⟩

end Patience

/-- The environment and the records of the processes that were started, oldest first. -/
structure Fleet (τ σ π : Type) where
  env : σ
  records : List (Record τ π) := []

/-- What a run works with. -/
structure Yard (τ σ π : Type) [Seconds τ] where
  host : Host τ σ π
  workshop : Workshop σ
  plan : Plan τ
  build : Build
  patience : Patience τ

namespace Fleet

variable {τ σ π : Type} [Seconds τ]

/-- An action of a run. -/
abbrev Act (τ σ π α : Type) := Action (Traced (Deed τ π) (Fleet τ σ π)) α

/-- The name of the runner's logger. -/
def logger : String := "loadbench.runner.orchestrator"

/-! ## §1 Records and deeds -/

/-- Logs a text. -/
def log (level : Level) (text : String) : Act τ σ π Unit :=
  Traced.note (.log ⟨level, logger, text⟩)

/-- Does something with the machine and notes it. -/
def act {α : Type} (deed : Deed τ π) (f : σ → Except Fault α × σ) : Act τ σ π α := do
  Traced.note deed
  let (outcome, env) := f (← Traced.current).env
  Traced.change fun fleet => { fleet with env }
  Action.ofExcept outcome

/-- Logs a text, or leaves it to the log what comes of it that the text cannot be put together. -/
def logAttempt (y : Yard τ σ π) (level : Level) : Except Fault String → Act τ σ π Unit
  | .ok text => log level text
  | .error f => act (.misprint f) fun env => (y.host.misprint f, env)

/-- The time on the clock. -/
def now (y : Yard τ σ π) : Act τ σ π τ := act .readClock y.host.now

/-- The record at a position. -/
def recordAt? (position : Nat) : Act τ σ π (Option (Record τ π)) := do
  return (← Traced.current).records[position]?

/-- Changes the record at a position. -/
def changeRecord (position : Nat) (f : Record τ π → Record τ π) : Act τ σ π Unit :=
  Traced.change fun fleet => { fleet with records := fleet.records.modify position f }

/-- Opens a record for a client of a role and gives its position. -/
def enlist (role : Role) (index : Int) : Act τ σ π Nat := do
  let position := (← Traced.current).records.length
  Traced.note (.enlist role index)
  Traced.change fun fleet => { fleet with records := fleet.records ++ [{ role, index }] }
  return position

/-- Settles the record at a position. -/
def settle (position : Nat) (status : Status) (returncode : Option Int) (error : Option String) :
    Act τ σ π Unit := do
  Traced.note (.settle position status returncode error)
  changeRecord position fun r => r.settle status returncode error

/-- The positions of the records of a role. -/
def positionsOf (role : Role) : Act τ σ π (List Nat) := do
  let records := (← Traced.current).records
  return (List.range records.length).filter fun i => (records[i]?.map (·.role)) == some role

/-- Does something at every position of a list. -/
def forEach (f : Nat → Act τ σ π Unit) : List Nat → Act τ σ π Unit
  | [] => pure ()
  | i :: rest => do
    f i
    forEach f rest

/-! ## §2 Starting processes -/

/-- The arguments of a client for its role. -/
def roleArgs (plan : Plan τ) : Role → List String
  | .subscriber => ["sub"]
  | .publisher =>
    ["pub", toString plan.payloadSize, Seconds.text plan.duration, Seconds.text plan.interval]

/-- The command line of a client of a role. -/
def commandLine (y : Yard τ σ π) (role : Role) : List String :=
  y.build.command (roleArgs y.plan role) y.plan.settings

/-- The numbers on the command line of a client of a role. -/
def commandNumbers (y : Yard τ σ π) (role : Role) : List Int :=
  (match y.build with
    | .bundled _ => [y.plan.settings.broker.port, y.plan.settings.qos, y.plan.settings.keepalive]
    | .external .. => []) ++
  match role with
    | .subscriber => []
    | .publisher => [(y.plan.payloadSize : Int)]

/-- Where the output of a client goes: only publishers report on it. -/
def captureOf : Role → Capture
  | .publisher => .pipe
  | .subscriber => .null

/-- Calls the launcher and gives its answer, be it a process or a fault. -/
def launch (y : Yard τ σ π) (role : Role) : Act τ σ π (Except Fault π) := do
  let argv := commandLine y role
  Traced.note (.launch argv (captureOf role))
  let (outcome, env) := y.host.launch argv (captureOf role) (← Traced.current).env
  Traced.change fun fleet => { fleet with env }
  return outcome

/-- Why a process could not be started, for the faults that say no more than that. -/
def refusal? : Fault → Option String
  | .os e => some e.message
  | .subprocess text => some text
  | .commandFailed argv code => some (commandFailedMessage argv code)
  | _ => none

/-- Launches the process of the record at a position. A process that cannot be started is recorded
as a failure. A number with too many digits cannot be put on a command line. -/
def start (y : Yard τ σ π) (position : Nat) (record : Record τ π) : Act τ σ π Unit := do
  if !(commandNumbers y record.role).all isWritable then
    Action.fail (.value .unwritableInteger)
  match ← launch y record.role with
  | .ok process =>
    changeRecord position fun r => { r with process := some process }
    log .debug ("Started " ++ record.name ++ " (pid " ++ integerText (y.host.pid process) ++ "): " ++
      String.intercalate " " (commandLine y record.role))
  | .error f =>
    match refusal? f with
    | some reason =>
      let text := "cannot start " ++ record.name ++ ": " ++ reason
      log .error text
      settle position .failure none (some text)
    | none => Action.fail f

/-- Opens a record, launches its process, and gives the position of the record. -/
def spawn (y : Yard τ σ π) (role : Role) (index : Int) : Act τ σ π Nat := do
  let position ← enlist role index
  start y position { role, index }
  return position

/-- Starts `count` processes of a role with the indices from `first` on. -/
def spawnFrom (y : Yard τ σ π) (role : Role) (first : Nat) : Nat → Act τ σ π Unit
  | 0 => pure ()
  | count + 1 => do
    discard (spawn y role first)
    spawnFrom y role (first + 1) count

/-! ## §3 Waiting for the publishers -/

/-- Takes over what a publisher's output says. -/
def readOutput (position : Nat) (record : Record τ π) (output : Option String) :
    Act τ σ π Unit := do
  Traced.note (.read position output)
  match (findReport (output.getD "") : Finding τ) with
  | .nothing => pure ()
  | .report r =>
    changeRecord position fun rec => { rec with sent := some r.sent, elapsed := some r.elapsed }
  | .unreadable line => log .warning (record.name ++ ": unreadable report " ++ quoted line)
  | .count sent =>
    let n ← Action.ofExcept sent
    changeRecord position fun rec => { rec with sent := some n }

/-- Waits for a publisher until the deadline: its output and exit code, or nothing if it is still
running then. A publisher that has exited is collected even when no time is left. -/
def collect (y : Yard τ σ π) (process : π) (deadline : τ) :
    Act τ σ π (Option (Option String × ExitCode)) := do
  let whole := act (.collect process none) (y.host.collect process)
  match ← act (.poll process) (y.host.poll process) with
  | some _ => return some (← whole)
  | none =>
    let left := Seconds.max Seconds.zero (Seconds.sub deadline (← now y))
    match ← act (.collect process (some left)) (y.host.collectWithin process left) with
    | some collected => return some collected
    | none =>
      match ← act (.poll process) (y.host.poll process) with
      | some _ => return some (← whole)
      | none => return none

/-- Settles one publisher: by its own exit, or by killing it when its time is over. -/
def joinOne (y : Yard τ σ π) (limit deadline : τ) (position : Nat) : Act τ σ π Unit := do
  match ← recordAt? position with
  | none => pure ()
  | some record =>
    if record.settled then pure ()
    else match record.process with
    | none => Action.fail (.noProcess "poll")
    | some process =>
      match ← collect y process deadline with
      | none =>
        act (.kill process) (y.host.kill process)
        let (_, code) ← act (.collect process none) (y.host.collect process)
        let text := record.name ++ " still running " ++ Seconds.fixed 1 limit ++
          "s after start, killed"
        log .error text
        settle position .failure code (some text)
      | some (output, code) =>
        readOutput position record output
        if code = some 0 then
          settle position .success code none
          let sent := (← recordAt? position).bind (·.sent)
          log .debug (record.name ++ " finished, sent " ++ knownIntegerText sent)
        else
          log .warning (record.name ++ " exited with code " ++ knownIntegerText code)
          settle position .failure code (some (Summary.exitReason code))

/-- Waits for all publishers. They share one deadline, so the waits do not add up. -/
def joinPublishers (y : Yard τ σ π) : Act τ σ π Unit := do
  let grace ← Action.ofExcept (needed .sum y.patience.graceMargin)
  let limit := Seconds.add y.plan.duration grace
  let deadline := Seconds.add (← now y) limit
  forEach (joinOne y limit deadline) (← positionsOf .publisher)

/-! ## §4 Stopping the subscribers -/

/-- Asks a process to stop, unless it is settled, never started or has exited. Gives whether it was
asked. -/
def terminate (y : Yard τ σ π) (position : Nat) : Act τ σ π Bool := do
  match ← recordAt? position with
  | none => return false
  | some record =>
    match record.settled, record.process with
    | false, some process =>
      match ← act (.poll process) (y.host.poll process) with
      | some _ => return false
      | none =>
        Action.recover
          (do
            act (.terminate process) (y.host.terminate process)
            return true)
          fun f => if f.saysGone then some (pure false) else none
    | _, _ => return false

/-- The exit code of a process that ended because it was asked to. -/
def stoppedCode : Int := -15

/-- Settles one subscriber: by its own exit, or by killing it when its time is over. -/
def stopOne (y : Yard τ σ π) (deadline : τ) (position : Nat) : Act τ σ π Unit := do
  match ← recordAt? position with
  | none => pure ()
  | some record =>
    if record.settled then pure ()
    else match record.process with
    | none => Action.fail (.noProcess "wait")
    | some process =>
      let left := Seconds.max Seconds.zero (Seconds.sub deadline (← now y))
      match ← act (.await process (some left)) (y.host.awaitWithin process left) with
      | none =>
        act (.kill process) (y.host.kill process)
        let code ← act (.await process none) (y.host.await process)
        let text := record.name ++ " ignored the stop request, killed"
        log .error text
        settle position .failure code (some text)
      | some code =>
        if code = some 0 ∨ code = some stoppedCode then settle position .success code none
        else
          log .warning (record.name ++ " exited with code " ++ knownIntegerText code)
          settle position .failure code (some (Summary.exitReason code))

/-- Asks some subscribers to stop. -/
def askAll (y : Yard τ σ π) (positions : List Nat) : Act τ σ π Unit :=
  forEach (fun i => discard (terminate y i)) positions

/-- Waits for some subscribers; they share one deadline. -/
def awaitAll (y : Yard τ σ π) (positions : List Nat) : Act τ σ π Unit := do
  let start ← now y
  let grace ← Action.ofExcept (needed .sum y.patience.stopGrace)
  let deadline := Seconds.add start grace
  forEach (stopOne y deadline) positions

/-- Asks all subscribers to stop, and then waits for them. -/
def stopSubscribers (y : Yard τ σ π) : Act τ σ π Unit := do
  let positions ← positionsOf .subscriber
  askAll y positions
  awaitAll y positions

/-! ## §5 The whole run -/

/-- Kills a process whose outcome is unknown. -/
def killOne (y : Yard τ σ π) (position : Nat) : Act τ σ π Unit := do
  match ← recordAt? position with
  | none => pure ()
  | some record =>
    match record.settled, record.process with
    | false, some process =>
      log .warning ("Killing " ++ record.name ++ " (pid " ++
        integerText (y.host.pid process) ++ ")")
      act (.kill process) (y.host.kill process)
      let code ← act (.await process none) (y.host.await process)
      settle position .failure code (some "run aborted")
    | _, _ => pure ()

/-- Kills every process whose outcome is unknown. -/
def killUnsettled (y : Yard τ σ π) : Act τ σ π Unit := do
  forEach (killOne y) (List.range (← Traced.current).records.length)

/-- Makes sure that the client can be run. -/
def ensureBuilt (y : Yard τ σ π) : Act τ σ π Unit :=
  Action.ofFunction fun w =>
    let (outcome, after) :=
      Action.runFrom (Build.ensure y.workshop y.build)
        ⟨w.state.env, w.trail⟩
    (outcome, ⟨{ w.state with env := after.state }, after.trail⟩)

/-- The summary of the records so far. -/
def summary (y : Yard τ σ π) : Act τ σ π (Summary τ π) := do
  return { publishers := y.plan.publishers, subscribers := y.plan.subscribers,
           records := (← Traced.current).records }

/-- Gives the subscribers time to subscribe. -/
def warmUp (y : Yard τ σ π) : Act τ σ π Unit := do
  logAttempt y .info ((needed .display y.patience.warmup).map fun time =>
    "Warming up for " ++ Seconds.fixed 1 time ++ "s")
  let warmup ← Action.ofExcept (needed .sleep y.patience.warmup)
  act (.sleep warmup) (y.host.sleep warmup)

/-- The phases of a run between building and summing up. -/
def phases (y : Yard τ σ π) : Act τ σ π Unit := do
  log .info ("Starting " ++ toString y.plan.subscribers ++ " subscribers")
  spawnFrom y .subscriber 0 y.plan.subscribers
  warmUp y
  log .info ("Starting " ++ toString y.plan.publishers ++ " publishers")
  spawnFrom y .publisher 0 y.plan.publishers
  log .info "Waiting for publishers to finish"
  joinPublishers y
  log .info "Stopping subscribers"
  stopSubscribers y

/-- How a run went. A number of messages with too many digits cannot be written. -/
def finishText (y : Yard τ σ π) (s : Summary τ π) : Except Fault String :=
  let succeeded := fun role => toString (s.count role .success)
  if isWritable s.messagesSent then
    .ok ("Run finished: " ++ succeeded .publisher ++ "/" ++ toString y.plan.publishers ++
      " publishers, " ++ succeeded .subscriber ++ "/" ++ toString y.plan.subscribers ++
      " subscribers ok, " ++ integerText s.messagesSent ++ " messages sent")
  else .error (.value .unwritableInteger)

/-- Sums up. -/
def finish (y : Yard τ σ π) : Act τ σ π (Summary τ π) := do
  let s ← summary y
  logAttempt y .info (finishText y s)
  return s

/-- The whole run. -/
def run (y : Yard τ σ π) : Act τ σ π (Summary τ π) := do
  ensureBuilt y
  Action.closing (phases y) (killUnsettled y)
  finish y

end Fleet

end BrokerLoad
