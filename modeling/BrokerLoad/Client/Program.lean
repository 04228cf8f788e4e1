import BrokerLoad.Client.Connection
import BrokerLoad.Client.Publisher
import BrokerLoad.Client.Subscriber
import BrokerLoad.CommandLine.Outcome
import BrokerLoad.CommandLine.Settings

/-!
# The client's command line

The client runs in one of two modes: `sub` drains the topic until it is stopped, `pub` publishes at a
fixed interval for a fixed time and prints its report. Options for the broker stand in front of the
mode word.

## Main definitions

* `ClientProgram.command`, `ClientProgram.modes`: the syntax of the command line.
* `ClientProgram.run`: runs a command line.
-/

namespace BrokerLoad.ClientProgram

open CommandLine

/-! ## §1 The syntax -/

/-- The options in front of the mode word. -/
def command : Command where
  name := "loadbench-client"
  hasModes := true
  switches := [
    helpSwitch,
    ⟨["--broker"], "broker", .text⟩,
    ⟨["--topic"], "topic", .text⟩,
    ⟨["--qos"], "qos", .choice [0, 1, 2]⟩,
    ⟨["--keepalive"], "keepalive", .integer⟩,
    ⟨["--client-id"], "client_id", .text⟩,
    ⟨["--username"], "username", .text⟩,
    ⟨["--password"], "password", .text⟩,
    ⟨["-v", "--verbose"], "verbose", .flag⟩]

/-- The mode that drains the topic. -/
def subscribeMode : Command where
  name := "loadbench-client sub"
  switches := [helpSwitch, ⟨["--log-messages"], "log_messages", .text⟩]

/-- The mode that publishes. -/
def publishMode : Command where
  name := "loadbench-client pub"
  switches := [helpSwitch]
  operands := [⟨"payload_size", .integer⟩, ⟨"duration", .real⟩, ⟨"interval", .real⟩]

/-- The modes by their words. -/
def modes : List (String × Command) := [("sub", subscribeMode), ("pub", publishMode)]

/-- The user name or password that a command line gives. -/
def credentialOf (p : Parsed) (key : String) : Option Credential :=
  match p.value? key with
  | some (.text s) => some (.text s)
  | some .empty => some .empty
  | _ => none

/-- The settings that a command line asks for. -/
def settingsOf (defaults : Defaults) (p : Parsed) : Except Fault ClientSettings := do
  let broker ← p.broker defaults.broker
  let textOf := fun key => (credentialOf p key).bind Credential.text?
  ClientSettings.ofAttempts .config broker (p.topic defaults.topic) (p.qos defaults.qos) p.keepalive
    (textOf "username") (textOf "password")

/-- The plan of a publisher: one publisher with the settings and the operands given. -/
def planOf (settings : ClientSettings) (p : Parsed) : Except Fault (Plan Double) :=
  Plan.ofAttempts .config (.ok 1) (.ok 0) (p.count "payload_size" 0) (p.span "duration" 0)
    (p.span "interval" 0) (.ok settings)

/-! ## §2 Running -/

/-- What a client program works with: the network and the clock, its process number, the defaults,
the working directory, the fuel of its loops, and the memory of its machine. -/
structure Setting (σ : Type) where
  wire : Wire Double σ
  pid : Int
  defaults : Defaults := {}
  directory : Directory := {}
  fuel : Nat
  memory : Nat := Plan.standardMemory

variable {σ : Type}

/-- What a client program leaves: its exit code or why it stopped, what it printed, the message log
if it kept one, and its notes. -/
structure Life (σ : Type) where
  outcome : Except Stop String
  log : Option MessageLog
  env : σ
  notes : List (Note Double)

/-- The connection of a client. It is called by the name given, or else by its role and process. -/
def connectionOf (s : Setting σ) (settings : ClientSettings) (p : Parsed) (role : String) :
    Connection Double where
  broker := settings.broker
  client := (p.filled? "client_id").getD (role ++ "_" ++ integerText s.pid)
  keepalive := settings.keepalive
  username := credentialOf p "username"
  password := credentialOf p "password"
  connectTimeout := Connection.standardTimeout
  delivers := role == "sub"

/-- Keeps a message in the log, if there is one. -/
def keepMessages : Handler Double (Option MessageLog) :=
  ⟨fun time m log => log.map (·.record time m)⟩

/-- Lets a client live on a fresh connection. -/
def live {α : Type} (s : Setting σ) (connection : Connection Double) (log : Option MessageLog)
    (env : σ)
    (body : Surroundings Double (Line σ) (Option MessageLog) →
      Client.Act Double (Line σ) (Option MessageLog) α)
    (print : α → String) : Life σ :=
  let (_, created) := Action.runFrom (connection.create s.wire) { state := { env } }
  let surroundings : Surroundings Double (Line σ) (Option MessageLog) :=
    { session := connection.session s.wire s.fuel
      timer := ⟨fun line => s.wire.timer.now line.env,
        fun t line =>
          let (outcome, env) := s.wire.timer.sleep t line.env
          (outcome, { line with env })⟩
      handler := keepMessages
      heedsSignals := connection.delivers
      memory := s.memory }
  let (outcome, after) := Action.runFrom (body surroundings)
    { state := { env := created.state, kept := log }, trail := created.trail }
  { outcome := outcome.map print, log := after.state.kept, env := after.state.env.env,
    notes := after.history }

/-- The exit code for a connection that failed. -/
def exitConnect : Int := 1

/-- The exit code for arguments that were refused. -/
def exitUsage : Int := 2

/-- The name of the program's logger. -/
def logger : String := "loadbench.client"

/-- An error record at the present time. -/
def errorNote (s : Setting σ) (env : σ) (text : String) : Note Double :=
  ⟨s.wire.timer.now env, .log ⟨.error, logger, text⟩⟩

/-- The outcome of refused settings. -/
def refused (s : Setting σ) (setup : LogSetup) (env : σ) (notes : List (Note Double))
    (e : ConfigError) : Outcome (Note Double) :=
  { ending := .exit exitUsage, files := s.directory, setup,
    notes := notes ++ [errorNote s env ("Invalid arguments: " ++ e.message)] }

/-- The outcome when there are no settings or no plan. -/
def unsettled (s : Setting σ) (setup : LogSetup) (env : σ) : Fault → Outcome (Note Double)
  | .config e => refused s setup env [] e
  | f => { ending := .fault f, files := s.directory, setup }

/-- The outcome of a client's life. A connection or subscription that failed is reported. -/
def conclude (s : Setting σ) (setup : LogSetup) (files : Directory) (life : Life σ) :
    Outcome (Note Double) :=
  let failed := fun text =>
    { ending := .exit exitConnect, files, setup,
      notes := life.notes ++ [errorNote s life.env text] }
  match life.outcome with
  | .ok output => { ending := .exit 0, output, files, setup, notes := life.notes }
  | .error (.fault (.connect e)) => failed e.message
  | .error (.fault (.subscribe e)) => failed e.message
  | .error (.fault (.config e)) => refused s setup life.env life.notes e
  | .error stop => { ending := .ofStop stop, files, setup, notes := life.notes }

/-- Publishes and prints the report. -/
def publish (s : Setting σ) (setup : LogSetup) (settings : ClientSettings) (p : Parsed) (env : σ) :
    Outcome (Note Double) :=
  match planOf settings p with
  | .error f => unsettled s setup env f
  | .ok plan =>
    conclude s setup s.directory
      (live s (connectionOf s settings p "pub") none env
        (fun w => Publisher.run w plan Publisher.Tuning.standard s.fuel) (·.line ++ "\n"))

/-- Subscribes and drains. The message log is opened before the connection and closed after
it, and a log that cannot be closed is a fault whatever came before. -/
def subscribe (s : Setting σ) (setup : LogSetup) (settings : ClientSettings) (p : Parsed)
    (env : σ) : Outcome (Note Double) :=
  let drain := fun log =>
    live s (connectionOf s settings p "sub") log env
      (fun w => Subscriber.run w settings Subscriber.standardPump s.fuel) fun _ => ""
  match p.filled? "log_messages" with
  | none => conclude s setup s.directory (drain none)
  | some path =>
    match s.directory.outletAt path with
    | .error f => { ending := .fault f, files := s.directory, setup }
    | .ok outlet =>
      let life := drain (some {})
      match s.directory.leave ((life.log.map (·.text)).getD "") outlet with
      | .error f => { ending := .fault f, files := s.directory, setup, notes := life.notes }
      | .ok files => conclude s setup files life

/-- Runs a command line. -/
def run (s : Setting σ) (arguments : List String) (env : σ) : Outcome (Note Double) :=
  match parseModes command modes arguments with
  | .error refusal => .ofRefusal s.directory .none refusal
  | .ok p =>
    let setup := LogSetup.none.enable (p.flag "verbose")
    match settingsOf s.defaults p with
    | .error f => unsettled s setup env f
    | .ok settings =>
      if p.mode = "sub" then subscribe s setup settings p env else publish s setup settings p env

end BrokerLoad.ClientProgram
