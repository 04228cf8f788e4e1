import BrokerLoad.Fleet.Host
import BrokerLoad.Text.ShellWords

/-!
# The client to run

Before any process is started there must be a client to run. The bundled client is compiled from
its sources; an external client may be built by a command and has to be an executable file.

## Main definitions

* `Build`: the two kinds of client.
* `Build.ensure`: makes sure that the client can be run.
* `Build.command`: the command line of a client process.
-/

namespace BrokerLoad

/-- How an external client is built: a command line to be cut into words, or the words. -/
inductive BuildCommand where
  | line (text : String)
  | argv (words : List String)
  deriving DecidableEq, Repr

namespace BuildCommand

/-- Whether there is nothing to run. -/
def isEmpty : BuildCommand → Bool
  | line text => text == ""
  | argv words => words.isEmpty

/-- The command as it is shown in the log. -/
def text : BuildCommand → String
  | line text => text
  | argv words => quotedList words

/-- The words of the command. -/
def words : BuildCommand → Except Fault (List String)
  | line text => (shellWords text).mapError .value
  | argv words => .ok words

end BuildCommand

/-- The client that a run uses. An external client knows its own broker. -/
inductive Build where
  | bundled (interpreter : String)
  | external (executable : String) (command : Option BuildCommand)
  deriving DecidableEq, Repr

namespace Build

/-- The module that the interpreter runs as the bundled client. -/
def clientModule : String := "loadbench.mqtt"

/-- The name of the build's logger. -/
def logger : String := "loadbench.runner.build"

/-- The options that hand the settings to a bundled client. A password goes only with a user
name. -/
def settingsArgs (s : ClientSettings) : List String :=
  ["--broker", s.broker.text, "--topic", s.topic, "--qos", integerText s.qos,
    "--keepalive", integerText s.keepalive] ++
  match s.username with
  | none => []
  | some username =>
    ["--username", username] ++ match s.password with
      | none => []
      | some password => ["--password", password]

/-- The command line of a client process with the arguments of its role. -/
def command (b : Build) (roleArgs : List String) (settings : ClientSettings) : List String :=
  match b with
  | bundled interpreter =>
    [interpreter, "-m", clientModule] ++ settingsArgs settings ++ roleArgs
  | external executable _ => executable :: roleArgs

variable {τ σ π : Type}

/-- An action of the workshop on an environment. -/
abbrev Act (τ σ π α : Type) := Action (Traced (Deed τ π) σ) α

/-- Notes a log record. -/
def log (text : String) : Act τ σ π Unit := Traced.note (.log ⟨.info, logger, text⟩)

/-- Asks the workshop. -/
def ask {α : Type} (f : σ → α × σ) : Act τ σ π α := do
  let (answer, env) := f (← Traced.current)
  Traced.change fun _ => env
  return answer

/-- Runs the build command of an external client, if it has one. A command that cannot be started
or fails is a build error. -/
def runCommand (w : Workshop σ) (c : BuildCommand) : Act τ σ π Unit := do
  log ("Building client: " ++ c.text)
  let argv ← Action.ofExcept c.words
  Traced.note (.command argv)
  match ← ask (w.command argv) with
  | .ok () => pure ()
  | .error (.os e) => Action.fail (.build (.command e.message))
  | .error (.commandFailed argv code) =>
    Action.fail (.build (.command (commandFailedMessage argv code)))
  | .error f => Action.fail f

/-- Makes sure that the client can be run. -/
def ensure (w : Workshop σ) : Build → Act τ σ π Unit
  | bundled _ => do
    log ("Compiling client sources in " ++ w.sources)
    Traced.note (.compile w.sources)
    if !(← ask (w.compile w.sources)) then Action.fail (.build (.sources w.sources))
  | external executable command => do
    match command with
    | some c => if !c.isEmpty then runCommand w c
    | none => pure ()
    if !(← ask (w.isFile executable)) then Action.fail (.build (.missing executable))
    if !(← ask (w.isExecutable executable)) then
      Action.fail (.build (.notExecutable executable))

end Build

end BrokerLoad
