import BrokerLoad.Client.Network
import BrokerLoad.Action
import BrokerLoad.Log

/-!
# Sessions and what clients see of them

Publishers and subscribers use a connection through five requests. A `Session` gives them as
functions on a state of unknown type; the reply to a request carries its outcome and, also when it
failed, everything that happened meanwhile. A client keeps its phase and notes every request
together with the phase it was made in.

## Main definitions

* `Phase`: where a client stands in its life.
* `Happening`, `Note`: what happens to a client, and when; `logRecords`: what of it is logged.
* `Session`: the five requests.
* `Client`: the state of a client, and `Client.request`, which makes a request.
-/

namespace BrokerLoad

/-! ## §1 Notes -/

/-- Where a client stands in its life. -/
inductive Phase where
  | disconnected | connecting | connected | active | disconnecting
  deriving DecidableEq, Repr

/-- The name of a phase. -/
def Phase.name : Phase → String
  | disconnected => "disconnected"
  | connecting => "connecting"
  | connected => "connected"
  | active => "active"
  | disconnecting => "disconnecting"

/-- What a client asks of its session. -/
inductive Request (τ : Type) where
  | connect
  | disconnect
  | subscribe (topic : String) (qos : Int)
  | publish (topic : String) (payload : Bytes) (qos : Int)
  | pump (timeout : τ)

/-- What happens to a client. -/
inductive Happening (τ : Type) where
  | log (record : LogRecord)
  | network (call : NetworkCall τ)
  | request (r : Request τ) (phase : Phase)
  | sleep (duration : τ)
  | message (m : Message)
  | signal (number : Int)
  | stopRequest

/-- A happening and the time of it. -/
structure Note (τ : Type) where
  time : τ
  happening : Happening τ

/-- The log records among some notes. -/
def logRecords {τ : Type} (notes : List (Note τ)) : List LogRecord :=
  notes.filterMap fun n =>
    match n.happening with
    | .log record => some record
    | _ => none

/-! ## §2 Sessions -/

/-- How a request ended, and what happened meanwhile, in order. -/
structure Reply (τ : Type) where
  outcome : Except Stop Unit
  notes : List (Note τ) := []

/-- The requests that a client can make. -/
structure Session (τ σ : Type) where
  connect : σ → Reply τ × σ
  disconnect : σ → Reply τ × σ
  subscribe : String → Int → σ → Reply τ × σ
  publish : String → Bytes → Int → σ → Reply τ × σ
  pump : τ → σ → Reply τ × σ

/-- Makes a request. -/
def Session.answer {τ σ : Type} (s : Session τ σ) : Request τ → σ → Reply τ × σ
  | .connect => s.connect
  | .disconnect => s.disconnect
  | .subscribe topic qos => s.subscribe topic qos
  | .publish topic payload qos => s.publish topic payload qos
  | .pump timeout => s.pump timeout

/-! ## §3 Clients -/

/-- The state of a client in an environment: its phase, how many messages it received, what its
handler keeps, and whether it was asked to stop. -/
structure Client (σ η : Type) where
  env : σ
  phase : Phase := .disconnected
  received : Nat := 0
  kept : η
  stopping : Bool := false

/-- Whether a signal asks a process to stop: an interrupt from the terminal, or the request to
terminate. -/
def asksToStop (signal : Int) : Bool := signal == 2 || signal == 15

/-- What a client works with. Signals that ask it to stop count only if the client heeds them, and
payloads have to fit into the memory. -/
structure Surroundings (τ σ η : Type) where
  session : Session τ σ
  timer : Timer τ σ
  handler : Handler τ η
  heedsSignals : Bool := false
  memory : Nat := Plan.standardMemory

namespace Client

variable {τ σ η : Type}

/-- An action of a client. -/
abbrev Act (τ σ η α : Type) := Action (Traced (Note τ) (Client σ η)) α

/-- The time on the clock. -/
def now (w : Surroundings τ σ η) : Act τ σ η τ := do return w.timer.now (← Traced.current).env

/-- Notes a happening at the present time. -/
def record (w : Surroundings τ σ η) (h : Happening τ) : Act τ σ η Unit := do
  Traced.note ⟨← now w, h⟩

/-- Logs a text. -/
def log (w : Surroundings τ σ η) (level : Level) (logger text : String) : Act τ σ η Unit :=
  record w (.log ⟨level, logger, text⟩)

/-- Enters a phase. -/
def enter (phase : Phase) : Act τ σ η Unit := Traced.change fun c => { c with phase }

/-- Takes in one note of a reply: a message is counted and handled, a signal that counts is logged,
and both it and a request to stop are remembered. -/
def absorb (w : Surroundings τ σ η) (n : Note τ) : Act τ σ η Unit := do
  Traced.note n
  match n.happening with
  | .message m =>
    Traced.change fun c =>
      { c with received := c.received + 1, kept := w.handler.accept n.time m c.kept }
  | .signal number =>
    if w.heedsSignals && asksToStop number then
      Traced.note ⟨n.time, .log ⟨.info, "loadbench.client",
        "Received signal " ++ integerText number ++ ", stopping"⟩⟩
      Traced.change fun c => { c with stopping := true }
  | .stopRequest => Traced.change fun c => { c with stopping := true }
  | _ => pure ()

/-- Takes in the notes of a reply in order. -/
def absorbAll (w : Surroundings τ σ η) : List (Note τ) → Act τ σ η Unit
  | [] => pure ()
  | n :: rest => do
    absorb w n
    absorbAll w rest

/-- Makes a request: it is noted with the phase it was made in, then answered, and whatever
happened meanwhile is taken in before its outcome counts. -/
def request (w : Surroundings τ σ η) (r : Request τ) : Act τ σ η Unit := do
  let client ← Traced.current
  record w (.request r client.phase)
  let (reply, env) := w.session.answer r client.env
  Traced.change fun c => { c with env }
  absorbAll w reply.notes
  match reply.outcome with
  | .ok () => pure ()
  | .error stop => throw stop

/-- Sleeps for a while. -/
def sleep (w : Surroundings τ σ η) (duration : τ) : Act τ σ η Unit := do
  record w (.sleep duration)
  let (outcome, env) := w.timer.sleep duration (← Traced.current).env
  Traced.change fun c => { c with env }
  Action.ofExcept outcome

/-- Runs `body` on an open session. The client is connecting until the session is open; whatever
happens then, the session is closed and the client ends disconnected. -/
def onSession {α : Type} (w : Surroundings τ σ η) (body : Act τ σ η α) : Act τ σ η α := do
  enter .connecting
  Action.closing
    (do
      request w .connect
      Action.closing
        (do
          enter .connected
          let result ← body
          enter .disconnecting
          pure result)
        (request w .disconnect))
    (enter .disconnected)

end Client

end BrokerLoad
