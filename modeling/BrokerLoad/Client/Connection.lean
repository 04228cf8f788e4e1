import BrokerLoad.Client.Session

/-!
# Connections

A connection drives the network library explicitly: acknowledgements, the keep-alive and inbound
messages only advance while `loop` is called, so the owner decides when the connection works. It
remembers whether it is connected, the broker's last answer, and the answers to subscriptions that
nobody has asked for yet.

## Main definitions

* `Connection`: what identifies a connection.
* `Connection.connect`, `publish`, `subscribe`, `pump`, `disconnect`: the requests.
* `Connection.session`: the connection as the session of a client.
-/

namespace BrokerLoad

/-- What a connection remembers. -/
structure Link where
  connected : Bool := false
  answer : Option ReasonCode := none
  grants : List (Int × List ReasonCode) := []
  deriving DecidableEq, Repr

/-- The network's environment together with what the connection remembers. -/
structure Line (σ : Type) where
  env : σ
  link : Link := {}

/-- What identifies a connection. A connection without a recipient passes no messages on. -/
structure Connection (τ : Type) where
  broker : BrokerAddress
  client : String
  keepalive : Int := defaultKeepalive
  username : Option Credential := none
  password : Option Credential := none
  connectTimeout : τ
  delivers : Bool := true

/-- The network library and the clock. -/
structure Wire (τ σ : Type) where
  network : Network τ σ
  timer : Timer τ σ

namespace Connection

variable {τ σ : Type} [Seconds τ]

/-- An action of a connection. -/
abbrev Act (τ σ α : Type) := Action (Traced (Note τ) (Line σ)) α

/-- How long the broker has for its answer when nothing else is said: ten seconds. -/
def standardTimeout : τ := Seconds.ofDecimal 10 0

/-- How long one loop call may take while an answer is awaited: a tenth of a second. -/
def handshakeSlice : τ := Seconds.ofDecimal 1 (-1)

/-- The name of the connection's logger. -/
def logger : String := "loadbench.mqtt.connection"

/-! ## §1 Notes and events -/

/-- The time on the clock. -/
def now (w : Wire τ σ) : Act τ σ τ := do return w.timer.now (← Traced.current).env

/-- Notes a happening at the present time. -/
def record (w : Wire τ σ) (h : Happening τ) : Act τ σ Unit := do Traced.note ⟨← now w, h⟩

/-- Logs a text. -/
def log (w : Wire τ σ) (level : Level) (text : String) : Act τ σ Unit :=
  record w (.log ⟨level, logger, text⟩)

/-- Changes what the connection remembers. -/
def remember (f : Link → Link) : Act τ σ Unit :=
  Traced.change fun line => { line with link := f line.link }

/-- The answers to subscriptions with one more, which replaces an older one of the same number. -/
def withGrant (grants : List (Int × List ReasonCode)) (id : Int) (codes : List ReasonCode) :
    List (Int × List ReasonCode) :=
  grants.filter (·.1 != id) ++ [(id, codes)]

/-- What an event changes. -/
def react (c : Connection τ) (w : Wire τ σ) : NetworkEvent → Act τ σ Unit
  | .answered code =>
    remember fun link => { link with answer := some code, connected := !code.failure }
  | .disconnected code => do
    if (← Traced.current).link.connected then
      log w .info (c.client ++ " disconnected from " ++ c.broker.text ++ ": " ++ code.name)
    remember fun link => { link with connected := false }
  | .granted id codes =>
    remember fun link => { link with grants := withGrant link.grants id codes }
  | .message m => if c.delivers then record w (.message m) else pure ()
  | .signal number => record w (.signal number)

/-- What the events of a loop call change, in their order. -/
def reactAll (c : Connection τ) (w : Wire τ σ) : List NetworkEvent → Act τ σ Unit
  | [] => pure ()
  | e :: rest => do
    react c w e
    reactAll c w rest

/-! ## §2 Calls of the network library -/

/-- Notes a call of the library and makes it. -/
def call {α : Type} (w : Wire τ σ) (noted : NetworkCall τ) (f : σ → α × σ) : Act τ σ α := do
  record w (.network noted)
  let (result, env) := f (← Traced.current).env
  Traced.change fun line => { line with env }
  return result

/-- Lets the library work, and reacts to what happened. -/
def loop (c : Connection τ) (w : Wire τ σ) (timeout : τ) : Act τ σ Int := do
  let (events, code) ← call w (.loop timeout) (w.network.loop timeout)
  reactAll c w events
  return code

/-- Tells the library to end the connection. -/
def hangUp (w : Wire τ σ) : Act τ σ Unit :=
  call w .disconnect fun env => ((), w.network.disconnect env)

/-- Makes the library's client, with credentials if there is a user name. -/
def create (c : Connection τ) (w : Wire τ σ) : Act τ σ Unit := do
  record w (.network (.client c.client))
  match c.username with
  | some username => record w (.network (.credentials username c.password))
  | none => pure ()

/-! ## §3 Requests -/

/-- Calls `loop` until the broker has answered. An answer decides, even if the call that brought it
gave another code than success or the time is over. -/
def awaitAnswer (c : Connection τ) (w : Wire τ σ) (deadline : τ) : Nat → Act τ σ Unit
  | 0 => throw .outOfFuel
  | fuel + 1 => do
    match (← Traced.current).link.answer with
    | some code =>
      if code.failure then Action.fail (.connect (.refused c.broker c.client code.name))
    | none =>
      if Seconds.le deadline (← now w) then
        Action.fail (.connect (.noAnswer c.broker (Seconds.text c.connectTimeout)))
      let code ← loop c w handshakeSlice
      if code ≠ resultOk ∧ (← Traced.current).link.answer = none then
        Action.fail (.connect (.handshake c.broker (resultText code)))
      awaitAnswer c w deadline fuel

/-- Ends a connection that was opened but not accepted. -/
def abandon (c : Connection τ) (w : Wire τ σ) : Act τ σ Unit := do
  remember fun link => { link with connected := false }
  hangUp w
  discard (loop c w Seconds.zero)

/-- Opens a connection and waits for the broker's answer. -/
def connect (c : Connection τ) (w : Wire τ σ) (fuel : Nat) : Act τ σ Unit := do
  remember fun link => { link with answer := none }
  let opened ← call w (.connect c.broker.host c.broker.port c.keepalive)
    (w.network.connect c.broker.host c.broker.port c.keepalive)
  match opened with
  | .ok () => pure ()
  | .error (.os e) => Action.fail (.connect (.unreachable c.broker e.message))
  | .error (.value e) => Action.fail (.connect (.unreachable c.broker e.message))
  | .error (.config e) => Action.fail (.connect (.unreachable c.broker e.message))
  | .error f => Action.fail f
  let deadline := Seconds.add (← now w) c.connectTimeout
  Action.recover (awaitAnswer c w deadline fuel) fun
    | .connect e => some do
      abandon c w
      Action.fail (.connect e)
    | _ => none
  log w .debug (c.client ++ " connected to " ++ c.broker.text)

/-- Publishes a message and gives its number. -/
def publish (c : Connection τ) (w : Wire τ σ) (topic : String) (payload : Bytes) (qos : Int) :
    Act τ σ Int := do
  let (code, id) ← call w (.publish topic payload qos) (w.network.publish topic payload qos)
  if code = resultNoConnection then Action.fail (.connect (.lost c.client c.broker))
  if code ≠ resultOk then Action.fail (.publish (.failed topic (resultText code)))
  return id

/-- Lets the connection work for at most `timeout`. -/
def pump (c : Connection τ) (w : Wire τ σ) (timeout : τ) : Act τ σ Unit := do
  let code ← loop c w timeout
  if code ≠ resultOk then
    remember fun link => { link with connected := false }
    Action.fail (.connect (.lostInLoop c.client c.broker (resultText code)))

/-- Pumps until there is an answer to the subscription `id`, and gives its codes. -/
def awaitGrant (c : Connection τ) (w : Wire τ σ) (topic : String) (id : Int) (deadline : τ) :
    Nat → Act τ σ (List ReasonCode)
  | 0 => throw .outOfFuel
  | fuel + 1 => do
    match (← Traced.current).link.grants.lookup id with
    | some codes =>
      remember fun link => { link with grants := link.grants.filter (·.1 != id) }
      return codes
    | none =>
      if Seconds.le deadline (← now w) then
        Action.fail (.subscribe (.noAnswer topic (Seconds.text (standardTimeout : τ))))
      pump c w handshakeSlice
      awaitGrant c w topic id deadline fuel

/-- Subscribes to a topic and waits for the broker's answer, of which no code may be a failure. -/
def subscribe (c : Connection τ) (w : Wire τ σ) (topic : String) (qos : Int) (fuel : Nat) :
    Act τ σ Unit := do
  let (code, id) ← call w (.subscribe topic qos) (w.network.subscribe topic qos)
  if code = resultNoConnection then Action.fail (.connect (.lost c.client c.broker))
  if code ≠ resultOk then Action.fail (.subscribe (.failed topic (resultText code)))
  let deadline := Seconds.add (← now w) standardTimeout
  let codes ← awaitGrant c w topic id deadline fuel
  match codes.find? (·.failure) with
  | some refusal => Action.fail (.subscribe (.refused topic refusal.name))
  | none => pure ()

/-- Ends the connection if there is one. -/
def disconnect (c : Connection τ) (w : Wire τ σ) : Act τ σ Unit := do
  if (← Traced.current).link.connected then
    hangUp w
    let _ ← loop c w handshakeSlice
    remember fun link => { link with connected := false }

/-! ## §4 The session of a client -/

/-- The reply that an action on the line gives. -/
def replyOf {α : Type} (a : Act τ σ α) (line : Line σ) : Reply τ × Line σ :=
  let (outcome, after) := Action.runFrom a { state := line }
  (⟨outcome.map fun _ => (), after.history⟩, after.state)

/-- The connection as a session; `fuel` bounds the loop calls of each wait. -/
def session (c : Connection τ) (w : Wire τ σ) (fuel : Nat) : Session τ (Line σ) where
  connect := replyOf (connect c w fuel)
  disconnect := replyOf (disconnect c w)
  subscribe topic qos := replyOf (subscribe c w topic qos fuel)
  publish topic payload qos := replyOf (publish c w topic payload qos)
  pump timeout := replyOf (pump c w timeout)

end Connection

end BrokerLoad
