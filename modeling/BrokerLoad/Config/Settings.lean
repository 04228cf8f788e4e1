import BrokerLoad.Config.Broker

/-!
# Client settings and defaults

`ClientSettings` is what a single client needs to reach the broker; a value of the type has passed
every check. `Defaults` holds the values used when nothing else is said, which the environment may
change.

## Main definitions

* `ClientSettings.make`: checks and builds settings.
* `ClientSettings.ofAttempts`: the same for values that may be missing.
* `Defaults.ofEnvironment`: the defaults under an environment.
-/

namespace BrokerLoad

/-- What a client needs to reach the broker. -/
structure ClientSettings where
  broker : BrokerAddress
  topic : String
  qos : Int
  keepalive : Int
  username : Option String
  password : Option String
  topic_ne : topic ≠ ""
  qos_mem : 0 ≤ qos ∧ qos ≤ 2
  keepalive_pos : 0 < keepalive
  deriving DecidableEq

namespace ClientSettings

/-- Checks the topic, the quality of service and the keep-alive time, in this order. The numbers
come as attempts; one that failed counts only when its turn has come. -/
def ofAttempts {ε : Type} (refuse : ConfigError → ε) (broker : BrokerAddress) (topic : String)
    (qos keepalive : Except ε Int) (username password : Option String) :
    Except ε ClientSettings :=
  if ht : topic ≠ "" then do
    let qos ← qos
    if hq : 0 ≤ qos ∧ qos ≤ 2 then
      let keepalive ← keepalive
      if hk : 0 < keepalive then
        return ⟨broker, topic, qos, keepalive, username, password, ht, hq, hk⟩
      else throw (refuse (.keepalive keepalive))
    else throw (refuse (.qos qos))
  else .error (refuse .emptyTopic)

/-- Checks the topic, the quality of service and the keep-alive time, in this order. -/
def make (broker : BrokerAddress) (topic : String) (qos keepalive : Int)
    (username password : Option String) : Except ConfigError ClientSettings :=
  ofAttempts id broker topic (.ok qos) (.ok keepalive) username password

end ClientSettings

/-- The keep-alive time in seconds when none is given. -/
def defaultKeepalive : Int := 60

/-- The values used when nothing else is said. The broker is still unread text. -/
structure Defaults where
  broker : String := "localhost:1883"
  topic : String := "test"
  qos : Int := 1
  deriving DecidableEq, Repr

namespace Defaults

/-- The defaults under an environment. Only a quality of service that is no integer is refused;
the other values are checked when they are used. -/
def ofEnvironment (lookup : String → Option String) :
    Except (IntegerError × String) Defaults :=
  let broker := (lookup "LOADBENCH_BROKER").getD "localhost:1883"
  let topic := (lookup "LOADBENCH_TOPIC").getD "test"
  let qosText := (lookup "LOADBENCH_QOS").getD "1"
  match readInteger qosText with
  | .ok qos => .ok { broker, topic, qos }
  | .error e => .error (e, qosText)

end Defaults

end BrokerLoad
