import BrokerLoad.Number.Numeral
import BrokerLoad.Text.Quoted

/-!
# Broker addresses and configuration errors

A broker address is a host with a port. Its text is `host` or `host:port`; the last colon
separates the port, so a host may itself hold colons.

## Main definitions

* `ConfigError`: why a configuration is refused, with its wording in `ConfigError.message`.
* `BrokerAddress.parse`: reads an address.
* `BrokerAddress.text`: writes an address, always with its port.
-/

namespace BrokerLoad

/-! ## §1 Refused configurations -/

/-- Why a configuration is refused. Durations appear as they are shown to the user. A quality of
service may have been given as an empty value. -/
inductive ConfigError where
  | emptyBroker
  | brokerPort (text : String)
  | brokerAddress (text : String)
  | emptyTopic
  | qos (given : Option Int)
  | keepalive (given : Int)
  | processCount
  | payloadSize (given : Int)
  | duration (shown : String)
  | interval (shown : String)
  deriving DecidableEq, Repr

/-- The wording of a configuration error. -/
def ConfigError.message : ConfigError → String
  | emptyBroker => "broker address is empty"
  | brokerPort text => "invalid broker port in " ++ quoted text
  | brokerAddress text => "invalid broker address " ++ quoted text
  | emptyTopic => "topic is empty"
  | qos (some given) => "qos must be 0, 1 or 2: " ++ integerText given
  | qos none => "qos must be 0, 1 or 2: []"
  | keepalive given => "keepalive must be positive: " ++ integerText given
  | processCount => "process counts must not be negative"
  | payloadSize given => "payload size must not be negative: " ++ integerText given
  | duration shown => "duration must be positive: " ++ shown
  | interval shown => "interval must be positive: " ++ shown

/-! ## §2 Addresses -/

/-- The port used when an address names none. -/
def defaultPort : Int := 1883

/-- Where a broker is reached. -/
structure BrokerAddress where
  host : String
  port : Int := defaultPort
  deriving DecidableEq, Repr

namespace BrokerAddress

/-- The address as text, with its port. -/
def text (a : BrokerAddress) : String := a.host ++ ":" ++ integerText a.port

/-- Reads `host` or `host:port`. Blanks around the text are dropped; the port is an integer
numeral between `1` and `65535`, and the host before it is not empty. -/
def parse (given : String) : Except ConfigError BrokerAddress :=
  let chars := strip given.toList
  let shown := String.ofList chars
  if chars = [] then .error .emptyBroker
  else match cutLast? ':' chars with
    | none => .ok { host := shown }
    | some (host, portChars) =>
      match readIntegerChars portChars with
      | .error _ => .error (.brokerPort shown)
      | .ok port =>
        if host ≠ [] ∧ 0 < port ∧ port < 65536 then .ok { host := String.ofList host, port }
        else .error (.brokerAddress shown)

end BrokerAddress

end BrokerLoad
