import BrokerLoad.Client.Session

/-!
# Subscribers

A subscriber subscribes to the topic and lets the connection work until it is asked to stop. Every
message goes to the handler; it never publishes anything.

## Main definitions

* `Subscriber.drain`: pumps until asked to stop.
* `Subscriber.run`: the life of a subscriber from connecting to disconnecting.
-/

namespace BrokerLoad.Subscriber

variable {τ σ η : Type} [Seconds τ]

/-- The name of the subscriber's logger. -/
def logger : String := "loadbench.mqtt.subscriber"

/-- How long one pump may take when nothing else is said: a tenth of a second. -/
def standardPump : τ := Seconds.ofDecimal 1 (-1)

/-- Pumps until asked to stop; a request to stop that came earlier counts too. -/
def drain (w : Surroundings τ σ η) (timeout : τ) : Nat → Client.Act τ σ η Unit
  | 0 => throw .outOfFuel
  | fuel + 1 => do
    if (← Traced.current).stopping then return ()
    Client.request w (.pump timeout)
    drain w timeout fuel

/-- The life of a subscriber: connect, subscribe, drain, disconnect. Its result is the number of
messages it has received since it exists. -/
def run (w : Surroundings τ σ η) (settings : ClientSettings) (timeout : τ) (fuel : Nat) :
    Client.Act τ σ η Nat := do
  Client.onSession w do
    Client.request w (.subscribe settings.topic settings.qos)
    Client.log w .info logger
      ("Subscribed to " ++ settings.topic ++ " on " ++ settings.broker.text)
    Client.enter .active
    drain w timeout fuel
  let received := (← Traced.current).received
  Client.log w .info logger ("Stopped after receiving " ++ toString received ++ " messages")
  return received

end BrokerLoad.Subscriber
