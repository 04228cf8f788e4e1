import BrokerLoad.Time

/-!
# The plan of a load test

A plan says how many publishers and subscribers take part, what each publisher sends, how often and
for how long, and how the broker is reached. A value of the type has passed every check.

## Main definitions

* `Plan.make`: checks and builds a plan.
* `Plan.ofAttempts`: the same for values that may be missing.
* `Plan.payload`: the bytes of each message.
* `Plan.checkPayload`: whether there can be so many bytes.
-/

namespace BrokerLoad

/-- A row of bytes. -/
abbrev Bytes := List UInt8

/-- One load test. An interval longer than the duration is allowed: a single message is sent. -/
structure Plan (τ : Type) [Seconds τ] where
  publishers : Nat
  subscribers : Nat
  payloadSize : Nat
  duration : τ
  interval : τ
  settings : ClientSettings
  duration_pos : Seconds.lt Seconds.zero duration = true
  interval_pos : Seconds.lt Seconds.zero interval = true

namespace Plan

variable {τ : Type} [Seconds τ]

/-- Checks the process counts, the payload size, the duration and the interval, in this order, and
then takes the settings of the clients. All come as attempts; one that failed counts only when its
turn has come. -/
def ofAttempts {ε : Type} (refuse : ConfigError → ε)
    (publishers subscribers payloadSize : Except ε Int) (duration interval : Except ε τ)
    (settings : Except ε ClientSettings) : Except ε (Plan τ) := do
  let publishers ← publishers
  if publishers < 0 then throw (refuse .processCount)
  let subscribers ← subscribers
  if subscribers < 0 then throw (refuse .processCount)
  let payloadSize ← payloadSize
  if payloadSize < 0 then throw (refuse (.payloadSize payloadSize))
  let duration ← duration
  if hd : Seconds.lt Seconds.zero duration = true then
    let interval ← interval
    if hi : Seconds.lt Seconds.zero interval = true then
      return ⟨publishers.toNat, subscribers.toNat, payloadSize.toNat, duration, interval,
        ← settings, hd, hi⟩
    else throw (refuse (.interval (Seconds.text interval)))
  else throw (refuse (.duration (Seconds.text duration)))

/-- Checks the process counts, the payload size, the duration and the interval, in this order, and
then the settings of the clients. -/
def make (publishers subscribers payloadSize : Int) (duration interval : τ)
    (broker : BrokerAddress) (topic : String) (qos keepalive : Int)
    (username password : Option String) : Except ConfigError (Plan τ) :=
  ofAttempts id (.ok publishers) (.ok subscribers) (.ok payloadSize) (.ok duration) (.ok interval)
    (ClientSettings.make broker topic qos keepalive username password)

/-- The byte that fills a payload: a capital `A`. -/
def fillerByte : UInt8 := 65

/-- The bytes of each message. -/
def payload (p : Plan τ) : Bytes := List.replicate p.payloadSize fillerByte

/-- The largest number of bytes that can be addressed. -/
def addressable : Nat := 9223372036854775807

/-- The memory of a machine of which nothing else is said: sixty-four gibibytes. -/
def standardMemory : Nat := 68719476736

/-- Whether the payload can be made at all on a machine with so many bytes of memory. -/
def checkPayload (p : Plan τ) (memory : Nat := standardMemory) : Except Fault Unit :=
  if addressable < p.payloadSize then .error (.overflow .tooManyBytes)
  else if memory < p.payloadSize then .error .outOfMemory
  else .ok ()

end Plan

end BrokerLoad
