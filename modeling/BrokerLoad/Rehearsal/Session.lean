import BrokerLoad.Client.Session
import BrokerLoad.Rehearsal.Clock

/-!
# Scripted sessions

A scripted session answers the requests of a client from a script: how long each publish and each
pump takes, what arrives meanwhile, and which of them fail.

## Main definitions

* `SessionScript`: the script.
* `SessionRehearsal`: the script and how far it has come.
* `SessionRehearsal.session`, `timer`: the script as a session with a clock.
-/

namespace BrokerLoad

/-- How one publish goes. -/
structure PublishStep (τ : Type) where
  latency : Option τ := none
  fault : Option Fault := none

/-- How one pump goes. -/
structure PumpStep (τ : Type) where
  lag : Option τ := none
  messages : List Message := []
  stops : Bool := false
  fault : Option Fault := none

/-- What happens to a client. Publishes beyond the list take `latency`. With a limit every pump from
that number on loses the connection; `stopsAtEnd` asks the client to stop at each pump beyond the
list. -/
structure SessionScript (τ : Type) where
  connectFault : Option Fault := none
  subscribeFault : Option Fault := none
  sleepFault : Option Fault := none
  publishes : List (PublishStep τ) := []
  latency : τ
  pumps : List (PumpStep τ) := []
  pumpLimit : Option Int := none
  stopsAtEnd : Bool := false

/-- A script, the time, and the numbers of publishes and pumps so far. -/
structure SessionRehearsal (τ : Type) where
  script : SessionScript τ
  now : τ
  published : Nat := 0
  pumped : Nat := 0

namespace SessionRehearsal

variable {τ : Type} [Seconds τ]

/-- The outcome of a request that may have a scripted fault. -/
def outcomeOf : Option Fault → Except Stop Unit
  | some f => .error (.fault f)
  | none => .ok ()

/-- Publishes: the clock moves by the step's latency. -/
def publish (r : SessionRehearsal τ) : Reply τ × SessionRehearsal τ :=
  let step := (r.script.publishes[r.published]?).getD {}
  (⟨outcomeOf step.fault, []⟩,
    { r with
      now := Seconds.add r.now (step.latency.getD r.script.latency)
      published := r.published + 1 })

/-- Pumps: the clock moves by the timeout and the step's lag together, then messages arrive. -/
def pump (timeout : τ) (r : SessionRehearsal τ) : Reply τ × SessionRehearsal τ :=
  let step := r.script.pumps[r.pumped]?
  let lag := (step.bind (·.lag)).getD Seconds.zero
  let now := Seconds.add r.now (Seconds.add timeout lag)
  let arrivals := ((step.map (·.messages)).getD []).map fun m => (⟨now, .message m⟩ : Note τ)
  let stops := (step.map (·.stops)).getD r.script.stopsAtEnd
  let limit := match r.script.pumpLimit with
    | some n =>
      if n ≤ r.pumped + 1 then some (Fault.connect (.other "pump limit")) else none
    | none => none
  let fault := ((step.bind (·.fault)).or limit)
  (⟨outcomeOf fault, arrivals ++ if stops then [⟨now, .stopRequest⟩] else []⟩,
    { r with now, pumped := r.pumped + 1 })

/-- The script as a session. -/
def session : Session τ (SessionRehearsal τ) where
  connect r := (⟨outcomeOf r.script.connectFault, []⟩, r)
  disconnect r := (⟨.ok (), []⟩, r)
  subscribe _ _ r := (⟨outcomeOf r.script.subscribeFault, []⟩, r)
  publish _ _ _ r := r.publish
  pump := pump

/-- The script's clock. -/
def timer : Timer τ (SessionRehearsal τ) where
  now r := r.now
  sleep duration r :=
    match sleepFault? duration r.script.sleepFault with
    | some f => (.error f, r)
    | none => (.ok (), { r with now := Seconds.add r.now duration })

end SessionRehearsal

end BrokerLoad
