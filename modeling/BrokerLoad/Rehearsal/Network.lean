import BrokerLoad.Client.Network
import BrokerLoad.Rehearsal.Clock

/-!
# Scripted networks

A scripted network answers the calls of a connection from a script: what happens in each call of
`loop`, which result codes come back, and how long things take.

## Main definitions

* `NetworkScript`: the script.
* `NetworkRehearsal`: the script and how far it has come.
* `NetworkRehearsal.network`, `timer`: the script as a network with a clock.
-/

namespace BrokerLoad

/-- How one call of `loop` goes; it takes its timeout unless it says otherwise. -/
structure LoopStep (τ : Type) where
  takes : Option τ := none
  events : List NetworkEvent := []
  code : Int := 0

/-- How one publish goes. -/
structure SendStep (τ : Type) where
  code : Int := 0
  id : Option Int := none
  takes : Option τ := none

/-- What the network does. From call number `loopLimit` of `loop` on the connection counts as
lost. -/
structure NetworkScript (τ : Type) where
  connectFault : Option Fault := none
  loops : List (LoopStep τ) := []
  loopLimit : Int := 1000
  sends : List (SendStep τ) := []
  subscribeCode : Int := 0
  subscribeId : Int := 1
  sleepFault : Option Fault := none

/-- A script, the time, and the numbers of loop calls and publishes so far. -/
structure NetworkRehearsal (τ : Type) where
  script : NetworkScript τ := {}
  now : τ
  looped : Nat := 0
  sent : Nat := 0

namespace NetworkRehearsal

variable {τ : Type} [Seconds τ]

/-- The result code of a lost connection. -/
def resultLost : Int := 7

/-- Calls `loop`. -/
def loop (timeout : τ) (r : NetworkRehearsal τ) : (List NetworkEvent × Int) × NetworkRehearsal τ :=
  let step := (r.script.loops[r.looped]?).getD {}
  let code := if r.script.loopLimit ≤ r.looped + 1 then resultLost else step.code
  ((step.events, code),
    { r with now := Seconds.add r.now (step.takes.getD timeout), looped := r.looped + 1 })

/-- Publishes; messages are numbered from one. -/
def publish (r : NetworkRehearsal τ) : (Int × Int) × NetworkRehearsal τ :=
  let step := (r.script.sends[r.sent]?).getD {}
  ((step.code, step.id.getD (r.sent + 1)),
    { r with now := Seconds.add r.now (step.takes.getD Seconds.zero), sent := r.sent + 1 })

/-- The script as a network. -/
def network : Network τ (NetworkRehearsal τ) where
  connect _ _ _ r :=
    (match r.script.connectFault with
      | some f => .error f
      | none => .ok (), r)
  loop := loop
  publish _ _ _ r := r.publish
  subscribe _ _ r := ((r.script.subscribeCode, r.script.subscribeId), r)
  disconnect r := r

/-- The script's clock. -/
def timer : Timer τ (NetworkRehearsal τ) where
  now r := r.now
  sleep duration r :=
    match sleepFault? duration r.script.sleepFault with
    | some f => (.error f, r)
    | none => (.ok (), { r with now := Seconds.add r.now duration })

/-- The rehearsal with another script, its counts starting anew. -/
def withScript (r : NetworkRehearsal τ) (script : NetworkScript τ) : NetworkRehearsal τ :=
  { script, now := r.now }

end NetworkRehearsal

end BrokerLoad
