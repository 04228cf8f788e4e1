import BrokerLoad.Client.Report
import BrokerLoad.Client.Schedule
import BrokerLoad.Client.Session

/-!
# Publishers

A publisher sends the plan's payload at the deadlines of a schedule that starts with its loop, until
the duration is over. Between sends it lets the connection work and sleeps in short stretches. When
a send takes longer than the interval the next deadline is already due and is met at once; deadlines
missed before that one are dropped, so the rate falls to what the broker can take.

## Main definitions

* `Publisher.loop`: one turn after the other until the duration is over.
* `Publisher.run`: the life of a publisher from connecting to disconnecting.
-/

namespace BrokerLoad.Publisher

variable {τ σ η : Type} [Seconds τ]

/-- How finely a publisher divides its waiting: the longest pump and the longest sleep. -/
structure Tuning (τ : Type) where
  ioSlice : τ
  pollQuantum : τ

/-- Pumps of at most a hundredth of a second and sleeps of at most a twentieth. -/
def Tuning.standard : Tuning τ := ⟨Seconds.ofDecimal 1 (-2), Seconds.ofDecimal 5 (-2)⟩

/-- How far a publisher has come: what it sent, what it failed to send, the index of the next
message and its deadline. -/
structure Progress (τ : Type) where
  sent : Nat := 0
  errors : Nat := 0
  index : Int := 0
  deadline : τ

/-- The name of the publisher's logger. -/
def logger : String := "loadbench.mqtt.publisher"

/-- Sends the message that is due. A message that is not published is counted and logged; every
other fault ends the run. -/
def send (w : Surroundings τ σ η) (plan : Plan τ) (p : Progress τ) :
    Client.Act τ σ η (Progress τ) :=
  Action.recover
    (do
      Client.request w (.publish plan.settings.topic plan.payload plan.settings.qos)
      pure { p with sent := p.sent + 1 })
    fun
      | .publish e => some do
        Client.log w .warning logger
          ("Message " ++ integerText p.index ++ " not published: " ++ e.message)
        pure { p with errors := p.errors + 1 }
      | _ => none

/-- Moves on to the next deadline after a send: the following one, or the last one due if that is
later. At most one overdue deadline stays pending. -/
def advance (w : Surroundings τ σ η) (schedule : Schedule τ) (p : Progress τ) :
    Client.Act τ σ η (Progress τ) := do
  let due ← Action.ofExcept (schedule.lastDue (← Client.now w))
  if p.index + 1 < due then
    Client.log w .debug logger
      ("Publish overran " ++ integerText (due - p.index - 1) ++ " deadlines")
  let index := max (p.index + 1) due
  return { p with index, deadline := ← Action.ofExcept (schedule.deadline index) }

/-- Turns until the duration is over. In each turn the connection works for at most one slice, and
then either the due message is sent or the publisher sleeps toward the deadline. -/
def loop (w : Surroundings τ σ η) (plan : Plan τ) (tuning : Tuning τ) (schedule : Schedule τ) :
    Nat → Progress τ → Client.Act τ σ η (Progress τ)
  | 0, _ => throw .outOfFuel
  | fuel + 1, p => do
    let isOver := fun now => Seconds.le plan.duration (Seconds.sub now schedule.start)
    let now ← Client.now w
    if isOver now then return p
    Client.request w
      (.pump (Seconds.max Seconds.zero (Seconds.min tuning.ioSlice (Seconds.sub p.deadline now))))
    let now ← Client.now w
    if isOver now then return p
    if Seconds.le p.deadline now then
      let sent ← send w plan p
      let next ← advance w schedule sent
      loop w plan tuning schedule fuel next
    else
      Client.sleep w (Seconds.min (Seconds.sub p.deadline now) tuning.pollQuantum)
      loop w plan tuning schedule fuel p

/-- Publishes on an open session. -/
def publishAll (w : Surroundings τ σ η) (plan : Plan τ) (tuning : Tuning τ) (fuel : Nat) :
    Client.Act τ σ η (Report τ) := do
  Action.ofExcept (plan.checkPayload w.memory)
  Client.log w .info logger
    ("Publishing " ++ toString plan.payloadSize ++ "-byte payload to " ++ plan.settings.topic ++
      " every " ++ Seconds.text plan.interval ++ "s for " ++ Seconds.text plan.duration ++ "s")
  Client.enter .active
  let start ← Client.now w
  let schedule : Schedule τ := ⟨start, plan.interval, plan.interval_pos⟩
  let first ← Action.ofExcept (schedule.deadline 0)
  let p ← loop w plan tuning schedule fuel { deadline := first }
  return { sent := p.sent, elapsed := Seconds.sub (← Client.now w) start, errors := p.errors }

/-- The life of a publisher: connect, publish until the duration is over, disconnect. -/
def run (w : Surroundings τ σ η) (plan : Plan τ) (tuning : Tuning τ) (fuel : Nat) :
    Client.Act τ σ η (Report τ) := do
  let report ← Client.onSession w (publishAll w plan tuning fuel)
  Client.log w .info logger
    ("Sent " ++ integerText report.sent ++ " messages in " ++ Seconds.fixed 3 report.elapsed ++ "s")
  return report

end BrokerLoad.Publisher
