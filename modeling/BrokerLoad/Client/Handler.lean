import BrokerLoad.Config.Plan
import BrokerLoad.Table.Csv

/-!
# Message handlers

A handler says what becomes of each message that a subscriber receives: it may be dropped, counted,
or counted and logged as a row of a table with the time, the topic and the size.

## Main definitions

* `Handler`: what is done with a message.
* `Tally`, `Handler.counter`: the number of messages and their bytes.
* `MessageLog`, `Handler.messageLog`: the counts together with the table.
-/

namespace BrokerLoad

/-- A message from the broker. -/
structure Message where
  topic : String
  payload : Bytes
  deriving DecidableEq, Repr

/-- What is done with a message that arrives at a given time; `η` is what the handler keeps. -/
structure Handler (τ η : Type) where
  accept : τ → Message → η → η

/-- How many messages arrived, and their bytes. -/
structure Tally where
  messages : Nat := 0
  bytes : Nat := 0
  deriving DecidableEq, Repr

/-- The tally with one more message. -/
def Tally.add (t : Tally) (m : Message) : Tally := ⟨t.messages + 1, t.bytes + m.payload.length⟩

/-- A tally and a table with a row for each message. Once closed it takes no more rows. -/
structure MessageLog where
  tally : Tally := {}
  text : String := Csv.renderStrings ["recv", "topic", "size"]
  isOpen : Bool := true
  deriving DecidableEq, Repr

namespace MessageLog

variable {τ : Type} [Seconds τ]

/-- The row for a message: the time with six places, the topic and the size. -/
def row (time : τ) (m : Message) : List String :=
  [Seconds.fixed 6 time, m.topic, toString m.payload.length]

/-- The log with one more message. A closed log still counts it. -/
def record (log : MessageLog) (time : τ) (m : Message) : MessageLog :=
  { log with
    tally := log.tally.add m
    text := if log.isOpen then log.text ++ Csv.renderStrings (row time m) else log.text }

/-- Logs a message; a closed log counts it and then refuses. -/
def write (log : MessageLog) (time : τ) (m : Message) : Except Fault Unit × MessageLog :=
  (if log.isOpen then .ok () else .error (.value .closedFile), log.record time m)

/-- The log closed; closing again changes nothing. -/
def close (log : MessageLog) : MessageLog := { log with isOpen := false }

end MessageLog

namespace Handler

variable {τ : Type}

/-- Drops every message. -/
def discard : Handler τ Unit := ⟨fun _ _ s => s⟩

/-- Counts every message. -/
def counter : Handler τ Tally := ⟨fun _ m t => t.add m⟩

/-- Logs every message. -/
def messageLog [Seconds τ] : Handler τ MessageLog := ⟨fun time m log => log.record time m⟩

end Handler

end BrokerLoad
