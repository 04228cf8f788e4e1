import BrokerLoad.Client.Handler

/-!
# The network side of a client

A client talks to the broker through a network library that does nothing on its own: data moves
only during a call of `loop`, which reports what happened in it as a list of events. The library is
given as functions on a state of unknown type, so that every statement about a client holds for
every behaviour of the network.

## Main definitions

* `NetworkEvent`: what can happen during a call of `loop`.
* `Network`: the calls that a client makes.
* `Timer`: the clock and the means to sleep.
-/

namespace BrokerLoad

/-- The broker's answer to a request, and whether it is a refusal. -/
structure ReasonCode where
  name : String
  failure : Bool
  deriving DecidableEq, Repr

/-- What can happen during a call of `loop`: an answer to the request to connect, the end of the
connection, an answer to a subscription, a message, or a signal to the process. -/
inductive NetworkEvent where
  | answered (code : ReasonCode)
  | disconnected (code : ReasonCode)
  | granted (id : Int) (codes : List ReasonCode)
  | message (m : Message)
  | signal (number : Int)
  deriving DecidableEq, Repr

/-- A user name or a password. One that was given as an empty value is not an empty text. -/
inductive Credential where
  | text (s : String)
  | empty
  deriving DecidableEq, Repr

/-- The text of a user name or a password, if it has one. -/
def Credential.text? : Credential → Option String
  | text s => some s
  | empty => none

/-- A call of the network library. -/
inductive NetworkCall (τ : Type) where
  | client (id : String)
  | credentials (username : Credential) (password : Option Credential)
  | connect (host : String) (port keepalive : Int)
  | loop (timeout : τ)
  | publish (topic : String) (payload : Bytes) (qos : Int)
  | subscribe (topic : String) (qos : Int)
  | disconnect

/-- The network library. `loop` gives the events and a result code, `publish` and `subscribe` a
result code and the number of the request. -/
structure Network (τ σ : Type) where
  connect : String → Int → Int → σ → Except Fault Unit × σ
  loop : τ → σ → (List NetworkEvent × Int) × σ
  publish : String → Bytes → Int → σ → (Int × Int) × σ
  subscribe : String → Int → σ → (Int × Int) × σ
  disconnect : σ → σ

/-- The clock, and the means to let time pass. -/
structure Timer (τ σ : Type) where
  now : σ → τ
  sleep : τ → σ → Except Fault Unit × σ

/-- The result code of a call that worked. -/
def resultOk : Int := 0

/-- The result code of a call without a connection. -/
def resultNoConnection : Int := 4

/-- The text of a result code. -/
def resultText (code : Int) : String :=
  match code with
  | 0 => "No error."
  | 1 => "Out of memory."
  | 2 => "A network protocol error occurred when communicating with the broker."
  | 3 => "Invalid function arguments provided."
  | 4 => "The client is not currently connected."
  | 5 => "The connection was refused."
  | 6 => "Message not found (internal error)."
  | 7 => "The connection was lost."
  | 8 => "A TLS error occurred."
  | 9 => "Payload too large."
  | 10 => "This feature is not supported."
  | 11 => "Authorisation failed."
  | 12 => "Access denied by ACL."
  | 13 => "Unknown error."
  | 14 => "Error defined by errno."
  | 15 => "Message queue full."
  | 16 => "Client or broker did not communicate in the keepalive interval."
  | _ => "Unknown error."

end BrokerLoad
