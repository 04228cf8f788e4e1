import BrokerLoad.Action
import BrokerLoad.Fleet.Record
import BrokerLoad.Log

/-!
# The machine that runs the clients

The runner starts, watches and ends client processes and may have to build the client first. What
it does with the machine is given as functions on a state of unknown type, and processes by handles
of unknown type, so that statements about a run hold for every behaviour of the machine.

## Main definitions

* `Host`: the clock, the processes and the log.
* `Workshop`: compiling and looking at files.
* `Deed`: what the runner did, for its trail.
-/

namespace BrokerLoad

/-- Where the standard output of a process goes. -/
inductive Capture where
  | pipe | null
  deriving DecidableEq, Repr

/-- The exit code of a process that was waited for. It is unknown if the wait ended without one. -/
abbrev ExitCode := Option Int

/-- The clock, the processes and the log. `poll` gives the exit code of a process that is known to
have exited. `collect` and `await` wait as long as it takes and give the output and the exit code; the
bounded forms give nothing when the time is over first. `misprint` is what comes of a log record whose
text cannot be put together: the standard handlers of a log keep that to themselves, but a handler of
another kind may raise it. -/
structure Host (τ σ π : Type) where
  now : σ → Except Fault τ × σ
  sleep : τ → σ → Except Fault Unit × σ
  launch : List String → Capture → σ → Except Fault π × σ
  poll : π → σ → Except Fault (Option Int) × σ
  collect : π → σ → Except Fault (Option String × ExitCode) × σ
  collectWithin : π → τ → σ → Except Fault (Option (Option String × ExitCode)) × σ
  await : π → σ → Except Fault ExitCode × σ
  awaitWithin : π → τ → σ → Except Fault (Option ExitCode) × σ
  terminate : π → σ → Except Fault Unit × σ
  kill : π → σ → Except Fault Unit × σ
  pid : π → Int
  misprint : Fault → Except Fault Unit := fun _ => .ok ()

/-- Compiling the bundled sources, running a build command, and looking at files. -/
structure Workshop (σ : Type) where
  sources : String
  compile : String → σ → Bool × σ
  command : List String → σ → Except Fault Unit × σ
  isFile : String → σ → Bool × σ
  isExecutable : String → σ → Bool × σ

/-- What the runner did: what it logged, or why it could not, its calls on the workshop and the
machine, and what it did to its records, which are named by their positions. -/
inductive Deed (τ π : Type) where
  | log (record : LogRecord)
  | misprint (cause : Fault)
  | compile (directory : String)
  | command (argv : List String)
  | readClock
  | sleep (duration : τ)
  | launch (argv : List String) (capture : Capture)
  | poll (process : π)
  | collect (process : π) (within : Option τ)
  | await (process : π) (within : Option τ)
  | terminate (process : π)
  | kill (process : π)
  | enlist (role : Role) (index : Int)
  | read (position : Nat) (output : Option String)
  | settle (position : Nat) (status : Status) (returncode : Option Int) (error : Option String)

/-- The log records among some deeds. -/
def Deed.logRecords {τ π : Type} (deeds : List (Deed τ π)) : List LogRecord :=
  deeds.filterMap fun
    | .log record => some record
    | _ => none

end BrokerLoad
