import BrokerLoad.Table.Csv
import BrokerLoad.Time

/-!
# Process records and the summary of a run

The runner keeps a record for every client process it tries to start. A record is settled once:
after its status is set, later outcomes are ignored. The summary counts the records and decides
whether the run succeeded.

## Main definitions

* `Record`, `Record.settle`: one client process and its outcome.
* `Summary`: the records of a run with the numbers that were asked for.
* `Summary.text`, `Summary.csv`: how a run is reported.
-/

namespace BrokerLoad

/-- What a client process is there for. -/
inductive Role where
  | publisher | subscriber
  deriving DecidableEq, Repr

/-- The name of a role. -/
def Role.name : Role → String
  | publisher => "publisher"
  | subscriber => "subscriber"

/-- How a client process ended. -/
inductive Status where
  | pending | success | failure
  deriving DecidableEq, Repr

/-- The name of a status. -/
def Status.name : Status → String
  | pending => "pending"
  | success => "success"
  | failure => "failure"

/-- One client process. A record without a process belongs to a process that never started. -/
structure Record (τ π : Type) where
  role : Role
  index : Int
  process : Option π := none
  status : Status := .pending
  returncode : Option Int := none
  error : Option String := none
  sent : Option Int := none
  elapsed : Option τ := none

namespace Record

variable {τ π : Type}

/-- The name of a record: its role and its index. -/
def name (r : Record τ π) : String := r.role.name ++ "-" ++ integerText r.index

/-- Whether the outcome is known. -/
def settled (r : Record τ π) : Bool := r.status != .pending

/-- The record with its outcome. Only the first outcome counts. -/
def settle (r : Record τ π) (status : Status) (returncode : Option Int) (error : Option String) :
    Record τ π :=
  if r.settled then r else { r with status, returncode, error }

/-- Settling keeps the role. -/
@[simp] theorem settle_role (r : Record τ π) (status : Status) (returncode : Option Int)
    (error : Option String) : (r.settle status returncode error).role = r.role := by
  unfold settle; split <;> rfl

end Record

/-- The records of a run, with the numbers of clients that were asked for. -/
structure Summary (τ π : Type) where
  publishers : Int
  subscribers : Int
  records : List (Record τ π) := []
  buildFailed : Bool := false

namespace Summary

variable {τ π : Type}

/-- How many clients of a role ended with a status. -/
def count (s : Summary τ π) (role : Role) (status : Status) : Nat :=
  s.records.countP fun r => r.role = role ∧ r.status = status

/-- How many messages the publishers sent, as far as they reported it. -/
def messagesSent (s : Summary τ π) : Int :=
  (s.records.filter (·.role = .publisher)).foldr (fun r total => r.sent.getD 0 + total) 0

/-- Whether the run failed: the build did, or publishers were asked for and none succeeded. -/
def failed (s : Summary τ π) : Bool :=
  s.buildFailed || (decide (0 < s.publishers) && s.count .publisher .success == 0)

/-- The exit code of a run. -/
def exitCode (s : Summary τ π) : Int := if s.failed then 1 else 0

/-- The wording for an exit code. -/
def exitReason (code : Option Int) : String := "exit code " ++ knownIntegerText code

/-- Why a client failed: its error, or its exit code if there is none. -/
def reason (r : Record τ π) : String :=
  match r.error with
  | some error => if error = "" then exitReason r.returncode else error
  | none => exitReason r.returncode

/-- The lines of the report on a run that was built. -/
def reportLines (s : Summary τ π) : List String :=
  let number := fun role status => toString (s.count role status)
  ["Load test summary",
    "  publishers:  " ++ number .publisher .success ++ "/" ++ integerText s.publishers ++
      " succeeded, " ++ number .publisher .failure ++ " failed",
    "  subscribers: " ++ number .subscriber .success ++ "/" ++ integerText s.subscribers ++
      " terminated cleanly, " ++ number .subscriber .failure ++ " failed",
    "  messages sent: " ++ integerText s.messagesSent] ++
  (s.records.filter (·.status = .failure)).map (fun r => "  ! " ++ r.name ++ ": " ++ reason r) ++
  [if s.failed then "Test failed." else "Test finished successfully."]

/-- The report on a run. A number of messages with too many digits cannot be written. -/
def text (s : Summary τ π) : Except Fault String :=
  if s.buildFailed then .ok "Build failed, test aborted."
  else if isWritable s.messagesSent then .ok (String.intercalate "\n" s.reportLines)
  else .error (.value .unwritableInteger)

/-- The report on a run can be printed if its messages can be counted. -/
theorem text_of_writable {s : Summary τ π} (hbuilt : s.buildFailed = false)
    (hmessages : isWritable s.messagesSent = true) :
    s.text = .ok (String.intercalate "\n" s.reportLines) := by
  simp [text, hbuilt, hmessages]

theorem text_of_unwritable {s : Summary τ π} (hbuilt : s.buildFailed = false)
    (hmessages : isWritable s.messagesSent = false) :
    s.text = .error (.value .unwritableInteger) := by
  simp [text, hbuilt, hmessages]

/-- The names of the columns of a results table. -/
def columns : List String := ["role", "index", "pid", "status", "returncode", "sent", "elapsed"]

/-- A number in a results table, or nothing. -/
def cell : Option Int → String
  | some n => integerText n
  | none => ""

/-- The row of a record in a results table. -/
def row [Seconds τ] (pid : π → Int) (r : Record τ π) : List String :=
  [r.role.name, integerText r.index, cell (r.process.map pid), r.status.name, cell r.returncode,
    cell r.sent, (r.elapsed.map Seconds.text).getD ""]

/-- The results table: a header and a row for every record. -/
def csv [Seconds τ] (pid : π → Int) (s : Summary τ π) : String :=
  String.join ((columns :: s.records.map (row pid)).map Csv.renderStrings)

end Summary

end BrokerLoad
