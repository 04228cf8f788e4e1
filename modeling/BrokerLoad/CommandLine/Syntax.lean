import BrokerLoad.Number.Numeral
import BrokerLoad.Text.Quoted

/-!
# Command-line syntax

A command is described by its switches and its operands. A program may have modes, each with a
command of its own; its mode word then stands where the operands would.

## Main definitions

* `Kind`, `Switch`, `Operand`, `Command`: the description of a command line.
* `Complaint`, `UsageError`: why a command line is refused.
* `readValue`: the value of an argument.
-/

namespace BrokerLoad.CommandLine

/-! ## §1 Descriptions -/

/-- What a switch or an operand takes: nothing, or a value of some kind. -/
inductive Kind where
  | help
  | flag
  | text
  | integer
  | choice (allowed : List Int)
  | real
  deriving DecidableEq, Repr

/-- Whether a value belongs to it. -/
def Kind.takesValue : Kind → Bool
  | help | flag => false
  | _ => true

/-- A switch with its spellings. -/
structure Switch where
  spellings : List String
  key : String
  kind : Kind
  deriving DecidableEq, Repr

/-- An operand. -/
structure Operand where
  key : String
  kind : Kind
  deriving DecidableEq, Repr

/-- A command. One with modes has a mode word in place of operands. -/
structure Command where
  name : String
  switches : List Switch
  operands : List Operand := []
  hasModes : Bool := false
  deriving DecidableEq, Repr

/-- The switch that asks for help. -/
def helpSwitch : Switch := ⟨["-h", "--help"], "help", .help⟩

/-- The name of a switch in complaints. -/
def Switch.title (s : Switch) : String := String.intercalate "/" s.spellings

/-- All spellings of some switches, each with its switch. -/
def spellingsOf (switches : List Switch) : List (String × Switch) :=
  switches.flatMap fun s => s.spellings.map fun spelling => (spelling, s)

/-! ## §2 Complaints -/

/-- Why a command line is refused. -/
inductive Complaint where
  | ambiguous (given : String) (candidates : List String)
  | expectedValue (argument : String)
  | invalidValue (argument type given : String)
  | invalidChoice (argument given : String) (choices : List String)
  | ignoredValue (argument given : String)
  | missing (names : List String)
  | unrecognized (arguments : List String)
  | other (text : String)
  deriving DecidableEq, Repr

/-- The wording of a complaint. -/
def Complaint.message : Complaint → String
  | ambiguous given candidates =>
    "ambiguous option: " ++ given ++ " could match " ++ String.intercalate ", " candidates
  | expectedValue argument => "argument " ++ argument ++ ": expected one argument"
  | invalidValue argument type given =>
    "argument " ++ argument ++ ": invalid " ++ type ++ " value: " ++ quoted given
  | invalidChoice argument given choices =>
    "argument " ++ argument ++ ": invalid choice: " ++ given ++ " (choose from " ++
      String.intercalate ", " choices ++ ")"
  | ignoredValue argument given =>
    "argument " ++ argument ++ ": ignored explicit argument " ++ quoted given
  | missing names => "the following arguments are required: " ++ String.intercalate ", " names
  | unrecognized arguments => "unrecognized arguments: " ++ String.intercalate " " arguments
  | other text => text

/-- A complaint of a command. -/
structure UsageError where
  command : String
  complaint : Complaint
  deriving DecidableEq, Repr

/-- The line that reports a usage error. -/
def UsageError.line (e : UsageError) : String := e.command ++ ": error: " ++ e.complaint.message

/-- Why reading a command line ended early. -/
inductive Refusal where
  | help
  | usage (e : UsageError)
  deriving DecidableEq, Repr

/-! ## §3 Values -/

/-- A value that was read. An empty one is what is left of a value `--`, which the reader takes for
the marker and drops. -/
inductive Value where
  | on
  | empty
  | text (s : String)
  | integer (n : Int)
  | real (x : Double)
  deriving DecidableEq

/-- Reads the value of an argument; complaints call the argument by its title. -/
def readValue (title : String) (kind : Kind) (given : String) : Except Complaint Value :=
  match kind with
  | .help | .flag => .ok .on
  | .text => .ok (.text given)
  | .integer =>
    match readInteger given with
    | .ok n => .ok (.integer n)
    | .error _ => .error (.invalidValue title "int" given)
  | .choice allowed =>
    match readInteger given with
    | .ok n =>
      if n ∈ allowed then .ok (.integer n)
      else .error (.invalidChoice title (integerText n) (allowed.map integerText))
    | .error _ => .error (.invalidValue title "int" given)
  | .real =>
    match readDouble? given with
    | some x => .ok (.real x)
    | none => .error (.invalidValue title "float" given)

end BrokerLoad.CommandLine
