import BrokerLoad.CommandLine.Token

/-!
# Reading a command line

The sorted arguments are taken one after the other. A plain argument belongs to the switch that
waits for its value, or else to the next operand; a marker vanishes next to an operand. A value that
looks like the marker is dropped too, and leaves an empty value. The letters of short flags may be
joined. In a program with modes the mode word takes everything that follows
it. What nobody asked for is refused at the end.

## Main definitions

* `Command.parse`: reads the arguments of a command.
* `parseModes`: reads the arguments of a program with modes.
* `Parsed`: the values that were read.
-/

namespace BrokerLoad.CommandLine

/-! ## §1 Switches -/

/-- A switch with a value that may stand in the same argument. -/
abbrev Wanting := Switch × Option String

/-- The flags that are joined to a flag, letter by letter, and the switch with a value that may end
the row. Only short spellings can be joined. -/
def joinedFlags (table : List (String × Switch)) (s : Switch) (spelling : String) :
    List Char → Except Complaint (List Switch × Option Wanting)
  | [] => .error (.ignoredValue s.title "")
  | letter :: rest =>
    match spelling.toList, table.lookup (String.ofList ['-', letter]) with
    | '-' :: '-' :: _, _ | _, none =>
      .error (.ignoredValue s.title (String.ofList (letter :: rest)))
    | _, some t =>
      if t.kind.takesValue then
        .ok ([s], some (t, if rest.isEmpty then none else some (String.ofList rest)))
      else if rest.isEmpty then .ok ([s, t], none)
      else do
        let (flags, last) ← joinedFlags table t (String.ofList ['-', letter]) rest
        return (s :: flags, last)

/-- What a switch with something attached stands for. -/
def unfoldSwitch (table : List (String × Switch)) (s : Switch) (spelling : String)
    (attached : Option (List Char)) : Except Complaint (List Switch × Option Wanting) :=
  if s.kind.takesValue then .ok ([], some (s, attached.map String.ofList))
  else match attached with
    | none => .ok ([s], none)
    | some letters => joinedFlags table s spelling letters

/-! ## §2 Taking the arguments -/

/-- What has been read so far: values by key, what nobody asked for, and the operands still
missing. `expecting` is a switch that waits for its value, `afterOperand` tells whether the argument
in front was taken as an operand, `holdsMarker` whether the marker goes with the next operand, and
`mode` is the mode word with what follows it. -/
structure Progress where
  values : List (String × Value) := []
  extras : List String := []
  missing : List Operand := []
  expecting : Option Switch := none
  afterOperand : Bool := false
  holdsMarker : Bool := false
  mode : Option (String × List String) := none

namespace Progress

/-- Takes the value of a switch. -/
def give (p : Progress) (s : Switch) (value : String) : Except Complaint Progress := do
  let read ← readValue s.title s.kind value
  return { p with values := (s.key, read) :: p.values, expecting := none, afterOperand := false }

/-- Takes the value that stands in the argument of its switch. Of a value `--` nothing is left. -/
def giveAttached (p : Progress) (s : Switch) (value : String) : Except Complaint Progress :=
  if value = "--" then .ok { p with values := (s.key, .empty) :: p.values, afterOperand := false }
  else p.give s value

/-- Takes a row of flags. -/
def raise (p : Progress) : List Switch → Except Refusal Progress
  | [] => .ok { p with afterOperand := false }
  | s :: rest =>
    if s.kind = .help then .error .help
    else raise { p with values := (s.key, .on) :: p.values } rest

/-- Takes a plain argument: it belongs to the next operand, if one is missing. Of an operand `--`
nothing is left, unless the marker goes with it and vanishes in its place. -/
def take (p : Progress) (text : String) : Except Complaint Progress :=
  match p.missing with
  | [] => .ok { p with extras := p.extras ++ [text], afterOperand := false }
  | operand :: rest => do
    let read ← if text = "--" && !p.holdsMarker then pure .empty
      else readValue operand.key operand.kind text
    return { p with
      values := (operand.key, read) :: p.values, missing := rest, afterOperand := true
      holdsMarker := false }

/-- Takes the marker. It goes with the operand in front of it, or else with the next one, and is left
over otherwise. -/
def mark (p : Progress) (followed : Bool) : Progress :=
  if p.afterOperand then { p with afterOperand := false }
  else if followed && !p.missing.isEmpty then { p with holdsMarker := true }
  else { p with extras := p.extras ++ ["--"] }

end Progress

/-- Attributes a complaint to a command. -/
def complain {α : Type} (command : String) : Except Complaint α → Except Refusal α
  | .ok a => .ok a
  | .error complaint => .error (.usage ⟨command, complaint⟩)

/-- Takes a switch. -/
def takeSwitch (c : Command) (p : Progress) (s : Switch) (spelling : String)
    (attached : Option (List Char)) : Except Refusal Progress := do
  let (flags, last) ← complain c.name (unfoldSwitch (spellingsOf c.switches) s spelling attached)
  let p ← p.raise flags
  match last with
  | none => return p
  | some (t, none) => return { p with expecting := some t }
  | some (t, some value) => complain c.name (p.giveAttached t value)

/-- Takes one argument after the other, up to the mode word if there is one. -/
def takeTokens (c : Command) (p : Progress) : List Token → Except Refusal Progress
  | [] =>
    match p.expecting with
    | some s => complain c.name (.error (.expectedValue s.title))
    | none => .ok p
  | token :: rest =>
    match p.expecting, token.shape with
    | some s, .plain => do takeTokens c (← complain c.name (p.give s token.source)) rest
    | some s, _ => complain c.name (.error (.expectedValue s.title))
    | none, .plain =>
      if c.hasModes then .ok { p with mode := some (token.source, rest.map (·.source)) }
      else do takeTokens c (← complain c.name (p.take token.source)) rest
    | none, .marker =>
      -- a marker in front of the mode word takes its place
      if c.hasModes && !rest.isEmpty then
        .ok { p with mode := some (token.source, rest.map (·.source)) }
      else takeTokens c (p.mark (!rest.isEmpty)) rest
    | none, .unknown =>
      takeTokens c { p with extras := p.extras ++ [token.source], afterOperand := false } rest
    | none, .switch s spelling attached => do
      takeTokens c (← takeSwitch c p s spelling attached) rest

/-! ## §3 Commands and programs -/

/-- The key of the mode word. -/
def modeKey : String := "mode"

/-- Takes the arguments of a command; none of its operands may be missing. -/
def Command.takeAll (c : Command) (arguments : List String) : Except Refusal Progress := do
  let tokens ← complain c.name (sortArguments c.switches arguments)
  let p ← takeTokens c { missing := c.operands } tokens
  let missing := if c.hasModes && p.mode.isNone then [modeKey] else p.missing.map (·.key)
  if missing.isEmpty then return p
  else complain c.name (.error (.missing missing))

/-- The values that were read, the last one first, and the mode. -/
structure Parsed where
  values : List (String × Value)
  mode : String := ""

/-- The values of a command line on which nothing was left over. -/
def finish (command : String) (extras : List String) (parsed : Parsed) : Except Refusal Parsed :=
  if extras.isEmpty then .ok parsed
  else complain command (.error (.unrecognized extras))

/-- Reads the arguments of a command. -/
def Command.parse (c : Command) (arguments : List String) : Except Refusal Parsed := do
  let p ← c.takeAll arguments
  finish c.name p.extras { values := p.values }

/-- Reads the arguments of a program: its own up to the mode word, and those of the mode after it. -/
def parseModes (main : Command) (modes : List (String × Command)) (arguments : List String) :
    Except Refusal Parsed := do
  let p ← main.takeAll arguments
  let (word, rest) := p.mode.getD ("", [])
  match modes.lookup word with
  | none =>
    complain main.name
      (.error (.invalidChoice modeKey (quoted word) (modes.map fun m => quoted m.1)))
  | some mode =>
    let q ← mode.takeAll rest
    finish main.name (p.extras ++ q.extras) { values := q.values ++ p.values, mode := word }

namespace Parsed

/-- The value of a key. The last one given counts. -/
def value? (p : Parsed) (key : String) : Option Value := p.values.lookup key

/-- Whether a flag was raised. -/
def flag (p : Parsed) (key : String) : Bool := (p.value? key).isSome

/-- The text of a key, or the default if none was given. Of an empty value there is no text. -/
def text (p : Parsed) (key : String) (default : String) : Option String :=
  match p.value? key with
  | some (.text s) => some s
  | some .empty => none
  | _ => some default

/-- The text of a key, if there is one that is not empty. -/
def filled? (p : Parsed) (key : String) : Option String := (p.text key "").filter (· != "")

/-- The integer of a key, or the default if none was given. An empty value is no integer. -/
def integer (p : Parsed) (key : String) (default : Int) : Option Int :=
  match p.value? key with
  | some (.integer n) => some n
  | some .empty => none
  | _ => some default

/-- The number of a key, or the default if none was given. An empty value is no number. -/
def real (p : Parsed) (key : String) (default : Double) : Option Double :=
  match p.value? key with
  | some (.real x) => some x
  | some .empty => none
  | _ => some default

end Parsed

end BrokerLoad.CommandLine
