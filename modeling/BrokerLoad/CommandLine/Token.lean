import BrokerLoad.CommandLine.Syntax

/-!
# Sorting the arguments of a command line

Before anything is read every argument is sorted: it is a switch, a plain argument, the marker `--`,
or an unknown option. A long spelling may be shortened to any beginning that no other spelling
shares, and may carry a value after an equals sign; a short spelling may have more attached to it.
What looks like a negative number or holds a blank is plain unless it names a switch.

## Main definitions

* `Token`: an argument and what it is.
* `sortArguments`: sorts the arguments of a command.
-/

namespace BrokerLoad.CommandLine

/-- What an argument is. -/
inductive Shape where
  | marker
  | plain
  | switch (s : Switch) (spelling : String) (attached : Option (List Char))
  | unknown
  deriving DecidableEq, Repr

/-- An argument and what it is. -/
structure Token where
  source : String
  shape : Shape
  deriving DecidableEq, Repr

/-- Whether a text is a minus sign followed by a number, such as `-1` or `-.5`. -/
def looksNegative (text : List Char) : Bool :=
  match text with
  | '-' :: rest =>
    let body := if rest.getLast? = some '\n' then rest.dropLast else rest
    match body.dropWhile isDecimalDigit with
    | [] => !body.isEmpty
    | '.' :: fraction => !fraction.isEmpty && fraction.all isDecimalDigit
    | _ => false
  | _ => false

/-- The meanings of a text that names no switch in full. With two leading minus signs it shortens a
long spelling and may carry a value; with one it is a short spelling with something attached. -/
def meanings (switches : List Switch) (text : List Char) : List Shape :=
  match text with
  | '-' :: '-' :: _ =>
    let (start, attached) := match cutFirst? '=' text with
      | some (start, value) => (start, some value)
      | none => (text, none)
    (spellingsOf switches).filterMap fun (spelling, s) =>
      if start.isPrefixOf spelling.toList then some (.switch s spelling attached) else none
  | _ =>
    (spellingsOf switches).filterMap fun (spelling, s) =>
      if spelling.toList = text.take 2 then some (.switch s spelling (some (text.drop 2)))
      else if text.isPrefixOf spelling.toList then some (.switch s spelling none)
      else none

/-- The spelling that a meaning stands for. -/
def Shape.spelling : Shape → String
  | switch _ spelling _ => spelling
  | _ => ""

/-- What an argument of at least two characters is that starts with a minus sign. -/
def sortDashed (switches : List Switch) (argument : String) : Except Complaint Shape :=
  let table := spellingsOf switches
  let inFull := match table.lookup argument with
    | some s => some (.switch s argument none)
    | none => do
      let (start, value) ← cutFirst? '=' argument.toList
      let s ← table.lookup (String.ofList start)
      return .switch s (String.ofList start) (some value)
  match inFull with
  | some shape => .ok shape
  | none =>
    match meanings switches argument.toList with
    | [meaning] => .ok meaning
    | [] =>
      if looksNegative argument.toList || argument.toList.contains ' ' then .ok .plain
      else .ok .unknown
    | many => .error (.ambiguous argument (many.map Shape.spelling))

/-- What an argument is, as long as no marker came before it. -/
def sortArgument (switches : List Switch) (argument : String) : Except Complaint Shape :=
  match argument.toList with
  | '-' :: _ :: _ => sortDashed switches argument
  | _ => .ok .plain

/-- Sorts the arguments of a command; the first `--` is the marker, and what follows it is plain. -/
def sortArguments (switches : List Switch) : List String → Except Complaint (List Token)
  | [] => .ok []
  | argument :: rest =>
    if argument = "--" then .ok (⟨argument, .marker⟩ :: rest.map (⟨·, .plain⟩))
    else do
      let shape ← sortArgument switches argument
      return ⟨argument, shape⟩ :: (← sortArguments switches rest)

end BrokerLoad.CommandLine
