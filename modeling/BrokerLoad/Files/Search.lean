import BrokerLoad.Files.Directory
import BrokerLoad.Text.Glob

/-!
# Searching for files

A path may hold patterns in its steps. The steps are tried against the names in each folder that the
steps in front of them lead to; a step without a pattern only has to be there.

## Main definitions

* `splitPath`: a path cut before its last step.
* `Directory.pathsMatching`: the paths that fit a pattern, in order.
-/

namespace BrokerLoad

/-! ## §1 Cutting and joining paths -/

/-- Drops the slashes at the end of a path, except of one that has nothing else. -/
def bareFolder (folder : List Char) : List Char :=
  match (folder.reverse.dropWhile (· == '/')).reverse with
  | [] => folder
  | bare => bare

/-- A path cut before its last step: the folder and the step, which is empty after a slash. -/
def splitPath (path : List Char) : List Char × List Char :=
  match cutLast? '/' path with
  | some (folder, step) => (bareFolder (folder ++ ['/']), step)
  | none => ([], path)

/-- The path of a step in a folder. -/
def joinPath (folder step : List Char) : List Char :=
  if folder.isEmpty || folder.getLast? == some '/' then folder ++ step else folder ++ '/' :: step

/-! ## §2 Searching -/

/-- The most folders in a path that can be searched one inside the other. -/
def deepestSearch : Nat := 985

namespace Directory

/-- Whether a path with no pattern in it is there; one that ends with a slash has to be a folder. -/
def lies (d : Directory) (path : List Char) : Bool :=
  let (folder, step) := splitPath path
  if step.isEmpty then (d.folderAt? (String.ofList folder)).isSome else d.holds (String.ofList path)

/-- The names in a folder that fit a pattern, possibly only those of folders. Names that start with
a point only fit a pattern that does too. -/
def namesMatching (d : Directory) (onlyFolders : Bool) (f : Folder) (pattern : List Char) :
    List (List Char) :=
  let isFolder := fun name => match d.child? f name with
    | some (.folder _) => true
    | _ => false
  let items := Pattern.ofChars pattern
  let fits := fun (name : List Char) =>
    (name.head? != some '.' || pattern.head? == some '.') && Pattern.admits items name
  (((d.names f).filter fun name => !onlyFolders || isFolder name).map String.toList).filter fits

/-- The paths of the steps in a folder that fit a pattern. A folder that is not there has none. -/
def stepsMatching (d : Directory) (onlyFolders : Bool) (pattern folder : List Char) :
    Except Fault (List (List Char)) :=
  let path := if folder.isEmpty then ['.'] else folder
  if folder.contains '\x00' then .error nullByte
  else match d.folderAt? (String.ofList path) with
    | some f => .ok ((d.namesMatching onlyFolders f pattern).map (joinPath folder))
    | none => .ok []

/-- The path of a step in a folder, if it is there. No step stands for the folder itself. -/
def stepIn (d : Directory) (step folder : List Char) : List (List Char) :=
  let path := joinPath folder step
  let there := if step.isEmpty then (d.folderAt? (String.ofList folder)).isSome
    else d.holds (String.ofList path)
  if there then [path] else []

/-- The paths that fit a pattern, possibly only those of folders. The folders in front of the last
step are searched for first, as long as there are patterns in them; `depth` bounds how often. -/
def search (d : Directory) : Nat → Bool → List Char → Except Fault (List (List Char))
  | 0, _, _ => .error .searchTooDeep
  | depth + 1, onlyFolders, path => do
    if !isPattern path then return if d.lies path then [path] else []
    let (folder, step) := splitPath path
    let around ← if isPattern folder then d.search depth true folder else .ok [folder]
    if isPattern step then
      return (← around.mapM (d.stepsMatching onlyFolders step)).flatten
    return around.flatMap (d.stepIn step)

/-- The paths that fit a pattern, in order. -/
def pathsMatching (d : Directory) (pattern : String) : Except Fault (List String) := do
  let found ← d.search deepestSearch false pattern.toList
  return (found.map String.ofList).mergeSort fun a b => decide (a ≤ b)

end Directory

end BrokerLoad
