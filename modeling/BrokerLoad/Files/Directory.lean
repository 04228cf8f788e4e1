import BrokerLoad.Fault
import BrokerLoad.Files.Landmark
import BrokerLoad.Text.Blank

/-!
# The working directory

Results and message logs are text files in the working directory, which holds no folders of its own.
A path may also lead out of it, through `..` or from the root, to the folders and devices that are
known there; files can be written into most of these folders.

## Main definitions

* `Directory`: the files, in the order in which they were first written.
* `Directory.resolve`: where a path leads.
* `Directory.write`, `Directory.read`: writing replaces a file, reading finds it.
-/

namespace BrokerLoad

/-- The text files of a directory by name; a file outside it has its whole path for a name. -/
structure Directory where
  files : List (String × String) := []
  deriving DecidableEq, Repr

/-- What a folder holds under some name. -/
inductive Node where
  | folder (folder : Folder)
  | device (device : Device)
  | file (text : String)
  deriving DecidableEq, Repr

/-- Where a path leads. An entry of a folder is a file or a name that is still free; a new folder is
a name with a slash after it. -/
inductive PathTarget where
  | folder (folder : Folder)
  | device (device : Device)
  | entry (folder : Folder) (name : String)
  | newFolder
  | nowhere
  | throughFile
  | tooLong
  | nullByte
  deriving DecidableEq, Repr

/-- What a file is opened on for writing. -/
inductive Outlet where
  | file (name : String)
  | device (device : Device)
  deriving DecidableEq, Repr

/-- The largest number of bytes in one step of a path. -/
def longestStep : Nat := 255

/-- The largest number of bytes in a path. -/
def longestPath : Nat := 4095

/-- The number of bytes of a text. -/
def byteCount (text : List Char) : Nat := text.foldl (fun n c => n + c.utf8Size) 0

/-- A path with a null byte leads nowhere at all. -/
def nullByte : Fault := .value (.other "embedded null byte")

/-- What a landmark stands for that lies at a place under some name. -/
def Landmark.node (place : Place) (name : String) : Landmark → Node
  | folder => .folder (.outside (place ++ [name]))
  | link target => .folder (.outside target)
  | workingDirectory => .folder .working
  | device d => .device d
  | text content => .file content

/-- Why no new file can be made in a folder: the table of processes finds no such name, and the table
of the hardware permits none. -/
def Folder.refusal? (path : String) : Folder → Option OsError
  | .outside ("proc" :: _) => some (.noSuchFile path)
  | .outside ("sys" :: _) => some (.permissionDenied path)
  | _ => none

namespace Directory

/-! ## §1 Folders -/

/-- The text of the file with a name. -/
def find? (d : Directory) (name : String) : Option String := d.files.lookup name

/-- The files in the directory itself. -/
def inside (d : Directory) : List (String × String) :=
  d.files.filter fun f => !f.1.toList.contains '/'

/-- What a folder holds under some name: a file that was written, or else a landmark. -/
def child? (d : Directory) (f : Folder) (name : String) : Option Node :=
  match d.find? (f.fileName name), f with
  | some text, _ => some (.file text)
  | none, .working => none
  | none, .outside place => ((landmarks place).lookup name).map (·.node place name)

/-- The names in a folder. -/
def names (d : Directory) (f : Folder) : List String :=
  let known := match f with
    | .working => []
    | .outside place => (landmarks place).map (·.1)
  let written := d.files.filterMap fun (file, _) =>
    let name := match cutLast? '/' file.toList with
      | some (_, name) => String.ofList name
      | none => file
    if f.fileName name = file then some name else none
  known ++ written.filter (!known.contains ·)

/-! ## §2 Paths -/

/-- Where the steps of a path lead from a folder; `closed` tells whether a slash follows the last
step. A step that is not the last one has to be a folder. -/
def walk (d : Directory) (closed : Bool) : Folder → List String → PathTarget
  | f, [] => .folder f
  | f, step :: rest =>
    if step = "." then walk d closed f rest
    else if step = ".." then walk d closed f.outer rest
    else if rest.isEmpty && closed then .newFolder
    else if !f.isTable && longestStep < byteCount step.toList then .tooLong
    else match d.child? f step, rest with
      | some (.folder inner), rest => walk d closed inner rest
      | some (.device device), [] => .device device
      | some (.file _), [] => .entry f step
      | some _, _ :: _ => .throughFile
      | none, [] => .entry f step
      | none, _ :: _ => .nowhere

/-- Where a path leads from the working directory. -/
def resolve (d : Directory) (path : String) : PathTarget :=
  let steps := (splitWhere (· == '/') path.toList).filter fun step => !step.isEmpty
  let start : Folder := if path.startsWith '/' then .outside [] else .working
  if path.toList.contains '\x00' then .nullByte
  else if longestPath < byteCount path.toList then .tooLong
  else if path = "" then .nowhere
  else d.walk (path.endsWith '/') start (steps.map String.ofList)

/-- The folder that a path leads to. -/
def folderAt? (d : Directory) (path : String) : Option Folder :=
  match d.resolve path with
  | .folder f => some f
  | _ => none

/-- Whether something lies at a path. -/
def holds (d : Directory) (path : String) : Bool :=
  match d.resolve path with
  | .folder _ | .device _ => true
  | .entry f name => (d.child? f name).isSome
  | _ => false

/-- Why a path that leads to no file or device cannot be opened. -/
def refusal (path : String) : PathTarget → Fault
  | .folder _ | .newFolder => .os (.isDirectory path)
  | .throughFile => .os (.notDirectory path)
  | .tooLong => .os (.nameTooLong path)
  | .nullByte => BrokerLoad.nullByte
  | _ => .os (.noSuchFile path)

/-! ## §3 Writing and reading -/

/-- What a path is opened on for writing. -/
def outletAt (d : Directory) (path : String) : Except Fault Outlet :=
  match d.resolve path with
  | .entry f name =>
    match d.child? f name, f.refusal? path with
    | none, some e => .error (.os e)
    | _, _ => .ok (.file (f.fileName name))
  | .device .terminal => .error (.os (.noSuchDevice path))
  | .device device => .ok (.device device)
  | target => .error (refusal path target)

/-- The directory with a file replaced, or added at the end. -/
def put (d : Directory) (name text : String) : Directory :=
  if (d.find? name).isSome then
    ⟨d.files.map fun f => if f.1 = name then (name, text) else f⟩
  else ⟨d.files ++ [(name, text)]⟩

/-- Leaves a text at an outlet. A full device has room for an empty text only. -/
def leave (d : Directory) (text : String) : Outlet → Except Fault Directory
  | .file name => .ok (d.put name text)
  | .device .full => if text = "" then .ok d else .error (.os .noSpace)
  | .device _ => .ok d

/-- Writes a whole file. -/
def write (d : Directory) (path text : String) : Except Fault Directory := do
  d.leave text (← d.outletAt path)

/-- Reads a whole file. Nothing comes out of a device. -/
def read (d : Directory) (path : String) : Except Fault String :=
  match d.resolve path with
  | .entry f name =>
    match d.child? f name with
    | some (.file text) => .ok text
    | _ => .error (.os (.noSuchFile path))
  | .device .terminal => .error (.os (.noSuchDevice path))
  | .device _ => .ok ""
  | target => .error (refusal path target)

end Directory

end BrokerLoad
