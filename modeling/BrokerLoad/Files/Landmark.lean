/-!
# The system around the working directory

Programs run in a working directory of their own, which lies in the folder for temporary files. Of
the system around it only the usual folders are known, with a few devices and files in them. A link
stands for the folder that it leads to.

## Main definitions

* `Place`: a folder by the steps that lead to it from the root.
* `Landmark`, `landmarks`: what is known to lie in a folder.
* `Folder`: the working directory or a folder outside it.
-/

namespace BrokerLoad

/-- A folder outside the working directory: the steps that lead to it from the root. -/
abbrev Place := List String

/-- A device in place of a file: one that swallows what is written, one that never has room, and a
terminal that nobody sits at. -/
inductive Device where
  | sink
  | full
  | terminal
  deriving DecidableEq, Repr

/-- What is known to lie in a folder. -/
inductive Landmark where
  | folder
  | link (place : Place)
  | workingDirectory
  | device (device : Device)
  | text (content : String)
  deriving DecidableEq, Repr

/-- Folders by their names. -/
def folders (names : List String) : List (String × Landmark) := names.map (·, .folder)

/-- What is known to lie at a place. -/
def landmarks : Place → List (String × Landmark)
  | [] =>
    [("bin", .link ["usr", "bin"]), ("lib", .link ["usr", "lib"]),
      ("lib64", .link ["usr", "lib64"]), ("sbin", .link ["usr", "sbin"])] ++
    folders ["boot", "dev", "etc", "home", "media", "mnt", "opt", "proc", "root", "run", "srv",
      "sys", "tmp", "usr", "var"]
  | ["dev"] =>
    [("fd", .link ["proc", "self", "fd"]), ("full", .device .full), ("null", .device .sink),
      ("random", .device .sink), ("stderr", .device .sink), ("stdout", .device .sink),
      ("tty", .device .terminal), ("urandom", .device .sink), ("zero", .device .sink)] ++
    folders ["mqueue", "pts", "shm"]
  | ["etc"] =>
    [("group", .text "root:x:0:\ndaemon:x:1:\n"),
      ("hostname", .text "localhost\n"),
      ("hosts", .text "127.0.0.1\tlocalhost\n::1\tlocalhost\n"),
      ("passwd", .text "root:x:0:0:root:/root:/bin/sh\ndaemon:x:1:1:daemon:/:/bin/false\n")] ++
    folders ["alternatives", "apt", "cron.d", "default", "dpkg", "init.d", "opt", "pam.d",
      "profile.d", "security", "skel", "ssl"]
  | ["proc"] => folders ["1", "bus", "fs", "irq", "self", "sys"]
  | ["proc", "self"] =>
    [("cwd", .workingDirectory), ("root", .link [])] ++ folders ["fd", "fdinfo", "net", "ns", "task"]
  | ["proc", "sys"] => folders ["fs", "kernel", "net", "user", "vm"]
  | ["run"] => folders ["lock"]
  | ["sys"] =>
    folders ["block", "bus", "class", "dev", "devices", "firmware", "fs", "kernel", "module",
      "power"]
  | ["tmp"] => [("tmp_working", .workingDirectory)]
  | ["usr"] =>
    folders ["bin", "games", "include", "lib", "lib64", "libexec", "local", "sbin", "share", "src"]
  | ["usr", "local"] =>
    [("man", .link ["usr", "local", "share", "man"])] ++
    folders ["bin", "etc", "games", "include", "lib", "sbin", "share", "src"]
  | ["usr", "local", "share"] => folders ["man"]
  | ["usr", "share"] => folders ["doc", "info", "man", "misc"]
  | ["var"] =>
    [("lock", .link ["run", "lock"]), ("run", .link ["run"])] ++
    folders ["backups", "cache", "lib", "local", "log", "mail", "opt", "spool", "tmp"]
  | _ => []

/-- A folder that a path can lead to. -/
inductive Folder where
  | working
  | outside (place : Place)
  deriving DecidableEq, Repr

namespace Folder

/-- The folder around a folder. The root is its own. -/
def outer : Folder → Folder
  | working => outside ["tmp"]
  | outside place => outside place.dropLast

/-- The name of a file in a folder: the bare name in the working directory, and elsewhere the whole
path from the root. -/
def fileName (f : Folder) (name : String) : String :=
  match f with
  | working => name
  | outside place => "/" ++ "/".intercalate (place ++ [name])

/-- Whether a folder is a table of the system's processes or hardware: no file can be made in it, and
names of any length can be looked up. -/
def isTable : Folder → Bool
  | outside ("proc" :: _) | outside ("sys" :: _) => true
  | _ => false

end Folder

end BrokerLoad
