import ChatClient.Text.Utf8
/-!
# Files — what paths lead to

A path is walked part by part, from the root if it starts with a slash and from the directory of work otherwise.
- An empty part and `.` stay where they are, `..` goes up and stays at the root; any other part is a name to look up.
- Each of them needs a directory to stand in, so nothing can follow a file, not even a slash at the end.
- The first part that cannot be walked decides how the walk fails.

What a path leads to is asked of a `FileTree`; a `Host` is one, and `Host.bare` is the host that has nothing of its own.
-/
namespace ChatClient

/-- Why a file's octets cannot be had. -/
inductive FileFault where
  | missing
  | directory
  | notDirectory
  | nameTooLong
  | nulInName
  | other (text : String)
  deriving DecidableEq, Repr

def FileFault.message : FileFault → String
  | missing => "No such file or directory (os error 2)"
  | directory => "Is a directory (os error 21)"
  | notDirectory => "Not a directory (os error 20)"
  | nameTooLong => "File name too long (os error 36)"
  | nulInName => "file name contained an unexpected NUL byte"
  | other text => text

abbrev FileTree := String → Except FileFault Bytes

/-- A directory or a file, by the names that lead to it from the root, the last name first. -/
abbrev Place := List String

inductive Node where
  | directory
  | file (octets : Bytes)
  deriving DecidableEq, Repr

/-- What stands where, and the directory of work. -/
structure Host where
  node? : Place → Option Node
  work : Place

namespace Host

/-- The most octets a name may have. -/
def maxName : Nat := 255

/-- The most octets a path may have. -/
def maxPath : Nat := 4095

def walk (h : Host) (place : Place) : List String → Except FileFault Node
  | [] => (h.node? place).elim (.error .missing) .ok
  | part :: parts =>
    match h.node? place with
    | none => .error .missing
    | some (.file _) => .error .notDirectory
    | some .directory =>
      if part = "" ∨ part = "." then h.walk place parts
      else if part = ".." then h.walk place.tail parts
      else if maxName < Utf8.size part then .error .nameTooLong
      else h.walk (part :: place) parts

def tree (h : Host) : FileTree := fun path =>
  if path.toList.contains '\x00' then .error .nulInName
  else if path = "" then .error .missing
  else if maxPath < Utf8.size path then .error .nameTooLong
  else
    match h.walk (if path.startsWith "/" then [] else h.work) (path.splitOn "/") with
    | .error fault => .error fault
    | .ok .directory => .error .directory
    | .ok (.file octets) => .ok octets

/-- The directories that every host has. -/
def standard : List Place :=
  [[]] ++
    (["bin", "boot", "dev", "etc", "home", "lib", "media", "mnt", "opt", "proc", "root", "run", "sbin", "srv", "sys", "tmp",
      "usr", "var"].map fun name => [name]) ++
    (["pts", "shm"].map fun name => [name, "dev"]) ++
    (["bin", "include", "lib", "local", "sbin", "share", "src"].map fun name => [name, "usr"]) ++
    (["bin", "etc", "include", "lib", "sbin", "share", "src"].map fun name => [name, "local", "usr"]) ++
    (["cache", "lib", "local", "log", "opt", "spool", "tmp"].map fun name => [name, "var"])

/-- A host that has nothing but its standard directories, an empty directory of work, and the null device, which is
empty. -/
def bare : Host where
  work := ["work", "home"]
  node? place :=
    if place = ["null", "dev"] then some (.file [])
    else if place ∈ standard ∨ place = ["work", "home"] then some .directory
    else none

end Host
end ChatClient
