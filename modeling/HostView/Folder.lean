/-!
# Files by path

A folder of named files, as a command finds it where it is started. A path is followed name by
name, as an operating system does: it may pass through the folder itself and leave it, and it ends
at a file, at a folder or nowhere. Outside the folder nothing is known but the usual folders of the
root.
-/

namespace HostView

/-- What is at a path. -/
inductive File (α : Type) where
  | content (a : α)
  /-- It cannot be read, for the reason given. -/
  | unreadable (reason : String)

/-- Why nothing can be read at a path. -/
inductive PathFault where
  | missing
  | notFolder
  | isFolder
  | tooLong
  deriving DecidableEq

/-- The message for a path without a file. -/
def PathFault.message : PathFault → String
  | .missing => "No such file or directory (os error 2)"
  | .notFolder => "Not a directory (os error 20)"
  | .isFolder => "Is a directory (os error 21)"
  | .tooLong => "File name too long (os error 36)"

/-- Named files. -/
abbrev Folder (α : Type) := List (String × α)

namespace Folder

variable {α : Type}

/-- Where a path has led so far. -/
inductive Place (α : Type) where
  | here
  | root
  | elsewhere
  | file (a : α)

/-- The folders that the root is known to hold. -/
def rootFolders : List String :=
  ["bin", "boot", "dev", "etc", "home", "lib", "media", "mnt", "opt", "proc", "root", "run",
    "sbin", "srv", "sys", "tmp", "usr", "var"]

/-- Follows one name of a path; an empty one stays where it is. -/
def enter (files : Folder α) (place : Place α) (name : String) : Except PathFault (Place α) :=
  match place with
  | .file _ => .error .notFolder
  | place =>
    if name = "" ∨ name = "." then .ok place
    else if name = ".." then
      match place with
      | .root => .ok .root
      | _ => .ok .elsewhere
    else if 255 < name.utf8ByteSize then .error .tooLong
    else
      match place with
      | .here =>
        match files.lookup name with
        | some a => .ok (.file a)
        | none => .error .missing
      | .root => if rootFolders.contains name then .ok .elsewhere else .error .missing
      | _ => .error .missing

/-- The file at a path. -/
def find (files : Folder α) (path : String) : Except PathFault α := do
  if path = "" then throw .missing
  if 4096 ≤ path.utf8ByteSize then throw .tooLong
  let start : Place α := if path.startsWith "/" then .root else .here
  match ← (path.splitOn "/").foldlM (enter files) start with
  | .file a => return a
  | _ => throw .isFolder

/-- What is at a path. -/
def read (files : Folder α) (path : String) : File α :=
  match files.find path with
  | .ok a => .content a
  | .error fault => .unreadable fault.message

end Folder

end HostView
