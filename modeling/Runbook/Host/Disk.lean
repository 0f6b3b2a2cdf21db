/-
  Directories and files, and the ways in which reaching them can fail.

  A `Disk` holds directories and files by their places; no command changes it.
  `Disk.find` follows a path from a place, part by part; `Disk.enter` wants a
  directory at its end and `Disk.read` a file.
-/
import Runbook.Host.Place
import Runbook.Table
import Runbook.Text.Quoted

namespace Runbook

/-- Directories and files, each at its place; a file has bytes. -/
structure Disk where
  directories : List Place
  files : Table Place (List UInt8)
  deriving DecidableEq

/-- Why a path leads nowhere. -/
inductive PathFault where
  | missing (path : String)
  | notDirectory (path : String)
  | isDirectory (path : String)
  | tooLong (path : String)
  | nullCharacter
  deriving DecidableEq

/-- The wording of a path fault. -/
def PathFault.message : PathFault → String
  | missing path => "[Errno 2] No such file or directory: " ++ Text.quoted path
  | notDirectory path => "[Errno 20] Not a directory: " ++ Text.quoted path
  | isDirectory path => "[Errno 21] Is a directory: " ++ Text.quoted path
  | tooLong path => "[Errno 36] File name too long: " ++ Text.quoted path
  | nullCharacter => "embedded null byte"

namespace Disk

/-- The disk with nothing on it. -/
def empty : Disk := ⟨[], .empty⟩

/-- The disk with a directory and all that lead to it. -/
def addDirectory (disk : Disk) (p : Place) : Disk :=
  { disk with directories :=
      disk.directories ++
        (List.range p.names.length).map fun n => { p with names := p.names.take (n + 1) } }

/-- The disk with a file and the directories that lead to it. -/
def addFile (disk : Disk) (p : Place) (bytes : List UInt8) : Disk :=
  let disk := disk.addDirectory p.parent
  { disk with files := disk.files.insert p bytes }

/-- The disk without a file. -/
def removeFile (disk : Disk) (p : Place) : Disk := { disk with files := disk.files.erase p }

/-- The disk with the directories of some paths from the root and the files of others. -/
def ofPaths (directories : List String) (files : List (String × List UInt8)) : Disk :=
  files.foldl (fun disk (path, bytes) => disk.addFile (Place.root.atPath path) bytes)
    (directories.foldl (fun disk path => disk.addDirectory (Place.root.atPath path)) empty)

/-! ## Following a path -/

/-- What a path leads to. -/
inductive Entry where
  | directory (p : Place)
  | file (bytes : List UInt8)

/-- The longest name of a directory's entry, in bytes. -/
def maxNameLength : Nat := 255

/-- The longest path, in bytes. -/
def maxPathLength : Nat := 4095

/-- What is at a place below a directory. -/
def entryAt (disk : Disk) (path : String) (p : Place) : Except PathFault Entry :=
  if p ∈ disk.directories then .ok (.directory p)
  else
    match disk.files.find? p with
    | some bytes => .ok (.file bytes)
    | none => .error (.missing path)

/-- Goes on to a part of a path. -/
def findPart (disk : Disk) (path : String) (e : Entry) (part : String) : Except PathFault Entry :=
  match e with
  | .file _ => .error (.notDirectory path)
  | .directory p =>
    if part = ".." then .ok (.directory p.parent)
    else if maxNameLength < part.utf8ByteSize then .error (.tooLong path)
    else disk.entryAt path (p.child part)

/-- Follows a path from a directory. -/
def find (disk : Disk) (p : Place) (path : String) : Except PathFault Entry :=
  if path.toList.contains '\x00' then .error .nullCharacter
  else if maxPathLength < path.utf8ByteSize then .error (.tooLong path)
  else if path = "" then .error (.missing path)
  else (Path.parts path).foldlM (disk.findPart path) (.directory (p.start path))

/-- The directory that a path leads to. -/
def enter (disk : Disk) (p : Place) (path : String) : Except PathFault Place :=
  match disk.find p path with
  | .error fault => .error fault
  | .ok (.directory next) => .ok next
  | .ok (.file _) => .error (.notDirectory path)

/-- The bytes of the file that a path from the root leads to. -/
def read (disk : Disk) (path : String) : Except PathFault (List UInt8) :=
  match disk.find .root path with
  | .error fault => .error fault
  | .ok (.file bytes) =>
    if path.endsWith "/" || path.endsWith "/." then .error (.notDirectory path) else .ok bytes
  | .ok (.directory _) => .error (.isDirectory path)

end Disk

end Runbook
