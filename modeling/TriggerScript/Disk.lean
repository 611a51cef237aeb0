import TriggerScript.FileSystem

/-!
# Files in memory

A disk is a tree of files and directories that is kept in memory. Its clock moves on with every
change, so that what is written later is newer.

A path is followed part by part from the working directory, which is that of the disk. What a part
starts from must be a directory, also if the part is `.` or `..`. The directories outside of the
working directory are there; what else is in them is not known.
-/

namespace TriggerScript

/-- A file or a directory, with the time of its last change. -/
inductive DiskEntry where
  | file (bytes : ByteArray) (time : Nat)
  | directory (time : Nat)

/-- Where a file or a directory is: its name and those of the directories around it, the innermost
first. The working directory has no name. The directories around that one have the name `..`, and the
root of all files has the name `/`. -/
abbrev Place := List String

/-- A tree of files. -/
structure Disk where
  entries : List (Place × DiskEntry) := []
  /-- The time of the last change. -/
  clock : Nat := 0

namespace Disk

/-- How many bytes a name can have. -/
def nameLimit : Nat :=
  255

/-- The bound of the number of bytes of a path. -/
def pathLimit : Nat :=
  4096

/-- The directory around a place. -/
def parent : Place → Place
  | [] => [".."]
  | name :: outer =>
    if name = ".." then ".." :: name :: outer else if name = "/" then ["/"] else outer

/-- What is at a place. -/
def entry? (d : Disk) (place : Place) : Option DiskEntry :=
  if place.head?.all fun name => name = ".." ∨ name = "/" then some (.directory 0)
  else d.entries.lookup place

/-- The error of a place that is to be a directory. -/
def needDirectory (d : Disk) (place : Place) : Except FileError Unit :=
  match d.entry? place with
  | some (.directory _) => .ok ()
  | some (.file ..) => .error .notADirectory
  | none => .error .notFound

/-- Where one part of a path leads to. -/
def follow (d : Disk) (place : Place) (part : String) : Except FileError Place := do
  d.needDirectory place
  if part = "." then return place
  else if part = ".." then return parent place
  else if part.utf8ByteSize > nameLimit then throw .nameTooLong
  else return part :: place

/-- Where the parts of a path start. -/
def start (path : String) : Place :=
  if Path.isAbsolute path then ["/"] else []

/-- The error of a path that no file can have. -/
def checkPath (path : String) : Except FileError Unit :=
  if path.toList.contains (Char.ofNat 0) then .error .zeroInPath
  else if path = "" then .error .notFound
  else if path.utf8ByteSize ≥ pathLimit then .error .nameTooLong
  else .ok ()

/-- What a path leads to, and its place. -/
def find (d : Disk) (path : String) : Except FileError (Place × DiskEntry) := do
  checkPath path
  let place ← (Path.parts path).foldlM d.follow (start path)
  if Path.endsInSlash path then d.needDirectory place
  match d.entry? place with
  | some entry => return (place, entry)
  | none => throw .notFound

/-- The directory of a new entry, and its name. A path that leads to a directory by its form does not
name a new entry. -/
def newName (d : Disk) (path : String) : Except FileError (Place × Option String) := do
  checkPath path
  let parts := Path.parts path
  let place ← parts.dropLast.foldlM d.follow (start path)
  d.needDirectory place
  return (place, parts.getLast?.filter fun name => name ≠ "." ∧ name ≠ "..")

/-- Puts an entry at a place, instead of one that is there. -/
def put (d : Disk) (place : Place) (entry : DiskEntry) : Disk :=
  { d with entries := (place, entry) :: d.entries.filter (·.1 ≠ place) }

/-- Puts a new entry at a place, which changes the directory around it. -/
def putNew (d : Disk) (place : Place) (entry : DiskEntry) : Disk :=
  let d := d.put place entry
  match d.entries.lookup (parent place) with
  | some (.directory _) => d.put (parent place) (.directory d.clock)
  | _ => d

/-- The disk a moment later. -/
def tick (d : Disk) : Disk :=
  { d with clock := d.clock + 1 }

/-- The bytes of a file. -/
def read (d : Disk) (path : String) : Except FileError ByteArray := do
  match ← d.find path with
  | (_, .file bytes _) => return bytes
  | (_, .directory _) => throw .isADirectory

/-- Writes a file. -/
def write (d : Disk) (path : String) (bytes : ByteArray) : Except FileError Disk := do
  let d := d.tick
  match ← d.newName path with
  | (_, none) => throw .isADirectory
  | (directory, some name) =>
    if Path.endsInSlash path then throw .isADirectory
    let place ← d.follow directory name
    match d.entry? place with
    | some (.directory _) => throw .isADirectory
    | some (.file ..) => return d.put place (.file bytes d.clock)
    | none => return d.putNew place (.file bytes d.clock)

/-- Creates a directory. -/
def createDirectory (d : Disk) (path : String) : Except FileError Disk := do
  let d := d.tick
  match ← d.newName path with
  | (_, none) => throw .alreadyExists
  | (directory, some name) =>
    let place ← d.follow directory name
    match d.entry? place with
    | some _ => throw .alreadyExists
    | none => return d.putNew place (.directory d.clock)

/-- Changes the time of what a path leads to. -/
def touch (d : Disk) (path : String) (time : Nat) : Except FileError Disk := do
  match ← d.find path with
  | (place, .file bytes _) => return d.put place (.file bytes time)
  | (place, .directory _) => return d.put place (.directory time)

/-- Removes what a path leads to, with all that is in it. -/
def remove (d : Disk) (path : String) : Except FileError Disk := do
  let (place, _) ← d.find path
  return { d with entries := d.entries.filter fun (inner, _) => !place.isSuffixOf inner }

/-- Does a change of the disk. -/
def change (f : Disk → Except FileError Disk) : StateM Disk (Except FileError Unit) := do
  match f (← get) with
  | .ok d =>
    set d
    return .ok ()
  | .error e => return .error e

instance : FileSystem (StateM Disk) where
  read path := do return (← get).read path
  write path bytes := change fun d => d.write path bytes
  modified path := do
    match (← get).find path with
    | .ok (_, .file _ time) => return .ok time
    | .ok (_, .directory time) => return .ok time
    | .error e => return .error e
  isFile path := do
    match (← get).find path with
    | .ok (_, .file ..) => return true
    | _ => return false
  isDirectory path := do
    match (← get).find path with
    | .ok (_, .directory _) => return true
    | _ => return false
  createDirectory path := change fun d => d.createDirectory path

end Disk

end TriggerScript
