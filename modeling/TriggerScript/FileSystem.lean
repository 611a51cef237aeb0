import TriggerScript.Event
import TriggerScript.Path
import TriggerScript.Text.Decimal

/-!
# Files

The operations on files that a compilation needs, for any monad that provides them, and computations
that use files, report events and may fail.
-/

namespace TriggerScript

/-- Why a file or a directory cannot be used. -/
inductive FileError where
  | notFound
  | alreadyExists
  | notADirectory
  | isADirectory
  /-- A name or a path has too many bytes. -/
  | nameTooLong
  /-- The path has a character with the number zero. -/
  | zeroInPath
  /-- The bytes of the file are no UTF-8. -/
  | notText
  /-- Another reason of the system, by its number and its text. -/
  | system (code : Nat) (text : String)
deriving Repr, DecidableEq

namespace FileError

/-- The text of an error of the system. -/
def systemMessage (code : Nat) (text : String) : String :=
  text ++ " (os error " ++ Text.natText code ++ ")"

/-- The text of an error. -/
def message : FileError → String
  | notFound => systemMessage 2 "No such file or directory"
  | alreadyExists => systemMessage 17 "File exists"
  | notADirectory => systemMessage 20 "Not a directory"
  | isADirectory => systemMessage 21 "Is a directory"
  | nameTooLong => systemMessage 36 "File name too long"
  | zeroInPath => "file name contained an unexpected NUL byte"
  | notText => "stream did not contain valid UTF-8"
  | system code text => systemMessage code text

end FileError

/-- Operations on files by their paths. -/
class FileSystem (m : Type → Type) where
  /-- The bytes of a file. -/
  read : String → m (Except FileError ByteArray)
  /-- Writes a file, which replaces one that is there. -/
  write : String → ByteArray → m (Except FileError Unit)
  /-- When a file or directory was changed last; a later time is a greater number. -/
  modified : String → m (Except FileError Nat)
  /-- Whether there is a file of this path. -/
  isFile : String → m Bool
  /-- Whether there is a directory of this path. -/
  isDirectory : String → m Bool
  /-- Creates a directory in one that is there. -/
  createDirectory : String → m (Except FileError Unit)

/-- A computation that uses files, reports events and may fail with an error. -/
abbrev Task (m : Type → Type) (ε α : Type) := ExceptT ε (StateT (List Event) m) α

namespace Task

variable {m : Type → Type} [Monad m] {ε ε' α : Type}

/-- Reports an event. -/
def report (e : Event) : Task m ε Unit :=
  modify (· ++ [e])

/-- A run that uses no files. -/
def ofRun (run : Run ε α) : Task m ε α := do
  let (result, events) := run.start
  modify (· ++ events)
  match result with
  | .ok a => return a
  | .error e => throw e

/-- Does something with files. -/
def perform (action : m α) : Task m ε α :=
  fun events => do return (.ok (← action), events)

/-- Does something with files that may fail. -/
def attempt (f : FileError → ε) (action : m (Except FileError α)) : Task m ε α := do
  match ← perform action with
  | .ok a => return a
  | .error e => throw (f e)

/-- The result of a task from the start, and the events it reports. -/
def start (task : Task m ε α) : m (Except ε α × List Event) :=
  StateT.run (ExceptT.run task) []

end Task

namespace FileSystem

variable {m : Type → Type} [Monad m] [FileSystem m]

/-- The text of a file. -/
def readText (path : String) : m (Except FileError String) := do
  match ← FileSystem.read path with
  | .error e => return .error e
  | .ok bytes =>
    match String.fromUTF8? bytes with
    | some s => return .ok s
    | none => return .error .notText

/-- Creates a directory, or finds it there. -/
def ensureDirectory (path : String) : m (Except FileError Unit) := do
  match ← FileSystem.createDirectory path with
  | .ok () => return .ok ()
  | .error e => return if ← FileSystem.isDirectory path then .ok () else .error e

/-- Creates a directory, or finds it there. If what is around it is not found, that is created
first. -/
def ensureWithin (path : String) (ensureOuter : m (Except FileError Unit)) :
    m (Except FileError Unit) := do
  match ← ensureDirectory path with
  | .error .notFound =>
    match ← ensureOuter with
    | .ok () => ensureDirectory path
    | .error e => return .error e
  | result => return result

/-- Creates a directory and those around it, where they do not exist. -/
def createDirectories (path : String) : m (Except FileError Unit) :=
  if path = "" then return .ok ()
  else (path :: Path.enclosing path).foldr ensureWithin (return .ok ())

end FileSystem

end TriggerScript
