import TriggerScript.CommandLine

/-!
# The program

The command line on the files of the system. Events are shown on the standard error output.
-/

namespace TriggerScript.Main

/-- The error of a file that an error of the system is. -/
def fileError : IO.Error → FileError
  | .noFileOrDirectory .. => .notFound
  | .alreadyExists .. => .alreadyExists
  | .inappropriateType _ 20 _ => .notADirectory
  | .inappropriateType _ 21 _ => .isADirectory
  | .inappropriateType _ code text => .system code.toNat text
  | .otherError code text => .system code.toNat text
  | .permissionDenied _ code text => .system code.toNat text
  | .resourceExhausted _ code text => .system code.toNat text
  | .invalidArgument _ code text => .system code.toNat text
  | e => .system 5 (toString e)

/-- Does something with a path and keeps its error. -/
def attempt {α : Type} (path : String) (action : IO α) : IO (Except FileError α) := do
  if path.toList.contains (Char.ofNat 0) then return .error .zeroInPath
  try
    return .ok (← action)
  catch e =>
    return .error (fileError e)

/-- The time of a change as one number. -/
def timeOf (t : IO.FS.SystemTime) : Nat :=
  t.sec.toNat * 1000000000 + t.nsec.toNat

instance : FileSystem IO where
  read path := attempt path (IO.FS.readBinFile path)
  write path bytes := attempt path (IO.FS.writeBinFile path bytes)
  modified path := attempt path do
    let metadata ← ((← IO.currentDir) / path).metadata
    return timeOf metadata.modified
  isFile path := do
    let place := (← IO.currentDir) / path
    return (← place.pathExists) && !(← place.isDir)
  isDirectory path := do return ← ((← IO.currentDir) / path).isDir
  createDirectory path := attempt path (IO.FS.createDir path)

/-- The line of an event. -/
def eventLine (e : Event) : String :=
  e.fields.foldl (fun line (key, value) => line ++ " " ++ key ++ "=" ++ value)
    (e.level.name ++ ": " ++ e.message)

/-- Runs the command line. -/
def main (args : List String) : IO UInt32 := do
  let (outcome, events) ← CommandLine.run args
  for e in events do
    IO.eprintln (eventLine e)
  IO.eprint outcome.stderr
  IO.print outcome.stdout
  return UInt32.ofNat outcome.code

end TriggerScript.Main

/-- The entry point of the program. -/
def main (args : List String) : IO UInt32 :=
  TriggerScript.Main.main args
