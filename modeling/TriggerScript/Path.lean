/-!
# Paths of files

A path is a text whose parts stand between slashes. Empty parts do not count. A part `.` stays where
it is and a part `..` goes to the directory around; both are followed only when a path is used, for
what they stand in must be there.
-/

namespace TriggerScript.Path

/-- The parts of a path. -/
def parts (path : String) : List String :=
  (path.splitOn "/").filter (· ≠ "")

/-- Whether a path starts at the root of all files. -/
def isAbsolute (path : String) : Bool :=
  path.startsWith "/"

/-- Whether a path can only be that of a directory, for a slash stands at its end. -/
def endsInSlash (path : String) : Bool :=
  path.endsWith "/"

/-- Puts a name behind a directory. An absolute name stays alone. -/
def join (directory name : String) : String :=
  if isAbsolute name ∨ directory = "" then name
  else if endsInSlash directory then directory ++ name
  else directory ++ "/" ++ name

/-- The parts of a path without those that change nothing: a dot is kept at the start only. -/
def steps (path : String) : List String :=
  match parts path with
  | "." :: rest => if isAbsolute path then rest.filter (· ≠ ".") else "." :: rest.filter (· ≠ ".")
  | all => all.filter (· ≠ ".")

/-- The path of some parts. -/
def ofSteps (absolute : Bool) (steps : List String) : String :=
  (if absolute then "/" else "") ++ "/".intercalate steps

/-- The paths of the directories around what a path names, the innermost first. -/
def enclosing (path : String) : List String :=
  let all := steps path
  ((List.range all.length).drop 1).reverse.map fun n => ofSteps (isAbsolute path) (all.take n)

/-- A path with an extension behind the name at its end, if there is a name. -/
def extended? (path extension : String) : Option String :=
  match (steps path).getLast? with
  | none => none
  | some name =>
    if name = "." ∨ name = ".." then none
    else some (ofSteps (isAbsolute path) (steps path) ++ "." ++ extension)

end TriggerScript.Path
