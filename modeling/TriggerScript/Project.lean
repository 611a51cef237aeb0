import TriggerScript.Compilation
import TriggerScript.Excerpt
import TriggerScript.FileSystem
import TriggerScript.Snapshot
import TriggerScript.Xml

/-!
# Projects in files

Compilations whose sources, snapshots and results are files. A snapshot of the allocated program lies
beside the program and is used as long as it is newer than the program. One that cannot be read is
ignored, and so is a failure to write one; both are reported.

The main definitions are `Project.compile` and `Project.write`.
-/

namespace TriggerScript

/-- Why a project cannot be compiled. -/
inductive ProjectError where
  /-- A file or directory cannot be used. -/
  | file (path : String) (e : FileError)
  /-- A source text cannot be compiled. -/
  | compile (path source : String) (e : CompileError)
deriving Repr

namespace ProjectError

/-- The text of an error. -/
def message : ProjectError → String
  | file path e => path ++ ": " ++ e.message
  | compile path _ e => path ++ ": " ++ e.message

/-- The text of an error, with the lines around it where it has a place in a source. -/
def report : ProjectError → String
  | file path e => (file path e).message
  | compile path source e =>
    match e.offset? with
    | some offset => (compile path source e).message ++ "\n" ++ Excerpt.render source offset
    | none => (compile path source e).message

end ProjectError

/-- Where the results of a compilation are written. -/
structure OutputPaths where
  directory : String := "out"
  /-- The name of the document. -/
  tree : String := "Triggers"
  labels : String := "TriggerStrings.txt"
  values : String := "GameStrings.txt"
deriving Repr, DecidableEq

namespace OutputPaths

/-- The path of the document. -/
def treePath (p : OutputPaths) : String :=
  Path.join p.directory p.tree

/-- The path of the labels. -/
def labelsPath (p : OutputPaths) : String :=
  Path.join p.directory p.labels

/-- The path of the text literals. -/
def valuesPath (p : OutputPaths) : String :=
  Path.join p.directory p.values

end OutputPaths

namespace Project

variable {m : Type → Type} [Monad m] [FileSystem m] [Packing] {ε : Type}

/-- How a project is compiled. -/
structure Options where
  /-- The extension of snapshots; without one there are none. -/
  snapshotExtension : Option String := none
  /-- The rows in front of the text literals. -/
  preamble : List (String × String) := []
deriving Repr, DecidableEq

/-! ### Snapshots -/

/-- The path of the snapshot of a program. -/
def snapshotPath (program extension : String) : String :=
  program ++ "." ++ extension

/-- Whether a snapshot is newer than its program. -/
def isFresh (program snapshot : String) : m (Except FileError Bool) := do
  match ← FileSystem.modified program with
  | .error e => return .error e
  | .ok programTime =>
    match ← FileSystem.modified snapshot with
    | .error e => return .error e
    | .ok snapshotTime => return .ok (programTime < snapshotTime)

/-- The snapshot of a file. -/
def readSnapshot (path : String) : m (Except String Snapshot) := do
  match ← FileSystem.read path with
  | .error e => return .error ("cache I/O failed: " ++ e.message)
  | .ok bytes =>
    match Snapshot.decode bytes with
    | .ok s => return .ok s
    | .error e => return .error e.message

/-- The snapshot at a path, if it is newer than its program and can be read. -/
def loadSnapshot (program path : String) : Task m ε (Option Snapshot) := do
  match ← Task.perform (isFresh program path) with
  | .error e =>
    Task.report ⟨.info, "cache miss", [("path", path), ("error", e.message)]⟩
    return none
  | .ok false =>
    Task.report ⟨.info, "cache miss", [("path", path)]⟩
    return none
  | .ok true =>
    match ← Task.perform (readSnapshot path) with
    | .ok s =>
      Task.report ⟨.info, "cache hit", [("path", path)]⟩
      return some s
    | .error text =>
      Task.report ⟨.warn, "ignoring unreadable cache", [("path", path), ("error", text)]⟩
      return none

/-- Writes a snapshot. -/
def storeSnapshot (path : String) (s : Snapshot) : Task m ε Unit := do
  match ← Task.perform (FileSystem.write path s.encode) with
  | .ok () => Task.report ⟨.debug, "wrote cache", [("path", path)]⟩
  | .error e =>
    Task.report ⟨.warn, "failed to write cache", [("path", path), ("error", e.message)]⟩

/-! ### Sources -/

/-- The text of a source file. -/
def readSource (path : String) : Task m ProjectError String := do
  let source ← Task.attempt (.file path) (FileSystem.readText path)
  Task.report ⟨.info, "loaded source",
    [("path", path), ("bytes", Text.natText source.utf8ByteSize)]⟩
  return source

/-- A step of the compilation of a source. -/
def step {α : Type} (path source : String) (run : Run CompileError α) : Task m ProjectError α :=
  Task.ofRun (run.mapError (.compile path source))

/-- The allocated program of a source file and the state of the allocator behind it, from its
snapshot if there is one to use. -/
def loadProgram (options : Options) (path source : String) :
    Task m ProjectError (Program × Allocator) := do
  match options.snapshotExtension with
  | none => step path source (Compilation.program source)
  | some extension =>
    let snapshot := snapshotPath path extension
    match ← loadSnapshot path snapshot with
    | some s => return (s.program, s.allocator)
    | none =>
      let (p, a) ← step path source (Compilation.program source)
      storeSnapshot snapshot ⟨p, a⟩
      return (p, a)

/-- Compiles the program and the catalog of two files. -/
def compile (options : Options) (programPath catalogPath : String) :
    Task m ProjectError Compilation := do
  let programText ← readSource programPath
  let catalogText ← readSource catalogPath
  let (p, a) ← loadProgram options programPath programText
  let c ← step catalogPath catalogText (Catalog.ofSource catalogText)
  step programPath programText (Compilation.assemble options.preamble p a c)

/-- The tokens of a program file. -/
def tokens (path : String) : Task m ProjectError (List Token) := do
  let source ← readSource path
  step path source ((programLexicon.read source).mapError .lex)

/-- The allocated program of a program file. Snapshots are not looked at. -/
def allocated (path : String) : Task m ProjectError Program := do
  let source ← readSource path
  let (p, _) ← step path source (Compilation.program source)
  return p

/-! ### Results -/

/-- Writes a text file. -/
def writeText (path text : String) : Task m ProjectError Unit :=
  Task.attempt (.file path) (FileSystem.write path text.toUTF8)

/-- Writes the results of a compilation. -/
def write (paths : OutputPaths) (declaration : Bool) (c : Compilation) :
    Task m ProjectError Unit := do
  Task.attempt (.file paths.directory) (FileSystem.createDirectories paths.directory)
  writeText paths.treePath (Xml.render declaration c.tree)
  writeText paths.labelsPath c.labels.render
  writeText paths.valuesPath c.values.render
  Task.report ⟨.debug, "wrote outputs", [("directory", paths.directory)]⟩

end Project

end TriggerScript
