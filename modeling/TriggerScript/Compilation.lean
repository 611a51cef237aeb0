import TriggerScript.Allocator
import TriggerScript.Document
import TriggerScript.Source

/-!
# Compilations

A compilation takes a program and a catalog and yields a document and two string tables. The program
is read and allocated before the catalog is looked at, and the catalog is allocated with what the
program has left, so that no id is handed out twice.

The main definition is `Compilation.ofSources`.
-/

namespace TriggerScript

/-- Runs an allocation from a state; yields the state behind it too. -/
def Allocator.run {α : Type} (a : Allocator) (work : Allocate α) :
    Run CompileError (α × Allocator) := do
  match work { a with } with
  | .ok x s =>
    Run.reportAll s.events
    return (x, s.toAllocator)
  | .error _ s =>
    Run.reportAll s.events
    throw .counter

/-- The result of a compilation. -/
structure Compilation where
  /-- The document. -/
  tree : Node
  /-- The names and descriptions of the definitions. -/
  labels : StringTable
  /-- The text literals, behind the rows that were to stand in front of them. -/
  values : StringTable
deriving DecidableEq

namespace Compilation

/-- The allocated program of a source text, and the state of the allocator behind it. -/
def program (source : String) : Run CompileError (Program × Allocator) := do
  let p ← Program.ofSource source
  ({} : Allocator).run (Allocate.program p)

/-- Puts a compilation together from an allocated program and a catalog; `preamble` holds the rows in
front of the text literals. -/
def assemble (preamble : List (String × String)) (p : Program) (a : Allocator) (c : Catalog) :
    Run CompileError Compilation := do
  let (c, a) ← a.run (Allocate.catalog c)
  let tree ← (Document.build p c).mapError .lowering
  Run.reportAll (StringTable.empty.putAllEvents preamble)
  let values := StringTable.ofRows preamble
  Run.reportAll (values.putAllEvents a.values.rows)
  return { tree, labels := a.labels, values := values.extend a.values }

/-- Compiles source texts. -/
def ofSources (preamble : List (String × String)) (programText catalogText : String) :
    Run CompileError Compilation := do
  let (p, a) ← program programText
  let c ← Catalog.ofSource catalogText
  assemble preamble p a c

end Compilation

end TriggerScript
