import TriggerScript.LexicalScope
import TriggerScript.Lowering.Pool

/-!
# Computations that make elements

Making the elements of a document is a computation over the pools, the set of what has been made
already and the names in scope. A failed computation leaves its state behind, so that what it did to
the scope can be undone.
-/

namespace TriggerScript

/-- The state of the making of a document. -/
structure LowerState where
  pools : Pools := []
  /-- The definitions and imported defaults that have been made or begun. -/
  done : List Allocation := []
  /-- The names in scope. -/
  scope : LexicalScope := {}

/-- A computation that makes elements. -/
abbrev Lower := EStateM LoweringError LowerState

namespace Lower

variable {α : Type}

/-- A computation that looks nothing up and makes nothing. -/
def ofExcept : Except LoweringError α → Lower α
  | .ok a => pure a
  | .error e => throw e

/-- Fails because the program has no meaning. -/
def shape (message : String) : Lower α :=
  throw (.shape message)

/-- The allocation in a slot. -/
def allocated : Option Allocation → Lower Allocation
  | some a => pure a
  | none => throw notAllocated

/-- Makes sure that the document has a part for a library. -/
def touch (library : String) : Lower Unit :=
  modify fun s => { s with pools := s.pools.touch library }

/-- Adds a reference to the root of a library. -/
def addToRoot (library : String) (item : Node) : Lower Unit :=
  modify fun s => { s with pools := s.pools.addToRoot library item }

/-- Reserves the next place of a library. -/
def reserve (library : String) : Lower Nat := do
  let s ← get
  set { s with pools := s.pools.reserve library }
  return s.pools.nextPlace library

/-- Puts an element into the place that was reserved for it. -/
def fill (library : String) (place : Nat) (element : Node) : Lower Unit := do
  let s ← get
  if s.pools.isOpen library place then
    set { s with pools := s.pools.fill library place element }
  else throw (.placeTaken library place)

/-- Adds elements at the end of a library. -/
def append (library : String) (elements : List Node) : Lower Unit :=
  modify fun s => { s with pools := s.pools.append library elements }

/-- Marks as done; whether it was not done before. -/
def begin (a : Allocation) : Lower Bool := do
  let s ← get
  if a ∈ s.done then return false
  else
    set { s with done := a :: s.done }
    return true

/-- Runs a computation in another scope and comes back to the scope before it, whether it succeeds
or fails. -/
def inScope (scope : LexicalScope) (run : Lower α) : Lower α :=
  fun s =>
    match run { s with scope } with
    | .ok a s' => .ok a { s' with scope := s.scope }
    | .error e s' => .error e { s' with scope := s.scope }

/-- Runs a computation inside a block, which is closed whether it succeeds or fails. -/
def inBlock (run : Lower α) : Lower α :=
  fun s =>
    match run { s with scope := s.scope.openBlock } with
    | .ok a s' => .ok a { s' with scope := s'.scope.closeBlock }
    | .error e s' => .error e { s' with scope := s'.scope.closeBlock }

/-- Declares a local variable. -/
def addLocal (name : String) (a : Allocation) : Lower Unit :=
  modify fun s => { s with scope := s.scope.addLocal name a }

/-- Declares a parameter. -/
def addParameter (name : String) (a : Allocation) : Lower Unit :=
  modify fun s => { s with scope := s.scope.addParameter name a }

/-- What a name is bound to. -/
def resolve (symbols : Symbols) (name : String) : Lower Binding := do
  ofExcept ((← get).scope.resolve symbols name)

/-- How deep values and calls can lie inside one another. -/
def maxDepth : Nat :=
  256

/-- Fails where values and calls lie too deep inside one another. -/
def checkDepth (depth : Nat) : Lower Unit :=
  if depth > maxDepth then
    shape ("expression nesting exceeds " ++ Text.natText maxDepth ++ " levels")
  else pure ()

/-- Fails at the first attribute that is not allowed: a flag must be among `flags`, and an attribute
with a value must be a comment or among `valued`. -/
def validate (flags valued : List String) (owner : String) : List Attribute → Lower Unit
  | [] => pure ()
  | a :: rest =>
    let accepted :=
      match a.value with
      | none => flags.contains a.key
      | some _ => a.key = "comment" || valued.contains a.key
    if accepted then validate flags valued owner rest
    else shape ("malformed attribute `" ++ a.key ++ "` on `" ++ owner ++ "`")

end Lower

end TriggerScript
