import TriggerScript.Symbols

/-!
# Names inside a definition

Inside a definition a name means, in this order: a local of the innermost open block that has one of
this name, a parameter, a local of the definition, a global variable. Of two with the same name in
the same place the later one counts.
-/

namespace TriggerScript

/-- What a name is bound to. -/
inductive Binding where
  | parameter (a : Allocation)
  | variable (a : Allocation)
deriving Repr, DecidableEq

namespace Binding

/-- The allocation of what a name is bound to. -/
def allocation : Binding → Allocation
  | .parameter a => a
  | .variable a => a

/-- The type of the element that a name is bound to. -/
def type : Binding → ElementType
  | .parameter _ => .paramDef
  | .variable _ => .variable

/-- The tag of a reference to what a name is bound to. -/
def tag : Binding → String
  | .parameter _ => "Parameter"
  | .variable _ => "Variable"

end Binding

/-- The error of a node whose slot is empty. -/
def notAllocated : LoweringError :=
  .shape "node was lowered before it was allocated"

/-- The names that a definition has declared so far, the latest first. -/
structure LexicalScope where
  /-- The locals of the open blocks, the innermost block first. -/
  blocks : List (List (String × Allocation)) := []
  parameters : List (String × Allocation) := []
  locals : List (String × Allocation) := []
deriving Repr, DecidableEq

namespace LexicalScope

/-- Declares a parameter. -/
def addParameter (s : LexicalScope) (name : String) (a : Allocation) : LexicalScope :=
  { s with parameters := (name, a) :: s.parameters }

/-- Declares a local of the innermost open block, or of the definition if no block is open. -/
def addLocal (s : LexicalScope) (name : String) (a : Allocation) : LexicalScope :=
  match s.blocks with
  | block :: outer => { s with blocks := ((name, a) :: block) :: outer }
  | [] => { s with locals := (name, a) :: s.locals }

/-- Opens a block. -/
def openBlock (s : LexicalScope) : LexicalScope :=
  { s with blocks := [] :: s.blocks }

/-- Closes the innermost open block, if there is one. -/
def closeBlock (s : LexicalScope) : LexicalScope :=
  { s with blocks := s.blocks.tail }

/-- What a name is bound to inside the definition. -/
def local? (s : LexicalScope) (name : String) : Option Binding :=
  (s.blocks.findSome? (·.lookup name)).map .variable
    <|> (s.parameters.lookup name).map .parameter
    <|> (s.locals.lookup name).map .variable

/-- What a name is bound to. -/
def resolve (s : LexicalScope) (symbols : Symbols) (name : String) :
    Except LoweringError Binding :=
  match s.local? name with
  | some binding => .ok binding
  | none =>
    match symbols.global? name with
    | none => .error (.unresolved name)
    | some g =>
      match g.allocation with
      | some a => .ok (.variable a)
      | none => .error notAllocated

end LexicalScope

end TriggerScript
