import TriggerScript.Allocation

/-!
# Programs

The syntax trees of the program language. A program is a list of scopes: import scopes name entities
that exist elsewhere under ids of their own, and library scopes define triggers, functions, presets
and variables.

Every node that becomes an element of the document has a slot for its allocation. The slots are
empty after parsing and are filled when ids are handed out.
-/

namespace TriggerScript

/-- An attribute in front of a definition: a flag, or a key with a value. -/
structure Attribute where
  key : String
  value : Option String := none
deriving Repr, DecidableEq, Inhabited

namespace Attribute

/-- Whether an attribute with this key is present, with or without a value. -/
def present (attributes : List Attribute) (key : String) : Bool :=
  attributes.any (·.key = key)

/-- The value of the first attribute with this key. -/
def valueOf? (attributes : List Attribute) (key : String) : Option String :=
  (attributes.find? (·.key = key)).bind (·.value)

end Attribute

/-- A dimension of an array type. -/
inductive Dimension where
  | size (n : Int)
  /-- The size is the value of a variable. -/
  | variable (name : String)
deriving Repr, DecidableEq, Inhabited

/-- A type: a name and the dimensions of an array of it. -/
structure TypeRef where
  name : String
  dims : List Dimension := []
deriving Repr, DecidableEq, Inhabited

namespace TypeRef

/-- The type of what returns nothing. -/
def void : TypeRef :=
  ⟨"void", []⟩

/-- Whether the type is the type of what returns nothing. -/
def isVoid (t : TypeRef) : Bool :=
  t.name = "void" && t.dims.isEmpty

end TypeRef

/-- The kinds of callable entities. -/
inductive CallableKind where
  | function
  | action
  | event
deriving Repr, DecidableEq, Inhabited

/-- A literal value. -/
inductive Literal where
  /-- A text for display, which is kept in a string table. -/
  | text (s : String)
  | string (s : String)
  | int (n : Int)
  | bool (b : Bool)
deriving Repr, DecidableEq, Inhabited

mutual

/-- What a value is. -/
inductive ValueKind where
  | literal (l : Literal)
  /-- A member of a preset. -/
  | presetMember (preset member : String)
  /-- A variable or a parameter. -/
  | variable (name : String)
  /-- An element of an array. -/
  | arrayElement (name : String) (indices : List Value)
  /-- The result of a call. -/
  | call (c : Call)
  /-- A block of statements, which can only be handed to a parameter that takes one. -/
  | block (b : Block)

/-- A value. -/
structure Value where
  kind : ValueKind
  allocation : Option Allocation := none

/-- A call of a function, an action or an event. -/
structure Call where
  callee : String
  args : List Value
  allocation : Option Allocation := none

/-- Local variables and the statements that use them. -/
structure Block where
  locals : List VariableDef
  statements : List Call

/-- The declaration of a variable with its initial value. -/
structure VariableDef where
  attributes : List Attribute
  ty : TypeRef
  name : String
  value : Value
  allocation : Option Allocation := none

end

/-- A parameter of a function or an action. -/
structure ParamDef where
  attributes : List Attribute
  name : String
  ty : TypeRef
  default : Option Value := none
  allocation : Option Allocation := none

/-- A member of a preset. -/
structure PresetMember where
  name : String
  allocation : Option Allocation := none
deriving Repr, DecidableEq

/-- A preset: a type with a fixed list of values. -/
structure PresetDef where
  attributes : List Attribute
  name : String
  description : String
  members : List PresetMember
  allocation : Option Allocation := none
deriving Repr, DecidableEq

/-- A function or an action. -/
structure FunctionDef where
  kind : CallableKind
  attributes : List Attribute
  name : String
  description : String
  params : List ParamDef
  returns : TypeRef
  body : Block
  allocation : Option Allocation := none

/-- A trigger: a body that runs when an event happens. -/
structure TriggerDef where
  attributes : List Attribute
  name : String
  description : String
  event : Call
  body : Block
  allocation : Option Allocation := none

/-- A definition of a library. -/
inductive Definition where
  | preset (d : PresetDef)
  | variable (d : VariableDef)
  | function (d : FunctionDef)
  | trigger (d : TriggerDef)

namespace Definition

/-- The name of a definition. -/
def name : Definition → String
  | .preset d => d.name
  | .variable d => d.name
  | .function d => d.name
  | .trigger d => d.name

/-- The allocation of a definition. -/
def allocation : Definition → Option Allocation
  | .preset d => d.allocation
  | .variable d => d.allocation
  | .function d => d.allocation
  | .trigger d => d.allocation

end Definition

/-- A parameter of an imported function. -/
structure ExternalParam where
  attributes : List Attribute
  name : String
  ty : TypeRef
  id : ElementId
  default : Option Value := none
  allocation : Option Allocation := none

/-- An imported function, action or event. -/
structure ExternalFunction where
  kind : CallableKind
  attributes : List Attribute
  name : String
  id : ElementId
  params : List ExternalParam
  returns : TypeRef
  allocation : Option Allocation := none

/-- A member of an imported preset. -/
structure ExternalMember where
  name : String
  id : ElementId
  allocation : Option Allocation := none
deriving Repr, DecidableEq

/-- An imported preset. Its members have ids, the preset itself has none. -/
structure ExternalPreset where
  attributes : List Attribute
  name : String
  members : List ExternalMember
  allocation : Option Allocation := none
deriving Repr, DecidableEq

/-- An imported variable. -/
structure ExternalVariable where
  attributes : List Attribute
  ty : TypeRef
  name : String
  id : ElementId
  allocation : Option Allocation := none
deriving Repr, DecidableEq

/-- An imported entity. -/
inductive ExternalDefinition where
  | preset (d : ExternalPreset)
  | function (d : ExternalFunction)
  | variable (d : ExternalVariable)

/-- The entities imported from a library. -/
structure ImportScope where
  library : String
  definitions : List ExternalDefinition

/-- The definitions of a library. -/
structure LibraryScope where
  library : String
  definitions : List Definition

/-- A section of a program. -/
inductive Scope where
  | import_ (s : ImportScope)
  | library (s : LibraryScope)

/-- A program. -/
structure Program where
  scopes : List Scope

namespace Program

/-- The import scopes, in order. -/
def imports (p : Program) : List ImportScope :=
  p.scopes.filterMap fun
    | .import_ s => some s
    | .library _ => none

/-- The library scopes, in order. -/
def libraries (p : Program) : List LibraryScope :=
  p.scopes.filterMap fun
    | .import_ _ => none
    | .library s => some s

end Program

end TriggerScript
