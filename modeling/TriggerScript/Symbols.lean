import TriggerScript.Event
import TriggerScript.Failure
import TriggerScript.Program

/-!
# The names of a program

Presets, callable entities, triggers and global variables have names in dictionaries of their own.
A later definition of a name replaces an earlier one, which is reported.
-/

namespace TriggerScript

/-- A function, action or event that can be called. -/
inductive Callable where
  | library (d : FunctionDef)
  | external (d : ExternalFunction)

/-- What a call has to know of a parameter. -/
structure Formal where
  name : String
  allocation : Option Allocation
  /-- Whether a block is handed to the parameter, and not a value. -/
  acceptsBlock : Bool
  /-- Whether the parameter can be left out. -/
  hasDefault : Bool
  /-- The default value of an imported parameter. -/
  externalDefault : Option Value

namespace Callable

/-- The name of a callable entity. -/
def name : Callable → String
  | library d => d.name
  | external d => d.name

/-- The kind of a callable entity. -/
def kind : Callable → CallableKind
  | library d => d.kind
  | external d => d.kind

/-- The allocation of a callable entity. -/
def allocation : Callable → Option Allocation
  | library d => d.allocation
  | external d => d.allocation

/-- Whether the entity is imported. -/
def isExternal : Callable → Bool
  | library _ => false
  | external _ => true

/-- The parameters of a callable entity. -/
def formals : Callable → List Formal
  | library d =>
    d.params.map fun p =>
      ⟨p.name, p.allocation, Attribute.present p.attributes "block", p.default.isSome, none⟩
  | external d =>
    d.params.map fun p =>
      ⟨p.name, p.allocation, Attribute.present p.attributes "block", p.default.isSome, p.default⟩

end Callable

/-- A preset with its members. -/
inductive Preset where
  | library (d : PresetDef)
  | external (d : ExternalPreset)

namespace Preset

/-- The allocation of the first member of this name. -/
def member? (p : Preset) (name : String) : Option Allocation :=
  match p with
  | library d => (d.members.find? (·.name = name)).bind (·.allocation)
  | external d => (d.members.find? (·.name = name)).bind (·.allocation)

/-- Whether the preset is imported. -/
def isExternal : Preset → Bool
  | library _ => false
  | external _ => true

end Preset

/-- A global variable. -/
inductive Global where
  | library (d : VariableDef)
  | external (d : ExternalVariable)

namespace Global

/-- The allocation of a global variable. -/
def allocation : Global → Option Allocation
  | library d => d.allocation
  | external d => d.allocation

/-- Whether the variable is imported. -/
def isExternal : Global → Bool
  | library _ => false
  | external _ => true

end Global

/-- What a catalog can list. -/
inductive Entry where
  | trigger (d : TriggerDef)
  | callable (c : Callable)
  | preset (p : Preset)
  | global (g : Global)

/-- The dictionaries of a program, the latest definition first. -/
structure Symbols where
  presets : List (String × Preset) := []
  callables : List (String × Callable) := []
  triggers : List (String × TriggerDef) := []
  globals : List (String × Global) := []

namespace Symbols

/-- What is reported when a name is defined. -/
def replaced {α : Type} (dictionary : List (String × α)) (kind name library : String) :
    List Event :=
  if (dictionary.lookup name).isSome then
    [⟨.warn, "definition replaces an earlier one with the same name",
      [("kind", kind), ("name", name), ("library", library)]⟩]
  else []

/-- Adds an imported entity. -/
def addExternal (library : String) (s : Symbols) : ExternalDefinition → Symbols × List Event
  | .preset d =>
    ({ s with presets := (d.name, .external d) :: s.presets },
      replaced s.presets "preset" d.name library)
  | .function d =>
    ({ s with callables := (d.name, .external d) :: s.callables },
      replaced s.callables "callable" d.name library)
  | .variable d =>
    ({ s with globals := (d.name, .external d) :: s.globals },
      replaced s.globals "variable" d.name library)

/-- Adds a definition. -/
def addDefinition (library : String) (s : Symbols) : Definition → Symbols × List Event
  | .preset d =>
    ({ s with presets := (d.name, .library d) :: s.presets },
      replaced s.presets "preset" d.name library)
  | .function d =>
    ({ s with callables := (d.name, .library d) :: s.callables },
      replaced s.callables "callable" d.name library)
  | .trigger d =>
    ({ s with triggers := (d.name, d) :: s.triggers },
      replaced s.triggers "trigger" d.name library)
  | .variable d =>
    ({ s with globals := (d.name, .library d) :: s.globals },
      replaced s.globals "variable" d.name library)

/-- Adds one after the other, with what is reported. -/
def addAll {α : Type} (add : Symbols → α → Symbols × List Event) (s : Symbols) :
    List α → Symbols × List Event
  | [] => (s, [])
  | d :: rest =>
    let (s, events) := add s d
    let (s, others) := addAll add s rest
    (s, events ++ others)

/-- Adds what a section defines. -/
def addScope (s : Symbols) : Scope → Symbols × List Event
  | .import_ i => addAll (addExternal i.library) s i.definitions
  | .library l => addAll (addDefinition l.library) s l.definitions

/-- The dictionaries of a program, with what is reported when they are made. -/
def ofProgram (p : Program) : Symbols × List Event :=
  addAll addScope {} p.scopes

/-- The callable entity of a name. -/
def callable (s : Symbols) (name : String) : Except LoweringError Callable :=
  match s.callables.lookup name with
  | some c => .ok c
  | none => .error (.unresolved name)

/-- The preset of a name. -/
def preset (s : Symbols) (name : String) : Except LoweringError Preset :=
  match s.presets.lookup name with
  | some p => .ok p
  | none => .error (.unresolved name)

/-- The global variable of a name. -/
def global? (s : Symbols) (name : String) : Option Global :=
  s.globals.lookup name

/-- What a catalog means by a name: a trigger, or else a callable entity, a preset or a global
variable. -/
def entry? (s : Symbols) (name : String) : Option Entry :=
  (s.triggers.lookup name).map .trigger
    <|> (s.callables.lookup name).map .callable
    <|> (s.presets.lookup name).map .preset
    <|> (s.globals.lookup name).map .global

/-- The default values of the imported parameters that calls can leave out. -/
def externalDefaults (s : Symbols) : List Value :=
  s.callables.flatMap fun c => c.2.formals.filterMap (·.externalDefault)

end Symbols

end TriggerScript
