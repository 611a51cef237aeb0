import TriggerScript.Catalog
import TriggerScript.Counters
import TriggerScript.Program
import TriggerScript.StringTable

/-!
# Handing out ids

An allocator walks over a program and over a catalog, outer nodes before inner ones and from left to
right, and fills the slots of the nodes. A node gets the next id of the library it is defined in.
Imported entities are bound to the ids that the program gives; the default values of imported
parameters have ids in the default library.

On the way the texts for display are written down: the descriptions and names of the definitions in
one table, the text literals in the other.
-/

namespace TriggerScript

/-- What has been handed out so far. -/
structure Allocator where
  ids : Counters := .empty
  /-- The names and descriptions of the definitions. -/
  labels : StringTable := .empty
  /-- The text literals. -/
  values : StringTable := .empty
deriving Repr, DecidableEq

/-- An allocator at work, with what it has reported. -/
structure Allocating extends Allocator where
  events : List Event := []

/-- A computation that hands out ids. -/
abbrev Allocate := EStateM CounterFault Allocating

namespace Allocate

/-- The next allocation in a library. -/
def next (library : String) : Allocate Allocation := do
  let s ← get
  match s.ids.next library with
  | .ok (id, ids) =>
    set { s with ids }
    return ⟨library, id⟩
  | .error e => throw e

/-- Writes a row of the labels. -/
def putLabel (key text : String) : Allocate Unit :=
  modify fun s =>
    { s with labels := s.labels.put key text, events := s.events ++ s.labels.putEvents key text }

/-- Writes the name or description of an element. -/
def label (type : ElementType) (a : Allocation) (text : String) : Allocate Unit :=
  putLabel (type.name ++ "/Name/" ++ a.stringKey) text

/-- Writes a text literal. -/
def literalText (a : Allocation) (text : String) : Allocate Unit :=
  modify fun s =>
    let key := "Param/Value/" ++ a.stringKey
    { s with values := s.values.put key text, events := s.events ++ s.values.putEvents key text }

mutual

/-- Fills the slots of a value. -/
def value (library : String) : Value → Allocate Value
  | ⟨kind, _⟩ => do
    let a ← next library
    let kind ← valueKind library a kind
    return ⟨kind, some a⟩

/-- Fills the slots inside a value with the allocation `a`. -/
def valueKind (library : String) (a : Allocation) : ValueKind → Allocate ValueKind
  | .literal (.text s) => do
    literalText a s
    return .literal (.text s)
  | .literal l => return .literal l
  | .presetMember preset member => return .presetMember preset member
  | .variable name => return .variable name
  | .arrayElement name indices => do
    let indices ← values library indices
    return .arrayElement name indices
  | .call c => do
    let c ← call library c
    return .call c
  | .block b => do
    let b ← block library b
    return .block b

/-- Fills the slots of a call. -/
def call (library : String) : Call → Allocate Call
  | ⟨callee, args, _⟩ => do
    let a ← next library
    let args ← values library args
    return ⟨callee, args, some a⟩

/-- Fills the slots of a block. -/
def block (library : String) : Block → Allocate Block
  | ⟨locals, statements⟩ => do
    let locals ← variableDefs library locals
    let statements ← calls library statements
    return ⟨locals, statements⟩

/-- Fills the slots of a variable. -/
def variableDef (library : String) : VariableDef → Allocate VariableDef
  | ⟨attributes, ty, name, v, _⟩ => do
    let a ← next library
    label .variable a name
    let v ← value library v
    return ⟨attributes, ty, name, v, some a⟩

/-- Fills the slots of values from left to right. -/
def values (library : String) : List Value → Allocate (List Value)
  | [] => return []
  | v :: rest => do
    let v ← value library v
    let rest ← values library rest
    return v :: rest

/-- Fills the slots of calls from left to right. -/
def calls (library : String) : List Call → Allocate (List Call)
  | [] => return []
  | c :: rest => do
    let c ← call library c
    let rest ← calls library rest
    return c :: rest

/-- Fills the slots of variables from left to right. -/
def variableDefs (library : String) : List VariableDef → Allocate (List VariableDef)
  | [] => return []
  | d :: rest => do
    let d ← variableDef library d
    let rest ← variableDefs library rest
    return d :: rest

end

/-- Fills the slots of a default value, if there is one. -/
def default (library : String) : Option Value → Allocate (Option Value)
  | none => return none
  | some v => do
    let v ← value library v
    return some v

/-- Fills the slots of a parameter. -/
def param (library : String) (d : ParamDef) : Allocate ParamDef := do
  let a ← next library
  label .paramDef a d.name
  let default ← default library d.default
  return { d with default, allocation := some a }

/-- Fills the slot of a member of a preset. -/
def member (library : String) (m : PresetMember) : Allocate PresetMember := do
  let a ← next library
  label .presetValue a m.name
  return { m with allocation := some a }

/-- Fills the slots of a definition. -/
def definition (library : String) : Definition → Allocate Definition
  | .preset d => do
    let a ← next library
    label .preset a d.description
    let members ← d.members.mapM (member library)
    return .preset { d with members, allocation := some a }
  | .variable d => do
    let d ← variableDef library d
    return .variable d
  | .trigger d => do
    let a ← next library
    label .trigger a d.description
    let event ← call library d.event
    let body ← block library d.body
    return .trigger { d with event, body, allocation := some a }
  | .function d => do
    let a ← next library
    label .functionDef a d.description
    let params ← d.params.mapM (param library)
    let body ← block library d.body
    return .function { d with params, body, allocation := some a }

/-- Binds an imported parameter to its id and fills the slots of its default value. -/
def externalParam (library : String) (d : ExternalParam) : Allocate ExternalParam := do
  let default ← default defaultLibrary d.default
  return { d with default, allocation := some ⟨library, d.id⟩ }

/-- Binds an imported entity to its id. -/
def external (library : String) : ExternalDefinition → Allocate ExternalDefinition
  | .preset d =>
    return .preset
      { d with members := d.members.map fun m => { m with allocation := some ⟨library, m.id⟩ } }
  | .function d => do
    let params ← d.params.mapM (externalParam library)
    return .function { d with params, allocation := some ⟨library, d.id⟩ }
  | .variable d => return .variable { d with allocation := some ⟨library, d.id⟩ }

/-- Fills the slots of a section. -/
def scope : Scope → Allocate Scope
  | .import_ s => do
    let definitions ← s.definitions.mapM (external s.library)
    return .import_ { s with definitions }
  | .library s => do
    let definitions ← s.definitions.mapM (definition s.library)
    return .library { s with definitions }

mutual

/-- Fills the slots of an entry of a catalog. -/
def item (library : String) : CatalogItem → Allocate CatalogItem
  | .leaf name => return .leaf name
  | .folder f => do
    let f ← folder library f
    return .folder f

/-- Fills the slots of a folder. -/
def folder (library : String) : Folder → Allocate Folder
  | ⟨description, entries, _⟩ => do
    let a ← next library
    label .category a description
    let entries ← items library entries
    return ⟨description, entries, some a⟩

/-- Fills the slots of entries from left to right. -/
def items (library : String) : List CatalogItem → Allocate (List CatalogItem)
  | [] => return []
  | i :: rest => do
    let i ← item library i
    let rest ← items library rest
    return i :: rest

end

/-- Fills the slots of a library of a catalog. -/
def catalogLibrary (l : CatalogLibrary) : Allocate CatalogLibrary := do
  if l.name ≠ defaultLibrary then
    putLabel ("Library/Name/" ++ l.name) l.description
  let items ← items l.name l.items
  return { l with items }

/-- The number of ids handed out so far; it must be within the range of a word. -/
def issued : Allocate Nat := do
  match (← get).ids.issued with
  | .ok n => return n
  | .error e => throw e

/-- The slots of a program are filled section by section. -/
def scopes (p : Program) : Allocate Program := do
  let scopes ← p.scopes.mapM scope
  return ⟨scopes⟩

/-- The slots of a catalog are filled library by library. -/
def libraries (c : Catalog) : Allocate Catalog := do
  let libraries ← c.libraries.mapM catalogLibrary
  return ⟨libraries⟩

/-- Reports how many ids have been handed out since there were `before`. They are counted once more
for that, so their number must still be within the range of a word. -/
def reportSince (message : String) (before : Nat) : Allocate Unit := do
  let count := (← issued) - before
  modify fun s =>
    { s with events := s.events ++ [⟨.debug, message, [("ids", Text.natText count)]⟩] }

/-- Fills the slots of a program and reports how many ids that took. -/
def program (p : Program) : Allocate Program := do
  let before ← issued
  let p ← scopes p
  reportSince "allocated program" before
  return p

/-- Fills the slots of a catalog and reports how many ids that took. -/
def catalog (c : Catalog) : Allocate Catalog := do
  let before ← issued
  let c ← libraries c
  reportSince "allocated catalog" before
  return c

end Allocate

end TriggerScript
