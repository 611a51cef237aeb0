import Mathlib.Tactic.Lemma
import TriggerScript.Catalog
import TriggerScript.Symbols

/-!
# Slots

The slots of a tree, outer ones before inner ones and from left to right. This is the order in which
an allocator fills them. With each slot stands the type of the element that its node becomes; a block
becomes no element.

The slots of a program are those of its jobs: of its definitions, and of the default values of its
imported parameters.
-/

namespace TriggerScript

/-- A slot of a tree. -/
structure Slot where
  /-- The type of the element that the node becomes, if it becomes one. -/
  type : Option ElementType
  /-- What the slot holds. -/
  allocation : Option Allocation

/-- The type of the element that a value becomes. -/
def ValueKind.elementType? : ValueKind → Option ElementType
  | .block _ => none
  | _ => some .param

mutual

/-- The slots of a value. -/
def Value.slots : Value → List Slot
  | ⟨kind, allocation⟩ => ⟨kind.elementType?, allocation⟩ :: kind.slots

/-- The slots inside a value. -/
def ValueKind.slots : ValueKind → List Slot
  | .literal _ => []
  | .presetMember _ _ => []
  | .variable _ => []
  | .arrayElement _ indices => valuesSlots indices
  | .call c => c.slots
  | .block b => b.slots

/-- The slots of a call. -/
def Call.slots : Call → List Slot
  | ⟨_, args, allocation⟩ => ⟨some .functionCall, allocation⟩ :: valuesSlots args

/-- The slots of a block. -/
def Block.slots : Block → List Slot
  | ⟨locals, statements⟩ => variablesSlots locals ++ callsSlots statements

/-- The slots of a variable. -/
def VariableDef.slots : VariableDef → List Slot
  | ⟨_, _, _, v, allocation⟩ => ⟨some .variable, allocation⟩ :: v.slots

/-- The slots of values from left to right. -/
def valuesSlots : List Value → List Slot
  | [] => []
  | v :: rest => v.slots ++ valuesSlots rest

/-- The slots of calls from left to right. -/
def callsSlots : List Call → List Slot
  | [] => []
  | c :: rest => c.slots ++ callsSlots rest

/-- The slots of variables from left to right. -/
def variablesSlots : List VariableDef → List Slot
  | [] => []
  | d :: rest => d.slots ++ variablesSlots rest

end

/-- The slots of a parameter. -/
def ParamDef.slots (d : ParamDef) : List Slot :=
  ⟨some .paramDef, d.allocation⟩ :: d.default.toList.flatMap Value.slots

/-- The slot of a member of a preset. -/
def PresetMember.slot (m : PresetMember) : Slot :=
  ⟨some .presetValue, m.allocation⟩

/-- The slots of a definition. -/
def Definition.slots : Definition → List Slot
  | .preset d => ⟨some .preset, d.allocation⟩ :: d.members.map PresetMember.slot
  | .variable d => d.slots
  | .function d =>
    ⟨some .functionDef, d.allocation⟩ :: (d.params.flatMap ParamDef.slots ++ d.body.slots)
  | .trigger d => ⟨some .trigger, d.allocation⟩ :: (d.event.slots ++ d.body.slots)

/-- What is made at most once: a definition, or the default value of an imported parameter. -/
inductive Job where
  | definition (d : Definition)
  | default (formal : Formal) (v : Value)

namespace Job

/-- The slots of a job. -/
def slots : Job → List Slot
  | definition d => d.slots
  | default _ v => v.slots

/-- The allocation of a job. -/
def allocation : Job → Option Allocation
  | definition d => d.allocation
  | default _ v => v.allocation

end Job

/-- The default values of the parameters of an imported entity. -/
def ExternalDefinition.jobs : ExternalDefinition → List Job
  | .function d =>
    (Callable.external d).formals.filterMap fun formal =>
      formal.externalDefault.map (.default formal)
  | _ => []

/-- The jobs of a section, in order. -/
def Scope.jobs : Scope → List Job
  | .import_ s => s.definitions.flatMap ExternalDefinition.jobs
  | .library s => s.definitions.map .definition

/-- The jobs of a program, in order. -/
def Program.jobs (p : Program) : List Job :=
  p.scopes.flatMap Scope.jobs

/-- The slots of a program. -/
def Program.slots (p : Program) : List Slot :=
  p.jobs.flatMap Job.slots

mutual

/-- The slots of an entry of a catalog. -/
def CatalogItem.slots : CatalogItem → List Slot
  | .leaf _ => []
  | .folder f => f.slots

/-- The slots of a folder. -/
def Folder.slots : Folder → List Slot
  | ⟨_, entries, allocation⟩ => ⟨some .category, allocation⟩ :: itemsSlots entries

/-- The slots of entries from left to right. -/
def itemsSlots : List CatalogItem → List Slot
  | [] => []
  | i :: rest => i.slots ++ itemsSlots rest

end

/-- The slots of a catalog. -/
def Catalog.slots (c : Catalog) : List Slot :=
  c.libraries.flatMap fun l => itemsSlots l.items

lemma Value.slots_head (v : Value) : ∃ rest, v.slots = ⟨v.kind.elementType?, v.allocation⟩ :: rest := by
  obtain ⟨kind, allocation⟩ := v
  exact ⟨kind.slots, by rw [Value.slots]⟩

/-- The first slot of a job is its own. -/
lemma Job.slots_head (t : Job) :
    ∃ slot rest, t.slots = slot :: rest ∧ slot.allocation = t.allocation := by
  rcases t with (d | d | d | d) | ⟨formal, v⟩
  · exact ⟨_, _, rfl, rfl⟩
  · obtain ⟨attributes, ty, name, v, allocation⟩ := d
    exact ⟨_, _, by rw [slots, Definition.slots, VariableDef.slots], rfl⟩
  · exact ⟨_, _, rfl, rfl⟩
  · exact ⟨_, _, rfl, rfl⟩
  · obtain ⟨rest, hrest⟩ := v.slots_head
    exact ⟨_, rest, hrest, rfl⟩

end TriggerScript
