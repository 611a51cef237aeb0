import Mathlib.Data.List.Basic
import Mathlib.Tactic.Common
import TriggerScript.Proofs.Slots

/-!
# The walk over a tree

Whoever walks over a tree, outer nodes before inner ones and from left to right, comes by its nodes with
slots. With each of them stands here what an allocator needs to know of it: the type of the element that
it becomes, the description or name that it is shown with, and the text that it shows if it is a literal
for display.

The stops of a program and of a catalog tell besides in which library a node gets its id: a node of a
library section or of a catalog in the library around it, and all that is in the default value of an
imported parameter in the default library. Imported entities are no stops. A catalog also stops at each
of its libraries, which gets a label.

The nodes of a tree have the slots of the tree (`Program.slots_eq`, `Catalog.slots_eq`).
-/

namespace TriggerScript

/-! ## The nodes that get ids -/

/-- A node that gets an id. -/
structure Site where
  /-- The type of the element that it becomes, if it becomes one. -/
  type : Option ElementType
  /-- What the slot of the node holds. -/
  allocation : Option Allocation
  /-- The description or the name that the node is shown with. -/
  label : Option String := none
  /-- The text that it stands for, if it is a literal for display. -/
  literal : Option String := none

namespace Site

/-- The slot of the node. -/
def slot (site : Site) : Slot :=
  ⟨site.type, site.allocation⟩

/-- The node with an empty slot. -/
def blank (site : Site) : Site :=
  { site with allocation := none }

end Site

/-- The text of a literal for display. -/
def ValueKind.displayed? : ValueKind → Option String
  | .literal (.text s) => some s
  | _ => none

/-- The node of a value of this kind. -/
def ValueKind.site (kind : ValueKind) (allocation : Option Allocation) : Site where
  type := kind.elementType?
  allocation := allocation
  literal := kind.displayed?

mutual

/-- The nodes of a value. -/
def Value.sites : Value → List Site
  | ⟨kind, allocation⟩ => kind.site allocation :: kind.sites

/-- The nodes inside a value. -/
def ValueKind.sites : ValueKind → List Site
  | .literal _ => []
  | .presetMember _ _ => []
  | .variable _ => []
  | .arrayElement _ indices => valuesSites indices
  | .call c => c.sites
  | .block b => b.sites

/-- The nodes of a call. -/
def Call.sites : Call → List Site
  | ⟨_, args, allocation⟩ => { type := some .functionCall, allocation } :: valuesSites args

/-- The nodes of a block. -/
def Block.sites : Block → List Site
  | ⟨locals, statements⟩ => variablesSites locals ++ callsSites statements

/-- The nodes of a variable. -/
def VariableDef.sites : VariableDef → List Site
  | ⟨_, _, name, v, allocation⟩ =>
    { type := some .variable, allocation, label := some name } :: v.sites

/-- The nodes of values from left to right. -/
def valuesSites : List Value → List Site
  | [] => []
  | v :: rest => v.sites ++ valuesSites rest

/-- The nodes of calls from left to right. -/
def callsSites : List Call → List Site
  | [] => []
  | c :: rest => c.sites ++ callsSites rest

/-- The nodes of variables from left to right. -/
def variablesSites : List VariableDef → List Site
  | [] => []
  | d :: rest => d.sites ++ variablesSites rest

end

/-- The nodes of a default value, if there is one. -/
def defaultSites (v : Option Value) : List Site :=
  v.toList.flatMap Value.sites

/-- The nodes of a parameter. -/
def ParamDef.sites (d : ParamDef) : List Site :=
  { type := some .paramDef, allocation := d.allocation, label := some d.name } ::
    defaultSites d.default

/-- The node of a member of a preset. -/
def PresetMember.site (m : PresetMember) : Site :=
  { type := some .presetValue, allocation := m.allocation, label := some m.name }

/-- The nodes of a definition. -/
def Definition.sites : Definition → List Site
  | .preset d =>
    { type := some .preset, allocation := d.allocation, label := some d.description } ::
      d.members.map PresetMember.site
  | .variable d => d.sites
  | .function d =>
    { type := some .functionDef, allocation := d.allocation, label := some d.description } ::
      (d.params.flatMap ParamDef.sites ++ d.body.sites)
  | .trigger d =>
    { type := some .trigger, allocation := d.allocation, label := some d.description } ::
      (d.event.sites ++ d.body.sites)

/-- The nodes in the default values of an imported entity. -/
def ExternalDefinition.sites : ExternalDefinition → List Site
  | .function d => d.params.flatMap fun q => defaultSites q.default
  | _ => []

mutual

/-- The nodes of an entry of a catalog. -/
def CatalogItem.sites : CatalogItem → List Site
  | .leaf _ => []
  | .folder f => f.sites

/-- The nodes of a folder. -/
def Folder.sites : Folder → List Site
  | ⟨description, entries, allocation⟩ =>
    { type := some .category, allocation, label := some description } :: itemsSites entries

/-- The nodes of entries from left to right. -/
def itemsSites : List CatalogItem → List Site
  | [] => []
  | i :: rest => i.sites ++ itemsSites rest

end

/-! ## The stops of a walk -/

/-- A stop of the walk over a program or a catalog. -/
inductive Stop where
  /-- A node that gets its id in this library. -/
  | node (library : String) (site : Site)
  /-- A library of a catalog that gets a label. -/
  | heading (name description : String)

namespace Stop

/-- The stop with an empty slot. -/
def blank : Stop → Stop
  | node library site => node library site.blank
  | heading name description => heading name description

/-- The library in which an id is handed out at the stop. -/
def library? : Stop → Option String
  | node library _ => some library
  | heading _ _ => none

/-- The node of the stop. -/
def site? : Stop → Option Site
  | node _ site => some site
  | heading _ _ => none

/-- What the slot at the stop holds. -/
def allocation? (stop : Stop) : Option Allocation :=
  stop.site?.bind Site.allocation

end Stop

/-- The stops in a section: definitions get ids in the library of the section, and default values of
imported parameters in the default library. -/
def Scope.walk : Scope → List Stop
  | .import_ s => s.definitions.flatMap fun d => d.sites.map (.node defaultLibrary)
  | .library s => s.definitions.flatMap fun d => d.sites.map (.node s.library)

/-- The stops in a program. -/
def Program.walk (p : Program) : List Stop :=
  p.scopes.flatMap Scope.walk

/-- The stop at a library of a catalog. The default library has no label. -/
def CatalogLibrary.headings (l : CatalogLibrary) : List Stop :=
  if l.name = defaultLibrary then [] else [.heading l.name l.description]

/-- The stops in a library of a catalog. -/
def CatalogLibrary.walk (l : CatalogLibrary) : List Stop :=
  l.headings ++ (itemsSites l.items).map (.node l.name)

/-- The stops in a catalog. -/
def Catalog.walk (c : Catalog) : List Stop :=
  c.libraries.flatMap CatalogLibrary.walk

/-! ## What is written at a stop -/

namespace Allocation

/-- The key of the name or description of an element. -/
def labelKey (type : ElementType) (a : Allocation) : String :=
  type.name ++ "/Name/" ++ a.stringKey

/-- The key of the text of a literal. -/
def valueKey (a : Allocation) : String :=
  "Param/Value/" ++ a.stringKey

end Allocation

/-- The key of the label of a library of a catalog. -/
def CatalogLibrary.labelKey (name : String) : String :=
  "Library/Name/" ++ name

namespace Site

/-- The label of a node as a row. -/
def labelRow? (site : Site) : Option (String × String) := do
  let text ← site.label
  let type ← site.type
  let a ← site.allocation
  return (a.labelKey type, text)

/-- The text of a literal as a row. -/
def valueRow? (site : Site) : Option (String × String) := do
  let a ← site.allocation
  let text ← site.literal
  return (a.valueKey, text)

end Site

namespace Stop

/-- The rows that are written into the labels. -/
def labelRows : Stop → List (String × String)
  | node _ site => site.labelRow?.toList
  | heading name description => [(CatalogLibrary.labelKey name, description)]

/-- The rows that are written into the values. -/
def valueRows : Stop → List (String × String)
  | node _ site => site.valueRow?.toList
  | heading _ _ => []

end Stop

/-! ## Nodes and slots -/

mutual

lemma Value.slots_eq : ∀ v : Value, v.slots = v.sites.map Site.slot
  | ⟨kind, _⟩ => by
    rw [Value.slots, Value.sites, List.map_cons, ValueKind.slots_eq kind]
    rfl

lemma ValueKind.slots_eq : ∀ kind : ValueKind, kind.slots = kind.sites.map Site.slot
  | .literal _ => by rw [ValueKind.slots, ValueKind.sites, List.map_nil]
  | .presetMember _ _ => by rw [ValueKind.slots, ValueKind.sites, List.map_nil]
  | .variable _ => by rw [ValueKind.slots, ValueKind.sites, List.map_nil]
  | .arrayElement _ indices => by rw [ValueKind.slots, ValueKind.sites, valuesSlots_eq indices]
  | .call c => by rw [ValueKind.slots, ValueKind.sites, Call.slots_eq c]
  | .block b => by rw [ValueKind.slots, ValueKind.sites, Block.slots_eq b]

lemma Call.slots_eq : ∀ c : Call, c.slots = c.sites.map Site.slot
  | ⟨_, args, _⟩ => by
    rw [Call.slots, Call.sites, List.map_cons, valuesSlots_eq args]
    rfl

lemma Block.slots_eq : ∀ b : Block, b.slots = b.sites.map Site.slot
  | ⟨locals, statements⟩ => by
    rw [Block.slots, Block.sites, List.map_append, variablesSlots_eq locals, callsSlots_eq statements]

lemma VariableDef.slots_eq : ∀ d : VariableDef, d.slots = d.sites.map Site.slot
  | ⟨_, _, _, v, _⟩ => by
    rw [VariableDef.slots, VariableDef.sites, List.map_cons, Value.slots_eq v]
    rfl

lemma valuesSlots_eq : ∀ vs : List Value, valuesSlots vs = (valuesSites vs).map Site.slot
  | [] => by rw [valuesSlots, valuesSites, List.map_nil]
  | v :: rest => by
    rw [valuesSlots, valuesSites, List.map_append, Value.slots_eq v, valuesSlots_eq rest]

lemma callsSlots_eq : ∀ cs : List Call, callsSlots cs = (callsSites cs).map Site.slot
  | [] => by rw [callsSlots, callsSites, List.map_nil]
  | c :: rest => by
    rw [callsSlots, callsSites, List.map_append, Call.slots_eq c, callsSlots_eq rest]

lemma variablesSlots_eq : ∀ ds : List VariableDef,
    variablesSlots ds = (variablesSites ds).map Site.slot
  | [] => by rw [variablesSlots, variablesSites, List.map_nil]
  | d :: rest => by
    rw [variablesSlots, variablesSites, List.map_append, VariableDef.slots_eq d,
      variablesSlots_eq rest]

end

lemma defaultSlots_eq (v : Option Value) :
    v.toList.flatMap Value.slots = (defaultSites v).map Site.slot := by
  rcases v with _ | v
  · rfl
  · simp [defaultSites, v.slots_eq]

lemma Definition.slots_eq (d : Definition) : d.slots = d.sites.map Site.slot := by
  have hparam : ParamDef.slots = fun q : ParamDef => q.sites.map Site.slot := by
    funext q
    rw [ParamDef.slots, ParamDef.sites, List.map_cons, defaultSlots_eq]
    rfl
  rcases d with d | d | d | d
  · simp [slots, sites, Site.slot, PresetMember.slot, PresetMember.site]
  · exact d.slots_eq
  · simp [slots, sites, Site.slot, hparam, List.map_flatMap, Block.slots_eq]
  · simp [slots, sites, Site.slot, Block.slots_eq, Call.slots_eq]

mutual

lemma CatalogItem.slots_eq : ∀ i : CatalogItem, i.slots = i.sites.map Site.slot
  | .leaf _ => by rw [CatalogItem.slots, CatalogItem.sites, List.map_nil]
  | .folder f => by rw [CatalogItem.slots, CatalogItem.sites, Folder.slots_eq f]

lemma Folder.slots_eq : ∀ f : Folder, f.slots = f.sites.map Site.slot
  | ⟨_, entries, _⟩ => by
    rw [Folder.slots, Folder.sites, List.map_cons, itemsSlots_eq entries]
    rfl

lemma itemsSlots_eq : ∀ is : List CatalogItem, itemsSlots is = (itemsSites is).map Site.slot
  | [] => by rw [itemsSlots, itemsSites, List.map_nil]
  | i :: rest => by
    rw [itemsSlots, itemsSites, List.map_append, CatalogItem.slots_eq i, itemsSlots_eq rest]

end

/-- The nodes of a job. -/
def Job.sites : Job → List Site
  | definition d => d.sites
  | default _ v => v.sites

lemma Job.slots_eq (job : Job) : job.slots = job.sites.map Site.slot := by
  rcases job with d | ⟨_, v⟩
  · exact d.slots_eq
  · exact v.slots_eq

/-- The nodes of stops. -/
def sitesOf (stops : List Stop) : List Site :=
  stops.filterMap Stop.site?

lemma sitesOf_append (stops stops' : List Stop) :
    sitesOf (stops ++ stops') = sitesOf stops ++ sitesOf stops' :=
  List.filterMap_append

lemma sitesOf_map_node (library : String) (sites : List Site) :
    sitesOf (sites.map (.node library)) = sites := by
  rw [sitesOf, List.filterMap_map]
  exact List.filterMap_some

lemma ExternalDefinition.jobs_sites (x : ExternalDefinition) :
    x.jobs.flatMap Job.sites = x.sites := by
  rcases x with d | d | d
  · rfl
  · obtain ⟨kind, attributes, name, id, params, returns, allocation⟩ := d
    rw [jobs, Callable.formals, sites]
    simp only
    induction params with
    | nil => rfl
    | cons q rest ih =>
      rw [List.flatMap_cons, ← ih, List.map_cons, List.filterMap_cons]
      rcases q.default with _ | v
      · rfl
      · simp [Job.sites, defaultSites]
  · rfl

/-- The nodes of a program are those of its jobs. -/
lemma Program.sitesOf_walk (p : Program) : sitesOf p.walk = p.jobs.flatMap Job.sites := by
  have hscope : ∀ sc : Scope, sitesOf sc.walk = sc.jobs.flatMap Job.sites := by
    rintro (s | s)
    · rw [Scope.walk, Scope.jobs, sitesOf, List.filterMap_flatMap, List.flatMap_assoc]
      refine List.flatMap_congr fun x _ => ?_
      exact (sitesOf_map_node _ _).trans x.jobs_sites.symm
    · rw [Scope.walk, Scope.jobs, sitesOf, List.filterMap_flatMap, List.flatMap_map]
      exact List.flatMap_congr fun d _ => sitesOf_map_node _ _
  rw [walk, sitesOf, List.filterMap_flatMap, jobs, List.flatMap_assoc]
  exact List.flatMap_congr fun sc _ => hscope sc

lemma Program.slots_eq (p : Program) : p.slots = (sitesOf p.walk).map Site.slot := by
  rw [p.sitesOf_walk, slots, List.map_flatMap]
  exact List.flatMap_congr fun job _ => job.slots_eq

/-- The nodes of a catalog are those of its entries. -/
lemma Catalog.sitesOf_walk (c : Catalog) :
    sitesOf c.walk = c.libraries.flatMap fun l => itemsSites l.items := by
  rw [walk, sitesOf, List.filterMap_flatMap]
  refine List.flatMap_congr fun l _ => ?_
  have hheadings : sitesOf l.headings = [] := by
    rw [CatalogLibrary.headings]
    split_ifs <;> rfl
  rw [CatalogLibrary.walk, ← sitesOf, sitesOf_append, hheadings, sitesOf_map_node, List.nil_append]

lemma Catalog.slots_eq (c : Catalog) : c.slots = (sitesOf c.walk).map Site.slot := by
  rw [c.sitesOf_walk, slots, List.map_flatMap]
  exact List.flatMap_congr fun l _ => itemsSlots_eq l.items

end TriggerScript
