import Mathlib.Tactic.Common
import TriggerScript.Proofs.Numbering

/-!
# What an allocator leaves alone

An allocator fills the slots of a tree and changes nothing else: with all slots empty again, the
tree is what it was. It fills all slots but those of imported presets, and it does not look at what
the slots held before.

The main definitions are `Program.erased` and `Catalog.erased`, which empty all slots, and
`Program.cleared`, which leaves out those of imported presets. The main result is
`Allocate.fills_slots`.
-/

namespace TriggerScript

/-! ## Empty slots -/

mutual

/-- A value with its slots empty. -/
def Value.erased : Value → Value
  | ⟨kind, _⟩ => ⟨kind.erased, none⟩

/-- What a value is, with the slots in it empty. -/
def ValueKind.erased : ValueKind → ValueKind
  | .literal l => .literal l
  | .presetMember preset member => .presetMember preset member
  | .variable name => .variable name
  | .arrayElement name indices => .arrayElement name (valuesErased indices)
  | .call c => .call c.erased
  | .block b => .block b.erased

/-- A call with its slots empty. -/
def Call.erased : Call → Call
  | ⟨callee, args, _⟩ => ⟨callee, valuesErased args, none⟩

/-- A block with its slots empty. -/
def Block.erased : Block → Block
  | ⟨locals, statements⟩ => ⟨variablesErased locals, callsErased statements⟩

/-- A variable with its slots empty. -/
def VariableDef.erased : VariableDef → VariableDef
  | ⟨attributes, ty, name, v, _⟩ => ⟨attributes, ty, name, v.erased, none⟩

/-- Values with their slots empty. -/
def valuesErased : List Value → List Value
  | [] => []
  | v :: rest => v.erased :: valuesErased rest

/-- Calls with their slots empty. -/
def callsErased : List Call → List Call
  | [] => []
  | c :: rest => c.erased :: callsErased rest

/-- Variables with their slots empty. -/
def variablesErased : List VariableDef → List VariableDef
  | [] => []
  | d :: rest => d.erased :: variablesErased rest

end

/-- A parameter with its slots empty. -/
def ParamDef.erased (d : ParamDef) : ParamDef :=
  { d with default := d.default.map Value.erased, allocation := none }

/-- A member of a preset with its slot empty. -/
def PresetMember.erased (m : PresetMember) : PresetMember :=
  { m with allocation := none }

/-- A definition with its slots empty. -/
def Definition.erased : Definition → Definition
  | .preset d => .preset { d with members := d.members.map .erased, allocation := none }
  | .variable d => .variable d.erased
  | .function d =>
    .function { d with params := d.params.map .erased, body := d.body.erased, allocation := none }
  | .trigger d =>
    .trigger { d with event := d.event.erased, body := d.body.erased, allocation := none }

/-- An imported parameter with its slots empty. -/
def ExternalParam.erased (d : ExternalParam) : ExternalParam :=
  { d with default := d.default.map Value.erased, allocation := none }

/-- A member of an imported preset with its slot empty. -/
def ExternalMember.erased (m : ExternalMember) : ExternalMember :=
  { m with allocation := none }

/-- An imported entity with its slots empty; `keep` says what becomes of the slot of a preset itself. -/
def ExternalDefinition.erased (keep : Option Allocation → Option Allocation) :
    ExternalDefinition → ExternalDefinition
  | .preset d => .preset { d with members := d.members.map .erased, allocation := keep d.allocation }
  | .function d => .function { d with params := d.params.map .erased, allocation := none }
  | .variable d => .variable { d with allocation := none }

/-- A section with its slots empty; `keep` says what becomes of the slots of imported presets. -/
def Scope.erased (keep : Option Allocation → Option Allocation) : Scope → Scope
  | .import_ s => .import_ { s with definitions := s.definitions.map (.erased keep) }
  | .library s => .library { s with definitions := s.definitions.map .erased }

namespace Program

/-- A program with all its slots empty. -/
def erased (p : Program) : Program :=
  ⟨p.scopes.map (.erased fun _ => none)⟩

/-- A program with its slots empty, except for those of imported presets. -/
def cleared (p : Program) : Program :=
  ⟨p.scopes.map (.erased id)⟩

end Program

mutual

/-- An entry of a catalog with its slots empty. -/
def CatalogItem.erased : CatalogItem → CatalogItem
  | .leaf name => .leaf name
  | .folder f => .folder f.erased

/-- A folder with its slots empty. -/
def Folder.erased : Folder → Folder
  | ⟨description, entries, _⟩ => ⟨description, itemsErased entries, none⟩

/-- Entries with their slots empty. -/
def itemsErased : List CatalogItem → List CatalogItem
  | [] => []
  | i :: rest => i.erased :: itemsErased rest

end

/-- A library of a catalog with its slots empty. -/
def CatalogLibrary.erased (l : CatalogLibrary) : CatalogLibrary :=
  { l with items := itemsErased l.items }

/-- A catalog with its slots empty. -/
def Catalog.erased (c : Catalog) : Catalog :=
  ⟨c.libraries.map .erased⟩

namespace Allocate

variable {library : String} {s s' : Allocating}

/-! ## What is filled in -/

mutual

lemma value_erased {s s' : Allocating} : ∀ (v : Value) {v' : Value}, value library v s = .ok v' s' →
    v'.erased = v.erased
  | ⟨kind, _⟩, v', h => by
    simp only [value, bind_ok_iff, pure_ok_iff] at h
    obtain ⟨a, s₁, -, kind', s₂, hkind, rfl, rfl⟩ := h
    rw [Value.erased, Value.erased, valueKind_erased kind hkind]
termination_by structural v => v

lemma valueKind_erased {s s' : Allocating} {a : Allocation} : ∀ (kind : ValueKind) {kind' : ValueKind},
    valueKind library a kind s = .ok kind' s' → kind'.erased = kind.erased
  | .literal (.text _), kind', h => by
    simp only [valueKind, bind_ok_iff, pure_ok_iff] at h
    obtain ⟨_, s₁, -, rfl, rfl⟩ := h
    rfl
  | .literal (.string _), kind', h => by
    obtain ⟨rfl, rfl⟩ := pure_ok_iff.1 h
    rfl
  | .literal (.int _), kind', h => by
    obtain ⟨rfl, rfl⟩ := pure_ok_iff.1 h
    rfl
  | .literal (.bool _), kind', h => by
    obtain ⟨rfl, rfl⟩ := pure_ok_iff.1 h
    rfl
  | .presetMember _ _, kind', h => by
    obtain ⟨rfl, rfl⟩ := pure_ok_iff.1 h
    rfl
  | .variable _, kind', h => by
    obtain ⟨rfl, rfl⟩ := pure_ok_iff.1 h
    rfl
  | .arrayElement name indices, kind', h => by
    simp only [valueKind, bind_ok_iff, pure_ok_iff] at h
    obtain ⟨indices', s₁, hindices, rfl, rfl⟩ := h
    rw [ValueKind.erased, ValueKind.erased, values_erased indices hindices]
  | .call c, kind', h => by
    simp only [valueKind, bind_ok_iff, pure_ok_iff] at h
    obtain ⟨c', s₁, hc, rfl, rfl⟩ := h
    rw [ValueKind.erased, ValueKind.erased, call_erased c hc]
  | .block b, kind', h => by
    simp only [valueKind, bind_ok_iff, pure_ok_iff] at h
    obtain ⟨b', s₁, hb, rfl, rfl⟩ := h
    rw [ValueKind.erased, ValueKind.erased, block_erased b hb]
termination_by structural kind => kind

lemma call_erased {s s' : Allocating} : ∀ (c : Call) {c' : Call}, call library c s = .ok c' s' →
    c'.erased = c.erased
  | ⟨callee, args, _⟩, c', h => by
    simp only [call, bind_ok_iff, pure_ok_iff] at h
    obtain ⟨a, s₁, -, args', s₂, hargs, rfl, rfl⟩ := h
    rw [Call.erased, Call.erased, values_erased args hargs]
termination_by structural c => c

lemma block_erased {s s' : Allocating} : ∀ (b : Block) {b' : Block}, block library b s = .ok b' s' →
    b'.erased = b.erased
  | ⟨locals, statements⟩, b', h => by
    simp only [block, bind_ok_iff, pure_ok_iff] at h
    obtain ⟨locals', s₁, hlocals, statements', s₂, hstatements, rfl, rfl⟩ := h
    rw [Block.erased, Block.erased, variableDefs_erased locals hlocals,
      calls_erased statements hstatements]
termination_by structural b => b

lemma variableDef_erased {s s' : Allocating} : ∀ (d : VariableDef) {d' : VariableDef},
    variableDef library d s = .ok d' s' → d'.erased = d.erased
  | ⟨attributes, ty, name, v, _⟩, d', h => by
    simp only [variableDef, bind_ok_iff, pure_ok_iff] at h
    obtain ⟨a, s₁, -, _, s₂, -, v', s₃, hv, rfl, rfl⟩ := h
    rw [VariableDef.erased, VariableDef.erased, value_erased v hv]
termination_by structural d => d

lemma values_erased {s s' : Allocating} : ∀ (vs : List Value) {vs' : List Value},
    values library vs s = .ok vs' s' → valuesErased vs' = valuesErased vs
  | [], vs', h => by
    obtain ⟨rfl, rfl⟩ := pure_ok_iff.1 h
    rfl
  | v :: rest, vs', h => by
    simp only [values, bind_ok_iff, pure_ok_iff] at h
    obtain ⟨v', s₁, hv, rest', s₂, hrest, rfl, rfl⟩ := h
    rw [valuesErased, valuesErased, value_erased v hv, values_erased rest hrest]
termination_by structural vs => vs

lemma calls_erased {s s' : Allocating} : ∀ (cs : List Call) {cs' : List Call},
    calls library cs s = .ok cs' s' → callsErased cs' = callsErased cs
  | [], cs', h => by
    obtain ⟨rfl, rfl⟩ := pure_ok_iff.1 h
    rfl
  | c :: rest, cs', h => by
    simp only [calls, bind_ok_iff, pure_ok_iff] at h
    obtain ⟨c', s₁, hc, rest', s₂, hrest, rfl, rfl⟩ := h
    rw [callsErased, callsErased, call_erased c hc, calls_erased rest hrest]
termination_by structural cs => cs

lemma variableDefs_erased {s s' : Allocating} : ∀ (ds : List VariableDef) {ds' : List VariableDef},
    variableDefs library ds s = .ok ds' s' → variablesErased ds' = variablesErased ds
  | [], ds', h => by
    obtain ⟨rfl, rfl⟩ := pure_ok_iff.1 h
    rfl
  | d :: rest, ds', h => by
    simp only [variableDefs, bind_ok_iff, pure_ok_iff] at h
    obtain ⟨d', s₁, hd, rest', s₂, hrest, rfl, rfl⟩ := h
    rw [variablesErased, variablesErased, variableDef_erased d hd, variableDefs_erased rest hrest]
termination_by structural ds => ds

end

lemma default_erased {v v' : Option Value} (h : default library v s = .ok v' s') :
    v'.map Value.erased = v.map Value.erased := by
  cases v with
  | none =>
    obtain ⟨rfl, rfl⟩ := pure_ok_iff.1 h
    rfl
  | some v =>
    simp only [default, bind_ok_iff, pure_ok_iff] at h
    obtain ⟨v', s₁, hv, rfl, rfl⟩ := h
    rw [Option.map_some, Option.map_some, value_erased v hv]

lemma param_erased {d d' : ParamDef} (h : param library d s = .ok d' s') : d'.erased = d.erased := by
  simp only [param, bind_ok_iff, pure_ok_iff] at h
  obtain ⟨a, s₁, -, _, s₂, -, v, s₃, hv, rfl, rfl⟩ := h
  simp only [ParamDef.erased, default_erased hv]

lemma member_erased {m m' : PresetMember} (h : member library m s = .ok m' s') :
    m'.erased = m.erased := by
  simp only [member, bind_ok_iff, pure_ok_iff] at h
  obtain ⟨a, s₁, -, _, s₂, -, rfl, rfl⟩ := h
  rfl

lemma definition_erased {d d' : Definition} (h : definition library d s = .ok d' s') :
    d'.erased = d.erased := by
  rcases d with d | d | d | d <;> simp only [definition, bind_ok_iff, pure_ok_iff] at h
  · obtain ⟨a, s₁, -, _, s₂, -, members, s₃, hmembers, rfl, rfl⟩ := h
    simp only [Definition.erased, map_eq_of_mapM_ok (fun _ _ _ _ => member_erased) hmembers]
  · obtain ⟨d', s₁, hd, rfl, rfl⟩ := h
    simp only [Definition.erased, variableDef_erased d hd]
  · obtain ⟨a, s₁, -, _, s₂, -, params, s₃, hparams, body, s₄, hbody, rfl, rfl⟩ := h
    simp only [Definition.erased, map_eq_of_mapM_ok (fun _ _ _ _ => param_erased) hparams,
      block_erased _ hbody]
  · obtain ⟨a, s₁, -, _, s₂, -, event, s₃, hevent, body, s₄, hbody, rfl, rfl⟩ := h
    simp only [Definition.erased, call_erased _ hevent, block_erased _ hbody]

lemma externalParam_erased {q q' : ExternalParam} (h : externalParam library q s = .ok q' s') :
    q'.erased = q.erased := by
  simp only [externalParam, bind_ok_iff, pure_ok_iff] at h
  obtain ⟨v, s₁, hv, rfl, rfl⟩ := h
  simp only [ExternalParam.erased, default_erased hv]

/-- The slot of an imported preset itself is left as it was, so it may be kept. -/
lemma external_erased (keep : Option Allocation → Option Allocation) {e e' : ExternalDefinition}
    (h : external library e s = .ok e' s') : e'.erased keep = e.erased keep := by
  rcases e with d | d | d
  · obtain ⟨rfl, rfl⟩ := pure_ok_iff.1 h
    simp [ExternalDefinition.erased, ExternalMember.erased]
  · simp only [external, bind_ok_iff, pure_ok_iff] at h
    obtain ⟨params, s₁, hparams, rfl, rfl⟩ := h
    simp only [ExternalDefinition.erased,
      map_eq_of_mapM_ok (fun _ _ _ _ => externalParam_erased) hparams]
  · obtain ⟨rfl, rfl⟩ := pure_ok_iff.1 h
    rfl

lemma scope_erased (keep : Option Allocation → Option Allocation) {sc sc' : Scope}
    (h : scope sc s = .ok sc' s') : sc'.erased keep = sc.erased keep := by
  rcases sc with i | l <;> simp only [scope, bind_ok_iff, pure_ok_iff] at h
  · obtain ⟨definitions, s₁, hdefinitions, rfl, rfl⟩ := h
    simp only [Scope.erased, map_eq_of_mapM_ok (fun _ _ _ _ => external_erased keep) hdefinitions]
  · obtain ⟨definitions, s₁, hdefinitions, rfl, rfl⟩ := h
    simp only [Scope.erased, map_eq_of_mapM_ok (fun _ _ _ _ => definition_erased) hdefinitions]

mutual

lemma item_erased {s s' : Allocating} : ∀ (i : CatalogItem) {i' : CatalogItem},
    item library i s = .ok i' s' → i'.erased = i.erased
  | .leaf name, i', h => by
    obtain ⟨rfl, rfl⟩ := pure_ok_iff.1 h
    rfl
  | .folder f, i', h => by
    simp only [item, bind_ok_iff, pure_ok_iff] at h
    obtain ⟨f', s₁, hf, rfl, rfl⟩ := h
    rw [CatalogItem.erased, CatalogItem.erased, folder_erased f hf]

lemma folder_erased {s s' : Allocating} : ∀ (f : Folder) {f' : Folder},
    folder library f s = .ok f' s' → f'.erased = f.erased
  | ⟨description, entries, _⟩, f', h => by
    simp only [folder, bind_ok_iff, pure_ok_iff] at h
    obtain ⟨a, s₁, -, _, s₂, -, entries', s₃, hentries, rfl, rfl⟩ := h
    rw [Folder.erased, Folder.erased, items_erased entries hentries]

lemma items_erased {s s' : Allocating} : ∀ (is : List CatalogItem) {is' : List CatalogItem},
    items library is s = .ok is' s' → itemsErased is' = itemsErased is
  | [], is', h => by
    obtain ⟨rfl, rfl⟩ := pure_ok_iff.1 h
    rfl
  | i :: rest, is', h => by
    simp only [items, bind_ok_iff, pure_ok_iff] at h
    obtain ⟨i', s₁, hi, rest', s₂, hrest, rfl, rfl⟩ := h
    rw [itemsErased, itemsErased, item_erased i hi, items_erased rest hrest]

end

lemma catalogLibrary_erased {l l' : CatalogLibrary} (h : catalogLibrary l s = .ok l' s') :
    l'.erased = l.erased := by
  obtain ⟨s₁, items', -, hitems, rfl⟩ := catalogLibrary_ok h
  simp only [CatalogLibrary.erased, items_erased _ hitems]

/-! ## What is not looked at -/

mutual

lemma value_of_erased (library : String) : ∀ v : Value, value library v.erased = value library v
  | ⟨kind, _⟩ => by
    rw [Value.erased, value, value]
    simp only [valueKind_of_erased]

lemma valueKind_of_erased (library : String) (a : Allocation) : ∀ kind : ValueKind,
    valueKind library a kind.erased = valueKind library a kind
  | .literal _ => by rw [ValueKind.erased]
  | .presetMember _ _ => by rw [ValueKind.erased]
  | .variable _ => by rw [ValueKind.erased]
  | .arrayElement _ indices => by
    rw [ValueKind.erased, valueKind, valueKind, values_of_erased library indices]
  | .call c => by rw [ValueKind.erased, valueKind, valueKind, call_of_erased library c]
  | .block b => by rw [ValueKind.erased, valueKind, valueKind, block_of_erased library b]

lemma call_of_erased (library : String) : ∀ c : Call, call library c.erased = call library c
  | ⟨_, args, _⟩ => by rw [Call.erased, call, call, values_of_erased library args]

lemma block_of_erased (library : String) : ∀ b : Block, block library b.erased = block library b
  | ⟨locals, statements⟩ => by
    rw [Block.erased, block, block, variableDefs_of_erased library locals,
      calls_of_erased library statements]

lemma variableDef_of_erased (library : String) : ∀ d : VariableDef,
    variableDef library d.erased = variableDef library d
  | ⟨_, _, _, v, _⟩ => by
    rw [VariableDef.erased, variableDef, variableDef, value_of_erased library v]

lemma values_of_erased (library : String) : ∀ vs : List Value,
    values library (valuesErased vs) = values library vs
  | [] => by rw [valuesErased]
  | v :: rest => by
    rw [valuesErased, values, values, value_of_erased library v, values_of_erased library rest]

lemma calls_of_erased (library : String) : ∀ cs : List Call,
    calls library (callsErased cs) = calls library cs
  | [] => by rw [callsErased]
  | c :: rest => by
    rw [callsErased, calls, calls, call_of_erased library c, calls_of_erased library rest]

lemma variableDefs_of_erased (library : String) : ∀ ds : List VariableDef,
    variableDefs library (variablesErased ds) = variableDefs library ds
  | [] => by rw [variablesErased]
  | d :: rest => by
    rw [variablesErased, variableDefs, variableDefs, variableDef_of_erased library d,
      variableDefs_of_erased library rest]

end

lemma default_of_erased (library : String) (v : Option Value) :
    default library (v.map Value.erased) = default library v := by
  cases v with
  | none => rfl
  | some v => rw [Option.map_some, default, default, value_of_erased]

lemma param_of_erased (library : String) (d : ParamDef) : param library d.erased = param library d := by
  simp only [param, ParamDef.erased, default_of_erased]

lemma member_of_erased (library : String) (m : PresetMember) :
    member library m.erased = member library m := by
  simp only [member, PresetMember.erased]

lemma definition_of_erased (library : String) (d : Definition) :
    definition library d.erased = definition library d := by
  have hmembers : member library ∘ PresetMember.erased = member library :=
    funext (member_of_erased library)
  have hparams : param library ∘ ParamDef.erased = param library :=
    funext (param_of_erased library)
  rcases d with d | d | d | d
  · simp only [Definition.erased, definition, List.mapM_map, hmembers]
  · simp only [Definition.erased, definition, variableDef_of_erased]
  · simp only [Definition.erased, definition, List.mapM_map, hparams, block_of_erased]
  · simp only [Definition.erased, definition, call_of_erased, block_of_erased]

lemma externalParam_of_erased (library : String) (q : ExternalParam) :
    externalParam library q.erased = externalParam library q := by
  simp only [externalParam, ExternalParam.erased, default_of_erased]

/-- The slot of an imported preset itself goes through as it is. -/
lemma external_of_erased (library : String) (e : ExternalDefinition) :
    external library (e.erased id) = external library e := by
  have hparams : externalParam library ∘ ExternalParam.erased = externalParam library :=
    funext (externalParam_of_erased library)
  rcases e with d | d | d
  · simp only [ExternalDefinition.erased, external, List.map_map, id_eq]
    rfl
  · simp only [ExternalDefinition.erased, external, List.mapM_map, hparams]
  · simp only [ExternalDefinition.erased, external]

lemma scope_of_erased (sc : Scope) : scope (sc.erased id) = scope sc := by
  cases sc with
  | import_ i =>
    have hdefinitions : external i.library ∘ ExternalDefinition.erased id = external i.library :=
      funext (external_of_erased i.library)
    simp only [Scope.erased, scope, List.mapM_map, hdefinitions]
  | library l =>
    have hdefinitions : definition l.library ∘ Definition.erased = definition l.library :=
      funext (definition_of_erased l.library)
    simp only [Scope.erased, scope, List.mapM_map, hdefinitions]

mutual

lemma item_of_erased (library : String) : ∀ i : CatalogItem, item library i.erased = item library i
  | .leaf _ => by rw [CatalogItem.erased]
  | .folder f => by rw [CatalogItem.erased, item, item, folder_of_erased library f]

lemma folder_of_erased (library : String) : ∀ f : Folder, folder library f.erased = folder library f
  | ⟨_, entries, _⟩ => by rw [Folder.erased, folder, folder, items_of_erased library entries]

lemma items_of_erased (library : String) : ∀ is : List CatalogItem,
    items library (itemsErased is) = items library is
  | [] => by rw [itemsErased]
  | i :: rest => by
    rw [itemsErased, items, items, item_of_erased library i, items_of_erased library rest]

end

lemma catalogLibrary_of_erased (l : CatalogLibrary) :
    catalogLibrary l.erased = catalogLibrary l := by
  simp only [catalogLibrary, CatalogLibrary.erased, items_of_erased]

/-! ## Whole trees -/

lemma program_erased {p p' : Program} (h : program p s = .ok p' s') :
    p'.erased = p.erased ∧ p'.cleared = p.cleared := by
  simp only [program, scopes, bind_ok_iff, pure_ok_iff] at h
  obtain ⟨_, _, -, _, _, ⟨scopes', _, hscopes, rfl, -⟩, _, _, -, rfl, -⟩ := h
  simp only [Program.erased, Program.cleared,
    map_eq_of_mapM_ok (fun _ _ _ _ => scope_erased _) hscopes, and_self]

lemma program_of_cleared (p : Program) : program p.cleared = program p := by
  have hscopes : scope ∘ Scope.erased id = scope := funext scope_of_erased
  simp only [program, scopes, Program.cleared, List.mapM_map, hscopes]

lemma catalog_erased {c c' : Catalog} (h : catalog c s = .ok c' s') : c'.erased = c.erased := by
  simp only [catalog, libraries, bind_ok_iff, pure_ok_iff] at h
  obtain ⟨_, _, -, _, _, ⟨libraries', _, hlibraries, rfl, -⟩, _, _, -, rfl, -⟩ := h
  simp only [Catalog.erased, map_eq_of_mapM_ok (fun _ _ _ _ => catalogLibrary_erased) hlibraries]

lemma catalog_of_erased (c : Catalog) : catalog c.erased = catalog c := by
  have hlibraries : catalogLibrary ∘ CatalogLibrary.erased = catalogLibrary :=
    funext catalogLibrary_of_erased
  simp only [catalog, libraries, Catalog.erased, List.mapM_map, hlibraries]

end Allocate

/-- An allocator fills slots and does nothing else, whatever it has handed out before. Let it number
a program. With all slots empty, the program is what it was. All its own nodes have allocations, and
what it imports is bound to the ids that it gives, in the library that it is imported from. Only the
slots of imported presets are left as they were: what the other slots held before makes no
difference to the run. Let it number a catalog. With all slots empty, the catalog is what it was,
all folders have allocations, and what their slots held before makes no difference. -/
theorem Allocate.fills_slots (a : Allocator) :
    (∀ {p p' : Program} {a' : Allocator}, (a.run (program p)).start.1 = .ok (p', a') →
      p'.erased = p.erased ∧ Full p'.slots ∧
        (∀ s ∈ p'.imports, ∀ x ∈ s.definitions, x.BoundTo s.library) ∧
        p'.cleared = p.cleared ∧ a.run (program p.cleared) = a.run (program p)) ∧
      ∀ {c c' : Catalog} {a' : Allocator}, (a.run (catalog c)).start.1 = .ok (c', a') →
        c'.erased = c.erased ∧ Full c'.slots ∧ a.run (catalog c.erased) = a.run (catalog c) := by
  refine ⟨fun {p p' a'} h => ?_, fun {c c' a'} h => ?_⟩
  · obtain ⟨s, hs, -⟩ := Allocator.run_start_ok h
    obtain ⟨hissues, hfilled⟩ := program_ok hs
    obtain ⟨herased, hcleared⟩ := program_erased hs
    have hbound : ∀ s ∈ p'.imports, ∀ x ∈ s.definitions, x.BoundTo s.library :=
      fun s hs x hx => (hfilled _ (Program.mem_imports.1 hs) x hx).1
    exact ⟨herased, hissues.full, hbound, hcleared, by rw [program_of_cleared]⟩
  · obtain ⟨s, hs, -⟩ := Allocator.run_start_ok h
    obtain ⟨hissues, -⟩ := catalog_ok hs
    exact ⟨catalog_erased hs, hissues.full, by rw [catalog_of_erased]⟩

namespace Sample

/-- What an allocator left behind that has numbered something before. -/
def resumed : Allocator where
  ids := ⟨[("0", 0x10000002), ("Tools", 0x10000010)], by decide⟩

/-- An allocation of some other run. -/
def old : Option Allocation :=
  some ⟨"Old", ⟨7⟩⟩

/-- A program with old allocations in its slots. -/
def stale : Program where
  scopes :=
    [.import_ ⟨"Base",
        [.preset ⟨[], "Pace", [⟨"slow", ⟨3⟩, old⟩], old⟩,
          .function ⟨.action, [], "Say", ⟨1⟩,
            [⟨[], "what", ⟨"text", []⟩, ⟨2⟩, some ⟨.literal (.text "hello"), old⟩, none⟩], .void, old⟩]⟩,
      .library ⟨"Tools",
        [.function ⟨.action, [], "Greet", "Greet", [⟨[], "name", ⟨"text", []⟩, none, old⟩], .void,
          ⟨[], [⟨"Say", [⟨.variable "name", old⟩], none⟩]⟩, old⟩]⟩]

/-- A catalog with an old allocation in a slot. -/
def staleListing : Catalog :=
  ⟨[⟨"Tools", "First", [.folder ⟨"Actions", [.leaf "Greet"], old⟩]⟩]⟩

/-- The program with its slots filled again. -/
def refilled : Program × Allocator :=
  (resumed.run (Allocate.program stale)).start.1.toOption.get (by decide +kernel)

/-- The catalog with its slots filled again. -/
def relisted : Catalog × Allocator :=
  (resumed.run (Allocate.catalog staleListing)).start.1.toOption.get (by decide +kernel)

lemma refilled_ok :
    (resumed.run (Allocate.program stale)).start.1 = .ok (refilled.1, refilled.2) := by
  rw [Prod.eta]
  exact eq_ok_get _

lemma relisted_ok :
    (resumed.run (Allocate.catalog staleListing)).start.1 = .ok (relisted.1, relisted.2) := by
  rw [Prod.eta]
  exact eq_ok_get _

end Sample

/-- Of the old allocations in a program and a catalog, only that of the imported preset is left. -/
theorem Allocate.fills_slots_sample :
    Sample.refilled.1.erased = Sample.stale.erased ∧ Full Sample.refilled.1.slots ∧
      (∀ s ∈ Sample.refilled.1.imports, ∀ x ∈ s.definitions, x.BoundTo s.library) ∧
      Sample.refilled.1.cleared = Sample.stale.cleared ∧
      Sample.refilled.1.slots.map Slot.allocation =
        [some ⟨"0", ⟨0x10000003⟩⟩, some ⟨"Tools", ⟨0x10000011⟩⟩, some ⟨"Tools", ⟨0x10000012⟩⟩,
          some ⟨"Tools", ⟨0x10000013⟩⟩, some ⟨"Tools", ⟨0x10000014⟩⟩] ∧
      Sample.relisted.1.erased = Sample.staleListing.erased ∧ Full Sample.relisted.1.slots := by
  obtain ⟨hprogram, hcatalog⟩ := fills_slots Sample.resumed
  obtain ⟨herased, hfull, hbound, hcleared, -⟩ := hprogram Sample.refilled_ok
  obtain ⟨herased', hfull', -⟩ := hcatalog Sample.relisted_ok
  exact ⟨herased, hfull, hbound, hcleared, by decide +kernel, herased', hfull'⟩

end TriggerScript
