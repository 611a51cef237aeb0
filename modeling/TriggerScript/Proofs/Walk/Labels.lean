import TriggerScript.Proofs.Walk

/-!
# Nodes with labels

A node on the walk over a program or a catalog is a value or a call, or it is shown with a name or a
description (`kind_of_mem_walk`). The type of its element tells which.
-/

namespace TriggerScript

/-- The types of elements that are shown with a name or a description. -/
def labelledTypes : List ElementType :=
  [.trigger, .functionDef, .variable, .paramDef, .preset, .presetValue, .category]

/-- A node is a value or a call, or it has a label. -/
inductive Site.Kind : Site → Prop
  | value (kind : ValueKind) (a : Option Allocation) : Kind (kind.site a)
  | call (a : Option Allocation) : Kind { type := some .functionCall, allocation := a }
  | labelled (type : ElementType) (htype : type ∈ labelledTypes) (a : Option Allocation)
      (text : String) : Kind { type := some type, allocation := a, label := some text }

mutual

lemma Value.kind_of_mem_sites : ∀ v : Value, ∀ site ∈ v.sites, site.Kind
  | ⟨kind, a⟩ => by
    rw [Value.sites, List.forall_mem_cons]
    exact ⟨.value kind a, ValueKind.kind_of_mem_sites kind⟩

lemma ValueKind.kind_of_mem_sites : ∀ kind : ValueKind, ∀ site ∈ kind.sites, site.Kind
  | .literal _ => by
    rw [ValueKind.sites]
    exact List.forall_mem_nil _
  | .presetMember _ _ => by
    rw [ValueKind.sites]
    exact List.forall_mem_nil _
  | .variable _ => by
    rw [ValueKind.sites]
    exact List.forall_mem_nil _
  | .arrayElement _ indices => by
    rw [ValueKind.sites]
    exact kind_of_mem_valuesSites indices
  | .call c => by
    rw [ValueKind.sites]
    exact Call.kind_of_mem_sites c
  | .block b => by
    rw [ValueKind.sites]
    exact Block.kind_of_mem_sites b

lemma Call.kind_of_mem_sites : ∀ c : Call, ∀ site ∈ c.sites, site.Kind
  | ⟨_, args, a⟩ => by
    rw [Call.sites, List.forall_mem_cons]
    exact ⟨.call a, kind_of_mem_valuesSites args⟩

lemma Block.kind_of_mem_sites : ∀ b : Block, ∀ site ∈ b.sites, site.Kind
  | ⟨locals, statements⟩ => by
    rw [Block.sites, List.forall_mem_append]
    exact ⟨kind_of_mem_variablesSites locals, kind_of_mem_callsSites statements⟩

lemma VariableDef.kind_of_mem_sites : ∀ d : VariableDef, ∀ site ∈ d.sites, site.Kind
  | ⟨_, _, name, v, a⟩ => by
    rw [VariableDef.sites, List.forall_mem_cons]
    exact ⟨.labelled .variable (by decide) a name, Value.kind_of_mem_sites v⟩

lemma kind_of_mem_valuesSites : ∀ vs : List Value, ∀ site ∈ valuesSites vs, site.Kind
  | [] => by
    rw [valuesSites]
    exact List.forall_mem_nil _
  | v :: rest => by
    rw [valuesSites, List.forall_mem_append]
    exact ⟨Value.kind_of_mem_sites v, kind_of_mem_valuesSites rest⟩

lemma kind_of_mem_callsSites : ∀ cs : List Call, ∀ site ∈ callsSites cs, site.Kind
  | [] => by
    rw [callsSites]
    exact List.forall_mem_nil _
  | c :: rest => by
    rw [callsSites, List.forall_mem_append]
    exact ⟨Call.kind_of_mem_sites c, kind_of_mem_callsSites rest⟩

lemma kind_of_mem_variablesSites : ∀ ds : List VariableDef, ∀ site ∈ variablesSites ds, site.Kind
  | [] => by
    rw [variablesSites]
    exact List.forall_mem_nil _
  | d :: rest => by
    rw [variablesSites, List.forall_mem_append]
    exact ⟨VariableDef.kind_of_mem_sites d, kind_of_mem_variablesSites rest⟩

end

mutual

lemma CatalogItem.kind_of_mem_sites : ∀ i : CatalogItem, ∀ site ∈ i.sites, site.Kind
  | .leaf _ => by
    rw [CatalogItem.sites]
    exact List.forall_mem_nil _
  | .folder f => by
    rw [CatalogItem.sites]
    exact Folder.kind_of_mem_sites f

lemma Folder.kind_of_mem_sites : ∀ f : Folder, ∀ site ∈ f.sites, site.Kind
  | ⟨description, entries, a⟩ => by
    rw [Folder.sites, List.forall_mem_cons]
    exact ⟨.labelled .category (by decide) a description, kind_of_mem_itemsSites entries⟩

lemma kind_of_mem_itemsSites : ∀ is : List CatalogItem, ∀ site ∈ itemsSites is, site.Kind
  | [] => by
    rw [itemsSites]
    exact List.forall_mem_nil _
  | i :: rest => by
    rw [itemsSites, List.forall_mem_append]
    exact ⟨CatalogItem.kind_of_mem_sites i, kind_of_mem_itemsSites rest⟩

end

lemma Definition.kind_of_mem_sites (d : Definition) : ∀ site ∈ d.sites, site.Kind := by
  have hparam : ∀ q : ParamDef, ∀ site ∈ q.sites, site.Kind := by
    intro q
    rw [ParamDef.sites, List.forall_mem_cons]
    refine ⟨.labelled .paramDef (by decide) _ _, fun site hsite => ?_⟩
    obtain ⟨v, -, hsite⟩ := List.mem_flatMap.1 hsite
    exact v.kind_of_mem_sites site hsite
  rcases d with d | d | d | d
  · rw [sites, List.forall_mem_cons, List.forall_mem_map]
    exact ⟨.labelled .preset (by decide) _ _, fun m _ => .labelled .presetValue (by decide) _ _⟩
  · exact d.kind_of_mem_sites
  · rw [sites, List.forall_mem_cons, List.forall_mem_append]
    refine ⟨.labelled .functionDef (by decide) _ _, fun site hsite => ?_, d.body.kind_of_mem_sites⟩
    obtain ⟨q, -, hsite⟩ := List.mem_flatMap.1 hsite
    exact hparam q site hsite
  · rw [sites, List.forall_mem_cons, List.forall_mem_append]
    exact ⟨.labelled .trigger (by decide) _ _, d.event.kind_of_mem_sites, d.body.kind_of_mem_sites⟩

/-- Each node on the walk over a program and a catalog is a value or a call, or it has a label. -/
lemma kind_of_mem_walk {p : Program} {c : Catalog} :
    ∀ site ∈ sitesOf (p.walk ++ c.walk), site.Kind := by
  rw [sitesOf_append, List.forall_mem_append, p.sitesOf_walk, c.sitesOf_walk]
  constructor
  · intro site hsite
    obtain ⟨d | ⟨formal, v⟩, -, hsite⟩ := List.mem_flatMap.1 hsite
    · exact d.kind_of_mem_sites site hsite
    · exact v.kind_of_mem_sites site hsite
  · intro site hsite
    obtain ⟨l, -, hsite⟩ := List.mem_flatMap.1 hsite
    exact kind_of_mem_itemsSites l.items site hsite

/-- The node of an element with a label has the label. -/
lemma Site.Kind.exists_label {site : Site} (h : site.Kind) {type : ElementType}
    (htype : type ∈ labelledTypes) (hsite : site.type = some type) : ∃ text, site.label = some text := by
  cases h with
  | value kind a =>
    have hparam : kind.elementType? = some type := hsite
    rcases kind with l | ⟨preset, member⟩ | name | ⟨name, indices⟩ | c | b
    iterate 5
      obtain rfl := Option.some.inj hparam
      exact absurd htype (by decide)
    cases hparam
  | call a =>
    obtain rfl := Option.some.inj hsite
    exact absurd htype (by decide)
  | labelled type' htype' a text => exact ⟨text, rfl⟩

/-- Only a node with a type of the list has a label. -/
lemma Site.Kind.type_of_label {site : Site} (h : site.Kind) {text : String}
    (hlabel : site.label = some text) : ∃ type ∈ labelledTypes, site.type = some type := by
  cases h with
  | value kind a => cases hlabel
  | call a => cases hlabel
  | labelled type htype a text => exact ⟨type, htype, rfl⟩

/-- A literal is a value. -/
lemma Site.Kind.type_of_literal {site : Site} (h : site.Kind) {text : String}
    (hliteral : site.literal = some text) : site.type = some .param := by
  cases h with
  | value kind a =>
    rcases kind with l | ⟨preset, member⟩ | name | ⟨name, indices⟩ | c | b
    iterate 5 exact rfl
    cases hliteral
  | call a => cases hliteral
  | labelled type htype a text => cases hliteral

end TriggerScript
