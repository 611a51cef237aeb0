import TriggerScript.Proofs.Document.Nodes

/-!
# The references of a document

Every reference of a document leads to an element of the document, or it names the id that the program
gives to something that it imports (`Document.references_resolve`).

Which targets there are is settled first. That the references in plans have targets then says it of the
document.
-/

namespace TriggerScript

/-! ## Targets of references -/

/-- What an imported entity binds, and to which id. -/
def ExternalDefinition.Binds : ExternalDefinition → ElementType → ElementId → Prop
  | .preset d, type, id => type = .presetValue ∧ ∃ m ∈ d.members, m.id = id
  | .function d, type, id =>
    type = .functionDef ∧ d.id = id ∨ type = .paramDef ∧ ∃ q ∈ d.params, q.id = id
  | .variable d, type, id => type = .variable ∧ d.id = id

/-- Whether a program imports something of this type under this allocation. -/
def Program.Imports (p : Program) (type : ElementType) (a : Allocation) : Prop :=
  ∃ s ∈ p.imports, s.library = a.library ∧ ∃ x ∈ s.definitions, x.Binds type a.id

namespace Node

/-- The library that a reference names, which is the default one if it names none. -/
def referredLibrary (n : Node) : String :=
  (n.attribute? "Library").getD defaultLibrary

/-- If a node is a reference then it has a target. -/
def Resolved (Target : ElementType → Allocation → Prop) (n : Node) : Prop :=
  ∀ type id, n.attribute? "Type" = some type → n.attribute? "Id" = some id →
    ∃ (t : ElementType) (a : Allocation),
      type = t.name ∧ id = a.id.text ∧ n.referredLibrary = a.library ∧ Target t a

variable {Target : ElementType → Allocation → Prop}

/-- An inner node that is a reference has a target. -/
lemma Inner.resolved {n : Node} (h : n.Inner Target) : n.Resolved Target := by
  intro type id htype hid
  obtain ⟨t, a, ht, htype', rfl, hlibrary⟩ := h.exists_target hid
  obtain rfl := Option.some.inj (htype.symm.trans htype')
  refine ⟨t, a, rfl, rfl, ?_, ht⟩
  rw [referredLibrary, hlibrary]
  by_cases h : a.library = defaultLibrary <;> simp [h]

end Node

/-! ## Documents -/

namespace Document

/-- What references of a document with these elements lead to: elements, and what is imported. -/
def Target (p : Program) (parts : List Part) (type : ElementType) (a : Allocation) : Prop :=
  (type, a) ∈ parts.map Part.key ∨ p.Imports type a

namespace Contents

variable {p : Program} {c : Catalog} {ids : Counters} {tree : Node} {parts : List Part}

lemma slotsResolve (hcontents : Contents p c tree parts) (h : Numbered p c ids) {job : Job}
    (hjob : p.Lowers job) : SlotsResolve (Target p parts) job.slots :=
  fun _ _ hslot => .inl ((hcontents.mem_keys_iff h).2 (.inl ⟨job, hjob, hslot⟩))

/-- What the program declares is made or imported. -/
lemma declares (hcontents : Contents p c tree parts) (h : Numbered p c ids) :
    p.Declares (Target p parts) where
  imports s hs x hx type a hslot := by
    have hbound := h.boundTo hs hx
    rcases x with x | x | x
    · obtain ⟨m, hm, hslot⟩ := List.mem_map.1 hslot
      simp only [Slot.mk.injEq, Option.some.injEq] at hslot
      obtain ⟨rfl, ha⟩ := hslot
      obtain rfl : _ = a := Option.some.inj ((hbound m hm).symm.trans ha)
      exact .inr ⟨s, hs, rfl, _, hx, rfl, m, hm, rfl⟩
    · rcases List.mem_cons.1 hslot with hslot | hslot
      · simp only [Slot.mk.injEq, Option.some.injEq] at hslot
        obtain ⟨rfl, ha⟩ := hslot
        obtain rfl : _ = a := Option.some.inj (hbound.1.symm.trans ha.symm)
        exact .inr ⟨s, hs, rfl, _, hx, .inl ⟨rfl, rfl⟩⟩
      · obtain ⟨q, hq, hslot⟩ := List.mem_map.1 hslot
        simp only [Slot.mk.injEq, Option.some.injEq] at hslot
        obtain ⟨rfl, ha⟩ := hslot
        obtain rfl : _ = a := Option.some.inj ((hbound.2 q hq).symm.trans ha)
        exact .inr ⟨s, hs, rfl, _, hx, .inr ⟨rfl, q, hq, rfl⟩⟩
    · have hslot := List.mem_singleton.1 hslot
      simp only [Slot.mk.injEq, Option.some.injEq] at hslot
      obtain ⟨rfl, ha⟩ := hslot
      obtain rfl : _ = a := Option.some.inj (Eq.trans (Eq.symm hbound) ha.symm)
      exact .inr ⟨s, hs, rfl, _, hx, rfl, rfl⟩
  definitions s hs d hd :=
    hcontents.slotsResolve h (show p.Lowers (.definition d) from ⟨s, hs, hd⟩)

lemma catalog_slotsResolve (hcontents : Contents p c tree parts) (h : Numbered p c ids) :
    SlotsResolve (Target p parts) c.slots :=
  fun _ _ hslot => .inl ((hcontents.mem_keys_iff h).2 (.inr hslot))

lemma job_resolves (hcontents : Contents p c tree parts) (h : Numbered p c ids) {job : Job}
    (hjob : p.Lowers job) : PlanResolves (Target p parts) (job.plan p) := by
  refine job.plan_resolves (hcontents.declares h).resolves hjob (hcontents.wellFormed job hjob)
    (hcontents.slotsResolve h hjob) ?_
  intro c' hc' formal v a homits ha
  -- what a call leaves out is made in the default library, whatever library the call is in
  have hlowers : p.Lowers (.default formal v) := hjob.omits hc' homits
  exact Value.target_of_slots (hcontents.wellFormed _ hlowers) (hcontents.slotsResolve h hlowers) ha

/-- The references in elements. -/
lemma every_part (hcontents : Contents p c tree parts) (h : Numbered p c ids) {part : Part}
    (hpart : part ∈ parts) : ∀ n ∈ part.children, n.Every (Node.Resolved (Target p parts)) := by
  have hinner : ∀ n ∈ part.children, n.Every (Node.Inner (Target p parts)) := by
    rcases (hcontents.mem_parts part).1 hpart with hpart | ⟨job, hjob, hpart⟩
    · exact wholePlan_resolves (hcontents.declares h) (hcontents.catalog_slotsResolve h) part hpart
    · exact hcontents.job_resolves h hjob part hpart
  exact fun n hn => (hinner n hn).imp fun _ hn => hn.resolved

/-- The references in roots. -/
lemma every_item (hcontents : Contents p c tree parts) (h : Numbered p c ids) {item : String × Node}
    (hitem : item ∈ wholeItems p c) : item.2.Every (Node.Resolved (Target p parts)) :=
  (every_wholeItems (hcontents.declares h) (hcontents.catalog_slotsResolve h) item hitem).imp
    fun _ hn => hn.resolved

end Contents

/-- There are no dangling references: a node that is no element and has a type and an id leads to the
element of this type and id in the section of the library that it names, or the program imports
something of this type from that library and binds it to this id. -/
theorem references_resolve {p : Program} {c : Catalog} {final : Allocator} {tree : Node}
    (hallocated : Allocated p c final) (hbuild : (build p c).start.1 = .ok tree) :
    ∀ n ∈ tree.descendants, n.tag ≠ "Element" → ∀ type id, n.attribute? "Type" = some type →
      n.attribute? "Id" = some id →
      (∃ e ∈ tree.sectionElements n.referredLibrary,
          e.attribute? "Type" = some type ∧ e.attribute? "Id" = some id) ∨
        ∃ (t : ElementType) (i : ElementId),
          type = t.name ∧ id = i.text ∧ p.Imports t ⟨n.referredLibrary, i⟩ := by
  have h := hallocated.numbered
  obtain ⟨parts, hcontents⟩ := contents_of_build h hbuild
  -- elements have a type and an id too, but refer to nothing
  have hresolved : ∀ n ∈ tree.descendants,
      n.tag ≠ "Element" → n.Resolved (Target p parts) := by
    refine hcontents.nodes _ ?_ ?_ ?_ ?_
    · intro q _ type id htype
      cases htype
    · intro q _ type id htype
      cases htype
    · intro part hpart
      refine ⟨fun htag => (htag rfl).elim, fun n hn => ?_⟩
      exact (hcontents.every_part h hpart n hn).imp fun _ hn _ => hn
    · intro item hitem
      exact (hcontents.every_item h hitem).imp fun _ hn _ => hn
  intro n hn htag type id htype hid
  obtain ⟨t, a, rfl, rfl, hlibrary, htarget⟩ := hresolved n hn htag type id htype hid
  rw [hlibrary]
  rcases htarget with hkey | himports
  · obtain ⟨part, hpart, hkey⟩ := List.mem_map.1 hkey
    obtain ⟨rfl, rfl⟩ := Prod.mk.inj hkey
    refine .inl ⟨part.node, ?_, rfl, rfl⟩
    rw [hcontents.sections]
    exact List.mem_map.2 ⟨part, List.mem_filter.2 ⟨hpart, by simp [Part.allocation]⟩, rfl⟩
  · exact .inr ⟨t, a.id, rfl, rfl, himports⟩

/-- The sample refers to a default value that is made in the default library. -/
theorem references_resolve_sample :
    Allocated Sample.numbered.1 Sample.listed.1 Sample.listed.2 ∧
      (build Sample.numbered.1 Sample.listed.1).start.1 = .ok Sample.document ∧
      ∃ n ∈ Sample.document.descendants, n.tag = "Default" ∧ n.referredLibrary = defaultLibrary ∧
        ((∃ e ∈ Sample.document.sectionElements n.referredLibrary,
            e.attribute? "Type" = some "Param" ∧ e.attribute? "Id" = some "10000001") ∨
          ∃ (t : ElementType) (i : ElementId), "Param" = t.name ∧ "10000001" = i.text ∧
            Sample.numbered.1.Imports t ⟨n.referredLibrary, i⟩) := by
  obtain ⟨n, hn, htag, hlibrary, htype, hid⟩ : ∃ n ∈ Sample.document.descendants, n.tag = "Default" ∧
      n.referredLibrary = defaultLibrary ∧ n.attribute? "Type" = some "Param" ∧
      n.attribute? "Id" = some "10000001" := by decide +kernel
  exact ⟨Sample.allocated, Sample.build_ok, n, hn, htag, hlibrary,
    references_resolve Sample.allocated Sample.build_ok n hn (by rw [htag]; decide) "Param"
      "10000001" htype hid⟩

end Document

end TriggerScript
