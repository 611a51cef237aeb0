import TriggerScript.Proofs.Document.Contents

/-!
# The elements of a document

The section of a library has one element for each id that was handed out in the library, except for
the ids of blocks and the ids in imported defaults that are not used
(`Document.ids_of_sectionElements`).
-/

namespace TriggerScript

namespace Program

/-- Whether an allocation is that of a block. -/
def AllocatesBlock (p : Program) (a : Allocation) : Prop :=
  ⟨none, some a⟩ ∈ p.slots

/-- Whether an allocation stands in the default value of an imported parameter that is not used. -/
def AllocatesUnused (p : Program) (a : Allocation) : Prop :=
  ∃ formal v, .default formal v ∈ p.jobs ∧ ¬p.Uses formal v ∧ some a ∈ v.slots.map Slot.allocation

end Program

mutual

lemma CatalogItem.type_of_mem_slots : ∀ i : CatalogItem, ∀ slot ∈ i.slots, slot.type = some .category
  | .leaf _ => by
    rw [CatalogItem.slots]
    simp
  | .folder f => by
    rw [CatalogItem.slots]
    exact Folder.type_of_mem_slots f

lemma Folder.type_of_mem_slots : ∀ f : Folder, ∀ slot ∈ f.slots, slot.type = some .category
  | ⟨_, entries, _⟩ => by
    rw [Folder.slots, List.forall_mem_cons]
    exact ⟨rfl, type_of_mem_itemsSlots entries⟩

/-- Each slot of a catalog is that of a folder. -/
lemma type_of_mem_itemsSlots : ∀ is : List CatalogItem,
    ∀ slot ∈ itemsSlots is, slot.type = some .category
  | [] => by
    rw [itemsSlots]
    simp
  | i :: rest => by
    rw [itemsSlots, List.forall_mem_append]
    exact ⟨CatalogItem.type_of_mem_slots i, type_of_mem_itemsSlots rest⟩

end

/-- Which allocations are those of elements: those that have been handed out, but for those of blocks
and those in default values that are not used. -/
lemma Numbered.exists_key_iff {p : Program} {c : Catalog} {ids : Counters} (h : Numbered p c ids)
    {a : Allocation} :
    (∃ type, (∃ job, p.Lowers job ∧ ⟨some type, some a⟩ ∈ job.slots) ∨
        ⟨some type, some a⟩ ∈ c.slots) ↔
      ids.Issued a.library a.id ∧ ¬p.AllocatesBlock a ∧
        (a.library = defaultLibrary → ¬p.AllocatesUnused a) := by
  have hissued : some a ∈ (p.slots ++ c.slots).map Slot.allocation ↔ ids.Issued a.library a.id := by
    rw [h.issues.mem_iff, Counters.count_empty]
    rfl
  -- no two slots hold the same allocation
  have hunique : ∀ slot ∈ p.slots ++ c.slots, ∀ slot' ∈ p.slots ++ c.slots,
      slot.allocation = some a → slot'.allocation = some a → slot = slot' :=
    fun slot hslot slot' hslot' ha ha' =>
      List.inj_on_of_nodup_map h.nodup hslot hslot' (ha.trans ha'.symm)
  constructor
  · rintro ⟨type, ⟨job, hlowers, hslot⟩ | hslot⟩
    · have hmem : ⟨some type, some a⟩ ∈ p.slots ++ c.slots :=
        List.mem_append_left _ (List.mem_flatMap.2 ⟨job, hlowers.mem_jobs, hslot⟩)
      refine ⟨hissued.1 (List.mem_map.2 ⟨_, hmem, rfl⟩), fun hblock => ?_, fun _ hunused => ?_⟩
      · have heq := hunique _ hmem _ (List.mem_append_left _ hblock) rfl rfl
        simp at heq
      · obtain ⟨formal, v, hv, hnot, ha⟩ := hunused
        have heq := h.job_eq hlowers.mem_jobs hv (List.mem_map.2 ⟨_, hslot, rfl⟩) ha
        rw [heq] at hlowers
        exact hnot hlowers
    · have hmem : ⟨some type, some a⟩ ∈ p.slots ++ c.slots := List.mem_append_right _ hslot
      have hdisjoint := h.nodup
      rw [List.map_append, List.nodup_append] at hdisjoint
      have hnot : some a ∉ p.slots.map Slot.allocation := fun ha =>
        hdisjoint.2.2 _ ha _ (List.mem_map.2 ⟨_, hslot, rfl⟩) rfl
      refine ⟨hissued.1 (List.mem_map.2 ⟨_, hmem, rfl⟩), fun hblock => ?_, fun _ hunused => ?_⟩
      · exact hnot (List.mem_map.2 ⟨_, hblock, rfl⟩)
      · obtain ⟨formal, v, hv, -, ha⟩ := hunused
        obtain ⟨slot, hslot, ha⟩ := List.mem_map.1 ha
        exact hnot (List.mem_map.2 ⟨slot, List.mem_flatMap.2 ⟨_, hv, hslot⟩, ha⟩)
  · rintro ⟨hid, hblock, hunused⟩
    obtain ⟨⟨type?, _⟩, hslot, rfl⟩ := List.mem_map.1 (hissued.2 hid)
    rcases List.mem_append.1 hslot with hslot | hslot
    · obtain ⟨job, hjob, hslot'⟩ := List.mem_flatMap.1 hslot
      rcases type? with _ | type
      · exact (hblock hslot).elim
      refine ⟨type, .inl ⟨job, ?_, hslot'⟩⟩
      rcases h.job_cases hjob with ⟨s, hs, d, hd, rfl, -⟩ | ⟨formal, v, rfl, hwithin⟩
      · exact ⟨s, hs, hd⟩
      · by_contra hnot
        obtain ⟨b, hb, hlibrary⟩ := hwithin _ hslot'
        obtain ⟨⟩ := hb
        exact hunused hlibrary ⟨formal, v, hjob, hnot, List.mem_map.2 ⟨_, hslot', rfl⟩⟩
    · obtain ⟨l, -, hslot'⟩ := List.mem_flatMap.1 hslot
      have htype := type_of_mem_itemsSlots l.items _ hslot'
      simp only at htype
      exact ⟨.category, .inr (htype ▸ hslot)⟩

namespace Document

/-- The elements in the section of a library have pairwise different ids. They are the ids that were
handed out in the library, but for those of blocks, and in the default library but for those in the
default values of imported parameters that are not used. -/
theorem ids_of_sectionElements {p : Program} {c : Catalog} {final : Allocator} {tree : Node}
    (hallocated : Allocated p c final) (hbuild : (build p c).start.1 = .ok tree) (library : String) :
    ((tree.sectionElements library).map (·.attribute? "Id")).Nodup ∧
      ∀ text, text ∈ (tree.sectionElements library).map (·.attribute? "Id") ↔
        ∃ id : ElementId, text = some id.text ∧ final.ids.Issued library id ∧
          ¬p.AllocatesBlock ⟨library, id⟩ ∧
          (library = defaultLibrary → ¬p.AllocatesUnused ⟨library, id⟩) := by
  have h := hallocated.numbered
  obtain ⟨parts, hcontents⟩ := contents_of_build h hbuild
  have hids : (tree.sectionElements library).map (·.attribute? "Id") =
      (parts.filter (·.library = library)).map fun part => some part.id.text := by
    rw [hcontents.sections, List.map_map]
    rfl
  rw [hids]
  constructor
  · refine (hcontents.nodup.of_map.filter _).map_on ?_
    intro part hpart part' hpart' heq
    simp only [List.mem_filter, decide_eq_true_eq, Option.some.injEq] at hpart hpart' heq
    have hallocation : part.allocation = part'.allocation := by
      rw [Part.allocation, Part.allocation, hpart.2, hpart'.2, ElementId.text_injective heq]
    exact List.inj_on_of_nodup_map hcontents.nodup hpart.1 hpart'.1 hallocation
  · intro text
    have hkey : ∀ id, (∃ type, (type, (⟨library, id⟩ : Allocation)) ∈ parts.map Part.key) ↔
        final.ids.Issued library id ∧ ¬p.AllocatesBlock ⟨library, id⟩ ∧
          (library = defaultLibrary → ¬p.AllocatesUnused ⟨library, id⟩) := by
      intro id
      simp only [hcontents.mem_keys_iff h]
      exact h.exists_key_iff
    simp only [← hkey, List.mem_map, List.mem_filter, decide_eq_true_eq]
    constructor
    · rintro ⟨part, ⟨hpart, rfl⟩, rfl⟩
      exact ⟨part.id, rfl, part.type, part, hpart, rfl⟩
    · rintro ⟨id, rfl, type, part, hpart, hkey⟩
      obtain ⟨rfl, hallocation⟩ := Prod.mk.inj hkey
      obtain ⟨rfl, rfl⟩ := Allocation.mk.inj hallocation
      exact ⟨part, ⟨hpart, rfl⟩, rfl⟩

/-- Eleven of the thirteen ids that the sample has in the default library are those of elements: one is
that of a block, and one that of a default value that is not used. -/
theorem ids_of_sectionElements_sample :
    Allocated Sample.numbered.1 Sample.listed.1 Sample.listed.2 ∧
      (build Sample.numbered.1 Sample.listed.1).start.1 = .ok Sample.document ∧
      (Sample.document.sectionElements defaultLibrary).length = 11 ∧
      ((Sample.document.sectionElements defaultLibrary).map (·.attribute? "Id")).Nodup ∧
      ∀ text, text ∈ (Sample.document.sectionElements defaultLibrary).map (·.attribute? "Id") ↔
        ∃ id : ElementId, text = some id.text ∧
          Sample.listed.2.ids.Issued defaultLibrary id ∧
          ¬Sample.numbered.1.AllocatesBlock ⟨defaultLibrary, id⟩ ∧
          (defaultLibrary = defaultLibrary →
            ¬Sample.numbered.1.AllocatesUnused ⟨defaultLibrary, id⟩) :=
  ⟨Sample.allocated, Sample.build_ok, by decide +kernel,
    ids_of_sectionElements Sample.allocated Sample.build_ok defaultLibrary⟩

end Document

end TriggerScript
