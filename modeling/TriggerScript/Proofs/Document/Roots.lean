import TriggerScript.Proofs.Document.Representation
import TriggerScript.Proofs.Document.Shape

/-!
# What the roots of a document refer to

The root of a library refers to what the catalog lists under the library, entry by entry, and then
to the definitions of the library that the catalog lists nowhere, in the order of the program. The
element of a folder refers to its entries in order.

A definition is begun by its turn in the program or by a name in the catalog, and by nothing else
(`Numbered.definition_begun_iff`). So the definitions that have been begun when the catalog is done are
those that it lists. The main result is `Document.roots_follow_catalog`.
-/

namespace TriggerScript

/-! ## References to entries -/

/-- The reference to a definition. -/
def Definition.item? (d : Definition) : Option Node :=
  d.allocation.map (.referring "Item" d.type)

/-- The reference to what is listed. An imported preset cannot be referred to. -/
def Entry.item? : Entry → Option Node
  | .trigger d => d.allocation.map (.referring "Item" .trigger)
  | .callable f => f.allocation.map (.referring "Item" .functionDef)
  | .preset (.library d) => d.allocation.map (.referring "Item" .preset)
  | .preset (.external _) => none
  | .global g => g.allocation.map (.referring "Item" .variable)

/-- The reference to an entry of a catalog: to what its name means, or to the element of a folder. -/
def CatalogItem.item? (p : Program) : CatalogItem → Option Node
  | .leaf name => (p.listed? name).bind Entry.item?
  | .folder f => f.allocation.map (.referring "Item" .category)

/-- A folder stands among entries or in a folder among them, at any depth. -/
inductive FolderIn : List CatalogItem → Folder → Prop
  | here {is : List CatalogItem} {f : Folder} (hf : .folder f ∈ is) : FolderIn is f
  | inside {is : List CatalogItem} {f g : Folder} (hg : .folder g ∈ is) (hf : FolderIn g.items f) :
      FolderIn is f

/-- A name in a catalog means the definition. -/
def Catalog.Mentions (c : Catalog) (p : Program) (d : Definition) : Prop :=
  ∃ name ∈ c.leaves, p.listed? name = some (.ofDefinition d)

lemma slotNodes_eq_toList (type : ElementType) (slot : Option Allocation) :
    slotNodes "Item" type slot = (slot.map (.referring "Item" type)).toList := by
  cases slot <;> rfl

lemma CatalogItem.nodes_eq_toList (p : Program) (i : CatalogItem) : i.nodes p = (i.item? p).toList := by
  rcases i with name | f
  · rw [nodes, item?]
    rcases p.listed? name with _ | e
    · rfl
    · rcases e with d | f | (d | d) | g
      · exact slotNodes_eq_toList _ _
      · exact slotNodes_eq_toList _ _
      · exact slotNodes_eq_toList _ _
      · rfl
      · exact slotNodes_eq_toList _ _
  · exact slotNodes_eq_toList _ _

lemma itemsNodes_eq_filterMap (p : Program) (is : List CatalogItem) :
    itemsNodes p is = is.filterMap (CatalogItem.item? p) := by
  rw [itemsNodes, List.filterMap_eq_flatMap_toList]
  exact List.flatMap_congr fun i _ => i.nodes_eq_toList p

/-- If all things have references then there is one for each, in order. -/
lemma map_some_filterMap {α β : Type} {f : α → Option β} {xs : List α}
    (h : ∀ x ∈ xs, (f x).isSome) : (xs.filterMap f).map some = xs.map f := by
  rw [List.map_filterMap_some_eq_filter_map_isSome, List.filter_eq_self]
  intro o ho
  obtain ⟨x, hx, rfl⟩ := List.mem_map.1 ho
  exact h x hx

/-! ## Entries of folders -/

/-- What is put together entry by entry. -/
lemma eq_flatMap_of_cons {α : Type} {all : List CatalogItem → List α} {own : CatalogItem → List α}
    (hnil : all [] = []) (hcons : ∀ i rest, all (i :: rest) = own i ++ all rest)
    (is : List CatalogItem) : all is = is.flatMap own := by
  induction is with
  | nil => rw [hnil, List.flatMap_nil]
  | cons i rest ih => rw [hcons, ih, List.flatMap_cons]

lemma itemsLeaves_eq_flatMap (is : List CatalogItem) :
    itemsLeaves is = is.flatMap CatalogItem.leaves :=
  eq_flatMap_of_cons (by rw [itemsLeaves]) (fun i rest => by rw [itemsLeaves]) is

lemma itemsSlots_eq_flatMap (is : List CatalogItem) :
    itemsSlots is = is.flatMap CatalogItem.slots :=
  eq_flatMap_of_cons (by rw [itemsSlots]) (fun i rest => by rw [itemsSlots]) is

lemma itemsPlan_eq_flatMap (p : Program) (is : List CatalogItem) :
    itemsPlan p is = is.flatMap (CatalogItem.plan p) :=
  eq_flatMap_of_cons (by rw [itemsPlan]) (fun i rest => by rw [itemsPlan]) is

namespace FolderIn

variable {is : List CatalogItem} {f : Folder}

/-- What entries have of their folders, and folders of their entries, they have at any depth. -/
lemma subset {α : Type} {own : Folder → List α} {all : List CatalogItem → List α}
    (hall : ∀ is f, .folder f ∈ is → own f ⊆ all is) (hown : ∀ f : Folder, all f.items ⊆ own f)
    (h : FolderIn is f) : own f ⊆ all is := by
  induction h with
  | here hf => exact hall _ _ hf
  | inside hg _ ih => exact fun x hx => hall _ _ hg (hown _ (ih hx))

lemma leaves_subset (h : FolderIn is f) : f.leaves ⊆ itemsLeaves is := by
  refine h.subset (fun is g hg name hname => ?_) (fun g => ?_)
  · rw [itemsLeaves_eq_flatMap]
    refine List.mem_flatMap.2 ⟨_, hg, ?_⟩
    rwa [CatalogItem.leaves]
  · obtain ⟨description, items, allocation⟩ := g
    rw [Folder.leaves]
    exact List.Subset.refl _

lemma slots_subset (h : FolderIn is f) : f.slots ⊆ itemsSlots is := by
  refine h.subset (fun is g hg slot hslot => ?_) (fun g => ?_)
  · rw [itemsSlots_eq_flatMap]
    refine List.mem_flatMap.2 ⟨_, hg, ?_⟩
    rwa [CatalogItem.slots]
  · obtain ⟨description, items, allocation⟩ := g
    rw [Folder.slots]
    exact List.subset_cons_self _ _

lemma plan_subset (p : Program) (h : FolderIn is f) : f.plan p ⊆ itemsPlan p is := by
  refine h.subset (fun is g hg step hstep => ?_) (fun g => ?_)
  · rw [itemsPlan_eq_flatMap]
    refine List.mem_flatMap.2 ⟨_, hg, ?_⟩
    rwa [CatalogItem.plan]
  · obtain ⟨description, items, allocation⟩ := g
    rw [Folder.plan]
    exact List.subset_append_right _ _

end FolderIn

/-! ## Which definitions have been begun -/

lemma Entry.definition_mem_jobs_iff {e : Entry} {d : Definition} :
    .definition d ∈ e.jobs ↔ e = .ofDefinition d := by
  rcases e with e | (e | e) | (e | e) | (e | e) <;> rcases d with d | d | d | d <;>
    simp [jobs, ofDefinition, eq_comm]

namespace Numbered

variable {p : Program} {c : Catalog} {ids : Counters}

/-- When a plan has been followed, a definition has been begun that had been begun before or that the
plan asks for. No job asks for a definition. -/
lemma definition_begun_iff (h : Numbered p c ids) {done done' : List Allocation}
    {plan : List PlanStep} {parts : List Part} (hmakes : Makes p done plan parts done')
    (hplan : ∀ job, .job job ∈ plan → p.Lowers job) {d : Definition}
    (hd : p.Lowers (.definition d)) {a : Allocation} (ha : d.allocation = some a) :
    a ∈ done' ↔ a ∈ done ∨ .job (.definition d) ∈ plan := by
  obtain ⟨jobs, hout⟩ := hmakes.outcome
  constructor
  · intro hmem
    rcases (hout.mem_done a).1 hmem with hmem | hmem
    · exact .inl hmem
    obtain ⟨job, hjob, hja⟩ := List.mem_map.1 hmem
    have hasked := hout.asked (fun j => p.Lowers j ∧ ∀ e, j = .definition e → .job j ∈ plan)
      (fun j hj => ⟨hplan j hj, fun _ _ => hj⟩) (fun j j' hj hwf hj' => by
        obtain ⟨c', hc', formal, v, homits, rfl⟩ := (Job.job_mem_plan_iff hwf).1 hj'
        exact ⟨hj.1.omits hc' homits, fun e he => by cases he⟩) job hjob
    obtain rfl : job = .definition d :=
      h.job_eq_of_allocation hasked.1.mem_jobs hd.mem_jobs (hja.trans ha.symm)
    exact .inr (hasked.2 d rfl)
  · rintro (hmem | hmem)
    · exact (hout.mem_done a).2 (.inl hmem)
    · obtain ⟨b, hb, hdb⟩ := hout.begun _ (.inl hmem)
      obtain rfl := Option.some.inj (ha.symm.trans hdb)
      exact hb

/-- When the catalog is done, the definitions that it mentions have been begun. -/
lemma mentions_iff (h : Numbered p c ids) {parts : List Part} {done : List Allocation}
    (hmakes : Makes p [] (c.libraries.flatMap fun l => itemsPlan p l.items) parts done)
    {d : Definition} (hd : p.Lowers (.definition d)) {a : Allocation} (ha : d.allocation = some a) :
    a ∈ done ↔ c.Mentions p d := by
  have hplan : ∀ job, .job job ∈ (c.libraries.flatMap fun l => itemsPlan p l.items) →
      p.Lowers job := by
    intro job hjob
    obtain ⟨l, -, hjob⟩ := List.mem_flatMap.1 hjob
    exact lowers_of_mem_itemsPlan hjob
  rw [h.definition_begun_iff hmakes hplan hd ha, Catalog.Mentions, Catalog.leaves]
  simp only [List.not_mem_nil, false_or, List.mem_flatMap, job_mem_itemsPlan_iff,
    Entry.definition_mem_jobs_iff]
  constructor
  · rintro ⟨l, hl, name, hname, e, he, rfl⟩
    exact ⟨name, ⟨l, hl, hname⟩, he⟩
  · rintro ⟨name, ⟨l, hl, hname⟩, he⟩
    exact ⟨l, hl, name, hname, _, he, rfl⟩

end Numbered

/-! ## Definitions in turn -/

lemma Program.definitions_sublist_jobs (p : Program) :
    (p.definitions.map fun e => Job.definition e.2).Sublist p.jobs := by
  rw [definitions, libraries, jobs]
  induction p.scopes with
  | nil => exact .refl _
  | cons sc rest ih =>
    rcases sc with s | s
    · rw [List.flatMap_cons]
      exact ih.trans (List.sublist_append_right _ _)
    · simp only [List.filterMap_cons, List.flatMap_cons, List.map_append, List.map_map]
      exact (List.Sublist.refl _).append ih

lemma Program.lowers_of_mem_definitions {p : Program} {e : String × Definition}
    (he : e ∈ p.definitions) : p.Lowers (.definition e.2) := by
  obtain ⟨s, hs, he⟩ := List.mem_flatMap.1 he
  obtain ⟨d, hd, rfl⟩ := List.mem_map.1 he
  exact ⟨s, hs, hd⟩

/-- Each job has its own slot first. -/
lemma allocations_sublist_slots (jobs : List Job) :
    (jobs.map Job.allocation).Sublist ((jobs.flatMap Job.slots).map Slot.allocation) := by
  induction jobs with
  | nil => exact .refl _
  | cons job rest ih =>
    obtain ⟨slot, others, hslots, hslot⟩ := job.slots_head
    rw [List.flatMap_cons, List.map_cons, List.map_append, hslots, List.map_cons, ← hslot,
      List.cons_append]
    exact (ih.trans (List.sublist_append_right _ _)).cons_cons _

lemma Numbered.nodup_definitions {p : Program} {c : Catalog} {ids : Counters} (h : Numbered p c ids) :
    (p.definitions.map fun e => e.2.allocation).Nodup := by
  have hslots := h.nodup
  rw [List.map_append, List.nodup_append] at hslots
  have hjobs : (p.jobs.map Job.allocation).Nodup := hslots.1.sublist (allocations_sublist_slots p.jobs)
  have hdefinitions := hjobs.sublist (p.definitions_sublist_jobs.map Job.allocation)
  rwa [List.map_map] at hdefinitions

/-- Whether a definition has been begun. -/
def Definition.begun (done : List Allocation) (d : Definition) : Bool :=
  d.allocation.any (· ∈ done)

/-- Definitions with allocations of their own do not begin one another, so those are referred to that
had not been begun before the first of them. -/
lemma Turns.shown_eq {p : Program} {c : Catalog} {ids : Counters} (h : Numbered p c ids)
    {done done' : List Allocation} {ds shown : List (String × Definition)}
    (hturns : Turns p done ds shown done') (hds : ∀ e ∈ ds, p.Lowers (.definition e.2))
    (hnodup : (ds.map fun e => e.2.allocation).Nodup) :
    shown = ds.filter fun e => !e.2.begun done := by
  induction hturns with
  | nil => rfl
  | again ha hdone _ ih =>
    rw [List.forall_mem_cons] at hds
    rw [List.map_cons, List.nodup_cons] at hnodup
    rw [List.filter_cons_of_neg (by simp [Definition.begun, ha, hdone])]
    exact ih hds.2 hnodup.2
  | @first done done₁ done' ds shown library d a parts ha hdone hmakes _ ih =>
    rw [List.forall_mem_cons] at hds
    rw [List.map_cons, List.nodup_cons] at hnodup
    rw [List.filter_cons_of_pos (by simp [Definition.begun, ha, hdone]), ih hds.2 hnodup.2]
    congr 1
    refine List.filter_congr fun e he => ?_
    have hlowers : ∀ job, .job job ∈ [PlanStep.job (.definition d)] → p.Lowers job := by
      intro job hjob
      obtain ⟨⟩ := List.mem_singleton.1 hjob
      exact hds.1
    rcases hb : e.2.allocation with _ | b
    · simp [Definition.begun, hb]
    · have hne : e.2 ≠ d := by
        rintro rfl
        exact hnodup.1 (List.mem_map.2 ⟨e, he, rfl⟩)
      have hbegun := h.definition_begun_iff hmakes hlowers (hds.2 e he) hb
      simp [Definition.begun, hb, hbegun, hne]

/-! ## Every entry has a reference -/

namespace Numbered

variable {p : Program} {c : Catalog} {ids : Counters}

lemma isSome_definition_item? (h : Numbered p c ids) {s : LibraryScope} (hs : s ∈ p.libraries)
    {d : Definition} (hd : d ∈ s.definitions) : d.item?.isSome := by
  obtain ⟨a, ha, -⟩ := h.definition_allocation hs hd
  rw [Definition.item?, ha]
  rfl

/-- What can be listed has a reference. -/
lemma isSome_entry_item? (h : Numbered p c ids) {e : Entry} (he : e ∈ p.entries)
    (hlistable : e.Listable) : e.item?.isSome := by
  rcases Program.mem_entries.1 he with ⟨s, hs, x, hx, rfl⟩ | ⟨s, hs, d, hd, rfl⟩
  · have hbound := h.boundTo hs hx
    rcases x with x | x | x
    · simp [Entry.ofExternal, Entry.Listable, Preset.isExternal] at hlistable
    · simp [Entry.ofExternal, Entry.item?, Callable.allocation, hbound.1]
    · have ha : x.allocation = some ⟨s.library, x.id⟩ := hbound
      simp [Entry.ofExternal, Entry.item?, Global.allocation, ha]
  · have hitem : (Entry.ofDefinition d).item? = d.item? := by
      cases d <;> rfl
    rw [hitem]
    exact h.isSome_definition_item? hs hd

/-- Entries of which the names can be listed and the folders have slots of the catalog have
references. -/
lemma isSome_item? (h : Numbered p c ids) {i : CatalogItem} (hleaves : ∀ name ∈ i.leaves, p.Lists name)
    (hslots : i.slots ⊆ c.slots) : (i.item? p).isSome := by
  rcases i with name | f
  · obtain ⟨e, he, hlistable⟩ := hleaves name (by rw [CatalogItem.leaves]; exact List.mem_cons_self)
    rw [CatalogItem.item?, he]
    exact h.isSome_entry_item? (Program.mem_of_listed? he) hlistable
  · obtain ⟨description, items, allocation⟩ := f
    rw [CatalogItem.slots, Folder.slots] at hslots
    have hfull := h.issues.full _ (List.mem_append_right _ (hslots List.mem_cons_self))
    rw [CatalogItem.item?, Option.isSome_map]
    exact hfull

lemma map_some_itemsNodes (h : Numbered p c ids) {is : List CatalogItem}
    (hleaves : ∀ name ∈ itemsLeaves is, p.Lists name) (hslots : itemsSlots is ⊆ c.slots) :
    (itemsNodes p is).map some = is.map (CatalogItem.item? p) := by
  rw [itemsNodes_eq_filterMap]
  refine map_some_filterMap fun i hi => h.isSome_item? (fun name hname => ?_) fun slot hslot => ?_
  · refine hleaves name ?_
    rw [itemsLeaves_eq_flatMap]
    exact List.mem_flatMap.2 ⟨i, hi, hname⟩
  · refine hslots ?_
    rw [itemsSlots_eq_flatMap]
    exact List.mem_flatMap.2 ⟨i, hi, hslot⟩

end Numbered

/-! ## Roots -/

namespace Document

section

variable {p : Program} {c : Catalog} {ids : Counters} {pools : Pools} {parts : List Part}
  {items : List (String × Node)}

open scoped Classical in
/-- The definitions of a library that are referred to are those that the catalog does not mention. -/
lemma shown_eq (h : Numbered p c ids) {parts : List Part} {done done' : List Allocation}
    {shown : List (String × Definition)}
    (hmakes : Makes p [] (c.libraries.flatMap fun l => itemsPlan p l.items) parts done)
    (hturns : Turns p done p.definitions shown done') (library : String) :
    (shown.filter (·.1 = library)).map Prod.snd =
      ((p.libraries.filter (·.library = library)).flatMap LibraryScope.definitions).filter
        fun d => ¬c.Mentions p d := by
  have hshown := hturns.shown_eq h (fun e he => Program.lowers_of_mem_definitions he)
    h.nodup_definitions
  have hbegun : ∀ d, p.Lowers (.definition d) → (!d.begun done) = decide (¬c.Mentions p d) := by
    rintro d ⟨s, hs, hd⟩
    obtain ⟨a, ha, -⟩ := h.definition_allocation hs hd
    have hmentions := h.mentions_iff hmakes ⟨s, hs, hd⟩ ha
    simp [Definition.begun, ha, hmentions]
  rw [hshown, List.filter_comm,
    show (fun e : String × Definition => !e.2.begun done) = (fun d => !d.begun done) ∘ Prod.snd from rfl,
    ← List.filter_map, Program.definitions, filter_flatMap_key]
  refine List.filter_congr fun d hd => hbegun d ?_
  obtain ⟨s, hs, hd⟩ := List.mem_flatMap.1 hd
  exact ⟨s, (List.mem_filter.1 hs).1, hd⟩

open scoped Classical in
/-- What stands in the root of a library. -/
lemma Composition.map_some_roots (hcomposition : Composition p c pools parts items)
    (h : Numbered p c ids) (library : String) :
    (pools.roots library).map some =
      ((c.libraries.filter (·.name = library)).flatMap CatalogLibrary.items).map
          (CatalogItem.item? p) ++
        (((p.libraries.filter (·.library = library)).flatMap LibraryScope.definitions).filter
          fun d => ¬c.Mentions p d).map Definition.item? := by
  obtain ⟨shown, ⟨parts₁, done₁, done, hmakes, hturns⟩, hshown⟩ := hcomposition.exists_shown
  have hlisted : ∀ l ∈ c.libraries,
      (itemsNodes p l.items).map some = l.items.map (CatalogItem.item? p) := by
    intro l hl
    refine h.map_some_itemsNodes (fun name hname => ?_) fun slot hslot => ?_
    · exact hcomposition.leaves name (List.mem_flatMap.2 ⟨l, hl, hname⟩)
    · exact List.mem_flatMap.2 ⟨l, hl, hslot⟩
  have hroots : pools.roots library =
      ((c.libraries.filter (·.name = library)).flatMap fun l => itemsNodes p l.items) ++
        (((p.libraries.filter (·.library = library)).flatMap LibraryScope.definitions).filter
          fun d => ¬c.Mentions p d).filterMap Definition.item? := by
    rw [hshown, rootNodes, ← shown_eq h hmakes hturns, List.filterMap_map,
      List.filterMap_eq_flatMap_toList]
    exact congrArg _ (List.flatMap_congr fun e _ => slotNodes_eq_toList _ _)
  rw [hroots, List.map_append, List.map_flatMap, List.map_flatMap]
  congr 1
  · exact List.flatMap_congr fun l hl => hlisted l (List.mem_filter.1 hl).1
  · refine map_some_filterMap fun d hd => ?_
    obtain ⟨s, hs, hd⟩ := List.mem_flatMap.1 (List.mem_filter.1 hd).1
    exact h.isSome_definition_item? (List.mem_filter.1 hs).1 hd

end

/-- The element of a folder refers to its entries. -/
lemma Contents.exists_folder {p : Program} {c : Catalog} {ids : Counters} {tree : Node}
    {parts : List Part} (hcontents : Contents p c tree parts) (h : Numbered p c ids)
    {l : CatalogLibrary} (hl : l ∈ c.libraries) {f : Folder} (hf : FolderIn l.items f) :
    ∃ a children, f.allocation = some a ∧ tree.HasElement .category a children ∧
      children.map some = f.items.map (CatalogItem.item? p) := by
  obtain ⟨description, is, allocation⟩ := f
  have hleaves := hf.leaves_subset
  have hslots := hf.slots_subset
  have hplan := hf.plan_subset p
  rw [Folder.leaves] at hleaves
  rw [Folder.slots] at hslots
  rw [Folder.plan] at hplan
  have hcatalog : itemsSlots l.items ⊆ c.slots := fun slot hslot => List.mem_flatMap.2 ⟨l, hl, hslot⟩
  obtain ⟨⟨library, id⟩, rfl⟩ : ∃ a, allocation = some a := Option.isSome_iff_exists.1
    (h.issues.full _ (List.mem_append_right _ (hcatalog (hslots List.mem_cons_self))))
  refine ⟨⟨library, id⟩, itemsNodes p is, rfl, ?_, ?_⟩
  · have hpart : (⟨library, .category, id, itemsNodes p is⟩ : Part) ∈ parts := by
      refine (hcontents.mem_parts _).2 (.inl (List.mem_append_left _ ?_))
      exact List.mem_flatMap.2 ⟨l, hl, hplan (List.mem_append_left _ List.mem_cons_self)⟩
    have helement := hcontents.filter_sectionElements hpart
    exact helement
  · refine h.map_some_itemsNodes (fun name hname => ?_) fun slot hslot => ?_
    · exact hcontents.leaves name (List.mem_flatMap.2 ⟨l, hl, hleaves hname⟩)
    · exact hcatalog (hslots (List.mem_cons_of_mem _ hslot))

open scoped Classical in
/-- The order of a catalog is kept. The root of each library that is in use refers, in order, to the
entries of the libraries of the catalog that bear its name, and behind them to the definitions of
the sections of the program that bear its name, but for those that the catalog mentions somewhere.
The element of each folder refers to its entries in order. There is one reference for each entry and
each definition. -/
theorem roots_follow_catalog {p : Program} {c : Catalog} {final : Allocator} {tree : Node}
    (hallocated : Allocated p c final) (hbuild : (build p c).start.1 = .ok tree) :
    (∀ library, (tree.sectionRoots library ≠ [] ↔ InUse p c library) ∧
      ∀ root ∈ tree.sectionRoots library, tree.sectionRoots library = [root] ∧
        root.children.map some =
          ((c.libraries.filter (·.name = library)).flatMap CatalogLibrary.items).map
              (CatalogItem.item? p) ++
            (((p.libraries.filter (·.library = library)).flatMap LibraryScope.definitions).filter
              fun d => ¬c.Mentions p d).map Definition.item?) ∧
      ∀ l ∈ c.libraries, ∀ f, FolderIn l.items f → ∃ a children, f.allocation = some a ∧
        tree.HasElement .category a children ∧
        children.map some = f.items.map (CatalogItem.item? p) := by
  have h := hallocated.numbered
  constructor
  · intro library
    obtain ⟨pools, parts, items, rfl, hcomposition⟩ := composition_of_build hbuild
    have hroots := hcomposition.map_some_roots h library
    rw [sectionRoots_ofPools hcomposition.nodup hcomposition.places, ← hcomposition.mem_libraries_iff,
      ← hroots, ← Pools.isSome_get?_iff, Pools.roots, Pools.pool]
    rcases pools.get? library with _ | q
    · simp
    · refine ⟨by simp, ?_⟩
      rw [Option.toList_some, List.map_singleton, List.forall_mem_singleton]
      exact ⟨rfl, rfl⟩
  · intro l hl f hf
    obtain ⟨parts, hcontents⟩ := contents_of_build h hbuild
    exact hcontents.exists_folder h hl hf

open scoped Classical in
/-- The catalog of the sample lists nothing in one of the libraries, whose root refers to both
definitions. The folder of the other library refers to a trigger and to an imported action. -/
theorem roots_follow_catalog_sample :
    Allocated Sample.numbered.1 Sample.listed.1 Sample.listed.2 ∧
      (build Sample.numbered.1 Sample.listed.1).start.1 = .ok Sample.document ∧
      InUse Sample.numbered.1 Sample.listed.1 "Tools" ∧
      (∃ root ∈ Sample.document.sectionRoots "Tools", root.children.length = 2 ∧
        root.children.map some =
          ((Sample.listed.1.libraries.filter (·.name = "Tools")).flatMap CatalogLibrary.items).map
              (CatalogItem.item? Sample.numbered.1) ++
            (((Sample.numbered.1.libraries.filter (·.library = "Tools")).flatMap
              LibraryScope.definitions).filter fun d =>
                ¬Sample.listed.1.Mentions Sample.numbered.1 d).map Definition.item?) ∧
      ∃ (f : Folder) (a : Allocation) (children : List Node), f.leaves = ["Run", "Wait"] ∧
        f.allocation = some a ∧ Sample.document.HasElement .category a children ∧
        children.map some = f.items.map (CatalogItem.item? Sample.numbered.1) := by
  obtain ⟨hroots, hfolders⟩ := roots_follow_catalog Sample.allocated Sample.build_ok
  obtain ⟨root, hroot, hlength⟩ : ∃ root ∈ Sample.document.sectionRoots "Tools",
      root.children.length = 2 := by decide +kernel
  obtain ⟨l, hl, i, hi, hleaves⟩ : ∃ l ∈ Sample.listed.1.libraries, ∃ i ∈ l.items,
      i.leaves = ["Run", "Wait"] := by decide +kernel
  obtain ⟨hinUse, hchildren⟩ := hroots "Tools"
  rcases i with name | f <;> rw [CatalogItem.leaves] at hleaves
  · simp at hleaves
  · obtain ⟨a, children, ha, helement, hitems⟩ := hfolders l hl f (.here hi)
    exact ⟨Sample.allocated, Sample.build_ok, hinUse.1 (List.ne_nil_of_mem hroot),
      ⟨root, hroot, hlength, (hchildren root hroot).2⟩, f, a, children, hleaves, ha, helement, hitems⟩

end Document

end TriggerScript
