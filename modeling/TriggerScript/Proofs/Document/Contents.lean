import Mathlib.Data.List.Flatten
import Mathlib.Data.List.Nodup
import Mathlib.Data.List.Pairwise
import TriggerScript.Proofs.Document.Sections
import TriggerScript.Proofs.Identifiers
import TriggerScript.Proofs.Lowering.Outcome
import TriggerScript.Proofs.Lowering.Whole

/-!
# The contents of a document

A program and a catalog whose slots are filled have no two jobs with the same allocation. So the jobs
that are done when their document is built are the definitions of the program and the default values
of imported parameters that are used, and its elements are those of their slots and of the folders of
the catalog.

The main definition is `Document.Contents`, and the main result is `Document.contents_of_build`. A
program in the namespace `Sample` is at hand for the results that build on them.
-/

namespace TriggerScript

namespace Program

variable {p : Program}

lemma definition_mem_jobs {s : LibraryScope} {d : Definition} (hs : s ∈ p.libraries)
    (hd : d ∈ s.definitions) : .definition d ∈ p.jobs :=
  List.mem_flatMap.2 ⟨_, mem_libraries.1 hs, List.mem_map.2 ⟨d, hd, rfl⟩⟩

/-- The jobs that a program asks for: its definitions, and the default values of imported parameters
that are used. -/
def Lowers (p : Program) : Job → Prop
  | .definition d => ∃ s ∈ p.libraries, d ∈ s.definitions
  | .default formal v => p.Uses formal v

end Program

/-- The default value that a call leaves out is that of an imported parameter. -/
lemma Call.Omits.mem_jobs {p : Program} {c : Call} {formal : Formal} {v : Value}
    (h : c.Omits p formal v) : .default formal v ∈ p.jobs := by
  obtain ⟨f, hf, hformal, hv⟩ := h
  replace hformal := List.mem_of_mem_drop hformal
  rcases Program.callable?_cases hf with ⟨s, hs, d, hd, rfl⟩ | ⟨s, hs, d, hd, rfl⟩
  · refine List.mem_flatMap.2 ⟨_, Program.mem_imports.1 hs, List.mem_flatMap.2 ⟨_, hd, ?_⟩⟩
    exact List.mem_filterMap.2 ⟨formal, hformal, by rw [hv]; rfl⟩
  · obtain ⟨q, -, rfl⟩ := List.mem_map.1 hformal
    simp at hv

lemma Program.Uses.mem_jobs {p : Program} {formal : Formal} {v : Value} (h : p.Uses formal v) :
    .default formal v ∈ p.jobs := by
  obtain ⟨c, homits⟩ := h.exists_omits
  exact homits.mem_jobs

lemma Program.Lowers.mem_jobs {p : Program} {job : Job} (h : p.Lowers job) : job ∈ p.jobs := by
  rcases job with d | ⟨formal, v⟩
  · obtain ⟨s, hs, hd⟩ := h
    exact definition_mem_jobs hs hd
  · exact Uses.mem_jobs h

/-- What a job that a program asks for asks for itself. -/
lemma Program.Lowers.omits {p : Program} {job : Job} (h : p.Lowers job) {c : Call}
    (hc : c ∈ job.calls) {formal : Formal} {v : Value} (homits : c.Omits p formal v) :
    p.Uses formal v := by
  rcases job with d | ⟨formal', v'⟩
  · obtain ⟨s, hs, hd⟩ := h
    exact .definition hs hd hc homits
  · exact .default h hc homits

namespace Numbered

variable {p : Program} {c : Catalog} {ids : Counters} {job : Job}

lemma nodup (h : Numbered p c ids) : ((p.slots ++ c.slots).map Slot.allocation).Nodup :=
  h.issues.nodup

/-- A job is a definition, which is in the library of its section, or a default value, which is in the
default library. -/
lemma job_cases (h : Numbered p c ids) (hjob : job ∈ p.jobs) :
    (∃ s ∈ p.libraries, ∃ d ∈ s.definitions, job = .definition d ∧ Within s.library d.slots) ∨
      ∃ formal v, job = .default formal v ∧ Within defaultLibrary v.slots := by
  obtain ⟨sc, hsc, hjob⟩ := List.mem_flatMap.1 hjob
  have hfilled := h.scopes sc hsc
  rcases sc with s | s
  · obtain ⟨x, hx, hjob⟩ := List.mem_flatMap.1 hjob
    have hwithin : Within defaultLibrary job.slots := fun slot hslot =>
      (hfilled x hx).2 slot (List.mem_flatMap.2 ⟨job, hjob, hslot⟩)
    rcases x with x | x | x
    · simp [ExternalDefinition.jobs] at hjob
    · obtain ⟨formal, -, hdefault⟩ := List.mem_filterMap.1 hjob
      obtain ⟨v, -, rfl⟩ := Option.map_eq_some_iff.1 hdefault
      exact .inr ⟨formal, v, rfl, hwithin⟩
    · simp [ExternalDefinition.jobs] at hjob
  · obtain ⟨d, hd, rfl⟩ := List.mem_map.1 hjob
    exact .inl ⟨s, Program.mem_libraries.2 hsc, d, hd, rfl, hfilled d hd⟩

/-- The slots of a job are filled with ids of one library. -/
lemma job_within (h : Numbered p c ids) (hjob : job ∈ p.jobs) : ∃ library, Within library job.slots := by
  rcases h.job_cases hjob with ⟨s, -, d, -, rfl, hwithin⟩ | ⟨formal, v, rfl, hwithin⟩
  · exact ⟨_, hwithin⟩
  · exact ⟨_, hwithin⟩

/-- No allocation stands in two jobs. -/
lemma job_eq (h : Numbered p c ids) {j j' : Job} (hj : j ∈ p.jobs) (hj' : j' ∈ p.jobs)
    {o : Option Allocation} (ho : o ∈ j.slots.map Slot.allocation)
    (ho' : o ∈ j'.slots.map Slot.allocation) : j = j' := by
  have hnodup : (p.jobs.flatMap fun j => j.slots.map Slot.allocation).Nodup := by
    have hslots := h.nodup
    rw [List.map_append, List.nodup_append] at hslots
    rw [← List.map_flatMap]
    exact hslots.1
  -- two jobs at different places of the list have nothing in common
  have hpairwise : p.jobs.Pairwise fun j j' => ∀ o ∈ j.slots.map Slot.allocation,
      o ∈ j'.slots.map Slot.allocation → j = j' :=
    (List.nodup_flatMap.1 hnodup).2.imp fun hdisjoint o ho ho' => (hdisjoint ho ho').elim
  have : Std.Symm fun j j' : Job => ∀ o ∈ j.slots.map Slot.allocation,
      o ∈ j'.slots.map Slot.allocation → j = j' :=
    ⟨fun _ _ hab o ho ho' => (hab o ho' ho).symm⟩
  exact hpairwise.forall_of_forall (fun _ _ _ _ _ => rfl) hj hj' o ho ho'

lemma job_eq_of_allocation (h : Numbered p c ids) {j j' : Job} (hj : j ∈ p.jobs) (hj' : j' ∈ p.jobs)
    (hallocation : j.allocation = j'.allocation) : j = j' := by
  obtain ⟨slot, rest, hslots, hslot⟩ := j.slots_head
  obtain ⟨slot', rest', hslots', hslot'⟩ := j'.slots_head
  refine h.job_eq hj hj' (o := j.allocation) ?_ ?_
  · rw [hslots, ← hslot]
    exact List.mem_cons_self
  · rw [hslots', hallocation, ← hslot']
    exact List.mem_cons_self

end Numbered

/-! ## The elements of a catalog -/

@[simp] lemma planParts_map_job (jobs : List Job) : planParts (jobs.map .job) = [] := by
  induction jobs with
  | nil => rfl
  | cons job rest ih => exact ih

mutual

lemma CatalogItem.keys (p : Program) : ∀ i : CatalogItem,
    (planParts (i.plan p)).map Part.key = i.slots.filterMap Slot.key?
  | .leaf name => by
    rw [CatalogItem.plan, CatalogItem.slots, planParts_map_job]
    rfl
  | .folder f => by
    rw [CatalogItem.plan, CatalogItem.slots]
    exact Folder.keys p f

lemma Folder.keys (p : Program) : ∀ f : Folder,
    (planParts (f.plan p)).map Part.key = f.slots.filterMap Slot.key?
  | ⟨_, entries, allocation⟩ => by
    rw [Folder.plan, Folder.slots]
    have hentries := items_keys p entries
    rcases allocation with _ | a
    · exact hentries
    · exact congrArg ((.category, a) :: ·) hentries

lemma items_keys (p : Program) : ∀ is : List CatalogItem,
    (planParts (itemsPlan p is)).map Part.key = (itemsSlots is).filterMap Slot.key?
  | [] => by
    rw [itemsPlan, itemsSlots]
    rfl
  | i :: rest => by
    rw [itemsPlan, itemsSlots, planParts_append, List.map_append, List.filterMap_append,
      CatalogItem.keys p i, items_keys p rest]

end

/-- The elements of the plan of the whole, apart from its jobs, are those of the catalog. -/
lemma wholePlan_keys (p : Program) (c : Catalog) :
    (planParts (wholePlan p c)).map Part.key = c.slots.filterMap Slot.key? := by
  have hdefinitions : ∀ ls : List LibraryScope,
      planParts (ls.flatMap fun l => definitionsPlan l.definitions) = [] := by
    intro ls
    rw [List.eq_nil_iff_forall_not_mem]
    intro part hpart
    simp [mem_planParts, definitionsPlan] at hpart
  rw [wholePlan, planParts_append, hdefinitions, List.append_nil, Catalog.slots]
  induction c.libraries with
  | nil => rfl
  | cons l rest ih =>
    rw [List.flatMap_cons, List.flatMap_cons, planParts_append, List.map_append,
      List.filterMap_append, ih, items_keys]

/-! ## The jobs that are done -/

/-- What can be listed and is not imported is a definition of the program. -/
lemma Entry.lowers_of_mem_jobs {p : Program} {e : Entry} (he : e ∈ p.entries) {job : Job}
    (hjob : job ∈ e.jobs) : p.Lowers job := by
  rcases Program.mem_entries.1 he with ⟨s, hs, x, hx, rfl⟩ | ⟨s, hs, d, hd, rfl⟩
  · rcases x with x | x | x <;> simp [ofExternal, jobs] at hjob
  · have hdefinition : job = .definition d := by
      rcases d with d | d | d | d <;> simpa [ofDefinition, jobs] using hjob
    subst hdefinition
    exact ⟨s, hs, hd⟩

mutual

lemma CatalogItem.job_mem_plan_iff {p : Program} {job : Job} : ∀ i : CatalogItem,
    .job job ∈ i.plan p ↔ ∃ name ∈ i.leaves, ∃ e, p.listed? name = some e ∧ job ∈ e.jobs
  | .leaf name => by
    rw [CatalogItem.plan, CatalogItem.leaves]
    rcases hlisted : p.listed? name with _ | e <;> simp [hlisted]
  | .folder f => by
    rw [CatalogItem.plan, CatalogItem.leaves]
    exact Folder.job_mem_plan_iff f

lemma Folder.job_mem_plan_iff {p : Program} {job : Job} : ∀ f : Folder,
    .job job ∈ f.plan p ↔ ∃ name ∈ f.leaves, ∃ e, p.listed? name = some e ∧ job ∈ e.jobs
  | ⟨_, entries, allocation⟩ => by
    rw [Folder.plan, Folder.leaves, ← job_mem_itemsPlan_iff entries]
    simp [slotPart]

/-- Entries ask for what the names in them mean. -/
lemma job_mem_itemsPlan_iff {p : Program} {job : Job} : ∀ is : List CatalogItem,
    .job job ∈ itemsPlan p is ↔
      ∃ name ∈ itemsLeaves is, ∃ e, p.listed? name = some e ∧ job ∈ e.jobs
  | [] => by
    rw [itemsPlan, itemsLeaves]
    simp
  | i :: rest => by
    rw [itemsPlan, itemsLeaves, List.mem_append, CatalogItem.job_mem_plan_iff i,
      job_mem_itemsPlan_iff rest]
    simp only [List.mem_append, or_and_right, exists_or]

end

lemma lowers_of_mem_itemsPlan {p : Program} {job : Job} {is : List CatalogItem}
    (h : .job job ∈ itemsPlan p is) : p.Lowers job := by
  obtain ⟨name, -, e, he, hjob⟩ := (job_mem_itemsPlan_iff is).1 h
  exact e.lowers_of_mem_jobs (Program.mem_of_listed? he) hjob

lemma definition_mem_wholePlan {p : Program} {s : LibraryScope} (c : Catalog) {d : Definition}
    (hs : s ∈ p.libraries) (hd : d ∈ s.definitions) : .job (.definition d) ∈ wholePlan p c :=
  List.mem_append_right _ (List.mem_flatMap.2 ⟨s, hs, List.mem_map.2 ⟨d, hd, rfl⟩⟩)

lemma lowers_of_mem_wholePlan {p : Program} {c : Catalog} {job : Job}
    (h : .job job ∈ wholePlan p c) : p.Lowers job := by
  rcases List.mem_append.1 h with h | h
  · obtain ⟨l, -, h⟩ := List.mem_flatMap.1 h
    exact lowers_of_mem_itemsPlan h
  · obtain ⟨s, hs, h⟩ := List.mem_flatMap.1 h
    obtain ⟨d, hd, hstep⟩ := List.mem_map.1 h
    obtain ⟨⟩ := hstep
    exact ⟨s, hs, hd⟩

/-- The jobs that are done are among those that the program asks for, whatever its slots hold. -/
lemma Outcome.lowers {p : Program} {c : Catalog} {parts : List Part} {done : List Allocation}
    {jobs : List Job} (hout : Outcome p [] (wholePlan p c) parts done jobs) :
    ∀ job ∈ jobs, p.Lowers job := by
  refine hout.asked p.Lowers (fun j hj => lowers_of_mem_wholePlan hj) ?_
  intro j j' hj hwf hj'
  obtain ⟨c', hc', formal, v, homits, rfl⟩ := (Job.job_mem_plan_iff hwf).1 hj'
  exact hj.omits hc' homits

namespace Numbered

variable {p : Program} {c : Catalog} {ids : Counters} {job : Job}

/-- A job that a program asks for has the elements of its nodes and asks for what its calls leave
out. -/
lemma job_covers (h : Numbered p c ids) (hjob : p.Lowers job) (hwf : job.WellFormed p) :
    Covers p (job.plan p) job.sites job.calls := by
  obtain ⟨library, hwithin⟩ := h.job_within hjob.mem_jobs
  exact job.covers hwf hwithin

/-- The elements of a job are found where its slots say. -/
lemma job_keys (h : Numbered p c ids) (hjob : p.Lowers job) (hwf : job.WellFormed p) :
    (planParts (job.plan p)).map Part.key = job.slots.filterMap Slot.key? := by
  rw [(h.job_covers hjob hwf).keys, job.slots_eq]

/-- The jobs that are done are those that the program asks for. -/
lemma mem_jobs_iff (h : Numbered p c ids) {parts : List Part} {done : List Allocation} {jobs : List Job}
    (hout : Outcome p [] (wholePlan p c) parts done jobs) : job ∈ jobs ↔ p.Lowers job := by
  have hlowers := hout.lowers
  -- what has been begun is done, since no other job has its allocation
  have hdone : ∀ j, p.Lowers j →
      (.job j ∈ wholePlan p c ∨ ∃ j' ∈ jobs, .job j ∈ j'.plan p) → j ∈ jobs := by
    intro j hj hasked
    obtain ⟨a, ha, hja⟩ := hout.begun j hasked
    have ha' : some a ∈ jobs.map Job.allocation := by
      rcases (hout.mem_done a).1 ha with ha | ha
      · simp at ha
      · exact ha
    obtain ⟨j', hj', hja'⟩ := List.mem_map.1 ha'
    have heq := h.job_eq_of_allocation hj.mem_jobs (hlowers j' hj').mem_jobs (hja.trans hja'.symm)
    rwa [heq]
  have homitted : ∀ j ∈ jobs, ∀ c' ∈ j.calls, ∀ formal v, c'.Omits p formal v →
      .default formal v ∈ jobs := by
    intro j hj c' hc' formal v homits
    have hasked : .job (.default formal v) ∈ j.plan p :=
      (Job.job_mem_plan_iff (hout.wellFormed j hj)).2 ⟨c', hc', formal, v, homits, rfl⟩
    exact hdone _ ((hlowers j hj).omits hc' homits) (.inr ⟨j, hj, hasked⟩)
  refine ⟨hlowers job, fun hjob => ?_⟩
  rcases job with d | ⟨formal, v⟩
  · obtain ⟨s, hs, hd⟩ := hjob
    exact hdone _ ⟨s, hs, hd⟩ (.inl (definition_mem_wholePlan c hs hd))
  · induction hjob with
    | @definition s d c' formal v hs hd hc' homits =>
      have hmem := hdone (.definition d) ⟨s, hs, hd⟩ (.inl (definition_mem_wholePlan c hs hd))
      exact homitted _ hmem c' hc' formal v homits
    | @default formal formal' v v' c' _ hc' homits ih => exact homitted _ ih c' hc' formal' v' homits

end Numbered

/-! ## Documents -/

lemma Slot.key?_eq_some_iff {slot : Slot} {type : ElementType} {a : Allocation} :
    slot.key? = some (type, a) ↔ slot = ⟨some type, some a⟩ := by
  obtain ⟨_ | type', _ | a'⟩ := slot <;> simp [key?]

/-- The keys of slots are the slots of nodes that become elements. -/
lemma mem_filterMap_key? {slots : List Slot} {type : ElementType} {a : Allocation} :
    (type, a) ∈ slots.filterMap Slot.key? ↔ ⟨some type, some a⟩ ∈ slots := by
  rw [List.mem_filterMap]
  constructor
  · rintro ⟨slot, hslot, hkey⟩
    rw [Slot.key?_eq_some_iff] at hkey
    rwa [← hkey]
  · exact fun h => ⟨_, h, rfl⟩

/-- Slots that are pairwise different lead to elements that are pairwise different. -/
lemma nodup_keys {slots : List Slot} (h : (slots.map Slot.allocation).Nodup) :
    ((slots.filterMap Slot.key?).map Prod.snd).Nodup := by
  induction slots with
  | nil => exact List.nodup_nil
  | cons slot rest ih =>
    rw [List.map_cons, List.nodup_cons] at h
    obtain ⟨_ | type, _ | a⟩ := slot
    iterate 3 exact ih h.2
    refine List.nodup_cons.2 ⟨fun hmem => h.1 ?_, ih h.2⟩
    obtain ⟨⟨type', _⟩, hkey, rfl⟩ := List.mem_map.1 hmem
    exact List.mem_map.2 ⟨_, mem_filterMap_key?.1 hkey, rfl⟩

/-- No two elements are found at the same allocation. -/
lemma Numbered.nodup_parts {p : Program} {c : Catalog} {ids : Counters} (h : Numbered p c ids)
    {parts : List Part} {done : List Allocation} {jobs : List Job}
    (hout : Outcome p [] (wholePlan p c) parts done jobs) : (parts.map Part.allocation).Nodup := by
  have hjobs : (jobs.flatMap fun job => planParts (job.plan p)).map Part.key =
      (jobs.flatMap Job.slots).filterMap Slot.key? := by
    rw [List.map_flatMap, List.filterMap_flatMap]
    refine List.flatMap_congr fun job hjob => ?_
    exact h.job_keys ((h.mem_jobs_iff hout).1 hjob) (hout.wellFormed job hjob)
  have hperm : (parts.map Part.allocation).Perm
      (((c.slots ++ jobs.flatMap Job.slots).filterMap Slot.key?).map Prod.snd) := by
    have hkeys := (hout.perm.map Part.key).map Prod.snd
    rw [List.map_append, wholePlan_keys, hjobs, ← List.filterMap_append, List.map_map] at hkeys
    exact hkeys
  rw [hperm.nodup_iff]
  apply nodup_keys
  -- the slots of the jobs that are done are among the slots of the program
  have hsubset : jobs ⊆ p.jobs := fun job hjob => ((h.mem_jobs_iff hout).1 hjob).mem_jobs
  obtain ⟨jobs', hjobs', hsublist⟩ := List.subperm_of_subset hout.nodup.of_map hsubset
  have hslots : (c.slots ++ jobs.flatMap Job.slots).Perm (jobs'.flatMap Job.slots ++ c.slots) :=
    List.perm_append_comm.trans ((hjobs'.flatMap_right Job.slots).symm.append_right _)
  rw [(hslots.map _).nodup_iff]
  exact h.nodup.sublist (((hsublist.flatMap Job.slots).append (.refl _)).map _)

namespace Document

variable {p : Program} {c : Catalog} {ids : Counters} {tree : Node} {pools : Pools} {parts : List Part}

/-- What a document holds that was built from a program and a catalog. -/
structure Contents (p : Program) (c : Catalog) (tree : Node) (parts : List Part) : Prop where
  /-- The section of a library has the elements of the library, in order. -/
  sections : ∀ library,
    tree.sectionElements library = (parts.filter (·.library = library)).map Part.node
  /-- The elements are those of the folders of the catalog and of the jobs that the program asks
  for. -/
  mem_parts : ∀ part, part ∈ parts ↔
    .part part ∈ wholePlan p c ∨ ∃ job, p.Lowers job ∧ .part part ∈ job.plan p
  nodup : (parts.map Part.allocation).Nodup
  leaves : ∀ name ∈ c.leaves, p.Lists name
  wellFormed : ∀ job, p.Lowers job → job.WellFormed p
  /-- Any other node is a reference in a root, or it stands around elements and roots. -/
  nodes : ∀ P : Node → Prop, (∀ q, P (libraryNode q)) → (∀ q, P (root q)) →
    (∀ part ∈ parts, part.node.Every P) → (∀ item ∈ wholeItems p c, item.2.Every P) →
    ∀ n ∈ tree.descendants, P n

/-- At the allocation of an element there is no other element. -/
lemma Contents.filter_sectionElements (hcontents : Contents p c tree parts) {part : Part}
    (hpart : part ∈ parts) :
    ((tree.sectionElements part.library).filter fun n => n.attribute? "Id" = some part.id.text) =
      [part.node] := by
  have hid : ∀ q : Part, q.node.attribute? "Id" = some q.id.text := fun _ => rfl
  have hunique : ((parts.filter (·.library = part.library)).filter
      fun q => q.id.text = part.id.text) = [part] := by
    refine List.perm_singleton.1 ((List.perm_ext_iff_of_nodup ?_ (List.nodup_singleton _)).2 ?_)
    · exact (hcontents.nodup.of_map.filter _).filter _
    · intro q
      simp only [List.mem_filter, decide_eq_true_eq, List.mem_singleton]
      constructor
      · rintro ⟨⟨hq, hlibrary⟩, htext⟩
        refine List.inj_on_of_nodup_map hcontents.nodup hq hpart ?_
        rw [Part.allocation, Part.allocation, hlibrary, ElementId.text_injective htext]
      · rintro rfl
        exact ⟨⟨hpart, rfl⟩, rfl⟩
  rw [hcontents.sections, List.filter_map]
  simp only [Function.comp_def, hid, Option.some.injEq, hunique, List.map_singleton]

/-- Where elements are found. -/
lemma Contents.mem_keys_iff (hcontents : Contents p c tree parts) (h : Numbered p c ids)
    {type : ElementType} {a : Allocation} :
    (type, a) ∈ parts.map Part.key ↔
      (∃ job, p.Lowers job ∧ ⟨some type, some a⟩ ∈ job.slots) ∨ ⟨some type, some a⟩ ∈ c.slots := by
  have hjob : ∀ job, p.Lowers job → ((type, a) ∈ (planParts (job.plan p)).map Part.key ↔
      ⟨some type, some a⟩ ∈ job.slots) := by
    intro job hjob
    rw [h.job_keys hjob (hcontents.wellFormed job hjob), mem_filterMap_key?]
  rw [← mem_filterMap_key?, ← wholePlan_keys p]
  simp only [List.mem_map, hcontents.mem_parts, ← mem_planParts]
  constructor
  · rintro ⟨part, hpart | ⟨job, hlowers, hpart⟩, hkey⟩
    · exact .inr ⟨part, hpart, hkey⟩
    · exact .inl ⟨job, hlowers, (hjob job hlowers).1 (List.mem_map.2 ⟨part, hpart, hkey⟩)⟩
  · rintro (⟨job, hlowers, hslot⟩ | ⟨part, hpart, hkey⟩)
    · obtain ⟨part, hpart, hkey⟩ := List.mem_map.1 ((hjob job hlowers).2 hslot)
      exact ⟨part, .inr ⟨job, hlowers, hpart⟩, hkey⟩
    · exact ⟨part, .inl hpart, hkey⟩

lemma build_ok_iff :
    (build p c).start.1 = .ok tree ↔
      ∃ u s, Lower.all (.ofSymbols (Symbols.ofProgram p).1) p c {} = .ok u s ∧
        ofPools s.pools = tree := by
  rw [Run.start_ok_iff, build]
  rcases hall : Lower.all (.ofSymbols (Symbols.ofProgram p).1) p c {} with ⟨u, s⟩ | ⟨e, s⟩
  · simp only [bind_ok_iff, hall, Run.reportAll, Run.report, modify_ok_iff, pure_ok_iff]
    constructor
    · rintro ⟨log, _, _, -, _, _, -, htree, -⟩
      exact ⟨u, s, rfl, htree⟩
    · rintro ⟨_, _, ⟨⟩, htree⟩
      exact ⟨_, ⟨⟩, _, rfl, ⟨⟩, _, rfl, htree, rfl⟩
  · simp [bind_ok_iff, hall, throw_ok_iff]

lemma build_error_iff {e : LoweringError} :
    (build p c).start.1 = .error e ↔
      ∃ s, Lower.all (.ofSymbols (Symbols.ofProgram p).1) p c {} = .error e s := by
  have hstart : (build p c).start.1 =
      match Lower.all (.ofSymbols (Symbols.ofProgram p).1) p c {} with
      | .ok _ s => .ok (ofPools s.pools)
      | .error e _ => .error e := by
    rw [Run.start, build]
    rcases hall : Lower.all (.ofSymbols (Symbols.ofProgram p).1) p c {} with ⟨u, s⟩ | ⟨e, s⟩ <;>
      simp only [Run.reportAll, hall] <;> rfl
  rw [hstart]
  rcases Lower.all (.ofSymbols (Symbols.ofProgram p).1) p c {} with ⟨u, s⟩ | ⟨e', s⟩ <;> simp

/-- How the pools of a program and a catalog have come about, whatever their slots hold. -/
structure Composition (p : Program) (c : Catalog) (pools : Pools) (parts : List Part)
    (items : List (String × Node)) : Prop where
  makes : ∃ done, Makes p [] (wholePlan p c) parts done
  grows : Pools.Grows [] parts items
    (c.libraries.map CatalogLibrary.name ++ p.libraries.map LibraryScope.library) pools
  /-- The references to what the catalog lists come first, and behind them those to the definitions
  that have not been begun when it is their turn. -/
  turns : ∃ parts₁ done₁ shown done,
    Makes p [] (c.libraries.flatMap fun l => itemsPlan p l.items) parts₁ done₁ ∧
      Turns p done₁ p.definitions shown done ∧
      items = (c.libraries.flatMap fun l => (itemsNodes p l.items).map fun n => (l.name, n)) ++
        definitionsItems shown
  leaves : ∀ name ∈ c.leaves, p.Lists name

theorem composition_of_build (hbuild : (build p c).start.1 = .ok tree) :
    ∃ pools parts items, ofPools pools = tree ∧ Composition p c pools parts items := by
  obtain ⟨u, s, hall, rfl⟩ := build_ok_iff.1 hbuild
  obtain ⟨hleaves, s₁, shown, hcatalog, hlibraries, hturns⟩ := Lower.all_ok hall
  obtain ⟨parts, hmakes, hgrows⟩ := hcatalog.append hlibraries
  obtain ⟨parts₁, hmakes₁, -⟩ := hcatalog
  exact ⟨s.pools, parts, _, rfl, ⟨s.done, hmakes⟩, hgrows,
    ⟨parts₁, s₁.done, shown, s.done, hmakes₁, hturns, rfl⟩, hleaves⟩

namespace Composition

variable {items : List (String × Node)}

lemma nodup (h : Composition p c pools parts items) : pools.libraries.Nodup :=
  h.grows.nodup List.nodup_nil

lemma items_subset (h : Composition p c pools parts items) : items ⊆ wholeItems p c := by
  obtain ⟨parts₁, done₁, shown, done, -, hturns, rfl⟩ := h.turns
  have hdefinitions : (definitionsItems shown).Sublist (p.libraries.flatMap fun l =>
      l.definitions.flatMap fun d =>
        (slotNodes "Item" d.type d.allocation).map fun n => (l.library, n)) := by
    have hsublist := hturns.sublist.flatMap fun e =>
      (slotNodes "Item" e.2.type e.2.allocation).map fun n => (e.1, n)
    rw [Program.definitions, List.flatMap_assoc] at hsublist
    simp only [List.flatMap_map] at hsublist
    exact hsublist
  exact ((List.Sublist.refl _).append hdefinitions).subset

lemma places (h : Composition p c pools parts items) (l : String) :
    pools.places l = (parts.filter (·.library = l)).map fun part => some part.node :=
  h.grows.places l

/-- What holds of all nodes of the elements and the references, and of the nodes around them, holds of
all nodes of the document. -/
lemma forall_descendants (h : Composition p c pools parts items) {P : Node → Prop}
    (hlibrary : ∀ q, P (libraryNode q)) (hroot : ∀ q, P (root q))
    (hparts : ∀ part ∈ parts, part.node.Every P) (hitems : ∀ item ∈ wholeItems p c, item.2.Every P) :
    ∀ n ∈ (ofPools pools).descendants, P n := by
  refine forall_descendants_ofPools hlibrary hroot ?_ ?_
  · intro q hq n hn
    have hroots : n ∈ pools.roots q.library := by
      rw [Pools.roots, Pools.pool, Pools.get?_of_mem h.nodup hq]
      exact hn
    rw [h.grows.roots] at hroots
    obtain ⟨item, hitem, rfl⟩ := List.mem_map.1 hroots
    exact hitems item (h.items_subset (List.mem_filter.1 hitem).1)
  · intro q hq n hn
    obtain ⟨part, hpart, rfl⟩ := exists_part_of_mem_elements h.nodup h.places hq hn
    exact hparts part hpart

end Composition

/-- What the document of the pools holds if the slots have been filled by an allocator. -/
theorem Composition.contents {items : List (String × Node)}
    (hcomposition : Composition p c pools parts items) (h : Numbered p c ids) :
    Contents p c (ofPools pools) parts := by
  obtain ⟨done, hmakes⟩ := hcomposition.makes
  obtain ⟨jobs, hout⟩ := hmakes.outcome
  have hjobs : ∀ {job}, job ∈ jobs ↔ p.Lowers job := h.mem_jobs_iff hout
  refine ⟨sectionElements_ofPools hcomposition.nodup hcomposition.places, ?_, ?_,
    hcomposition.leaves, fun job hjob => hout.wellFormed job (hjobs.2 hjob), ?_⟩
  · intro part
    rw [hout.perm.mem_iff, List.mem_append, List.mem_flatMap, mem_planParts]
    simp only [mem_planParts, hjobs]
  · exact h.nodup_parts hout
  · intro P hlibrary hroot hparts hitems
    exact hcomposition.forall_descendants hlibrary hroot hparts hitems

theorem contents_of_build (h : Numbered p c ids) (hbuild : (build p c).start.1 = .ok tree) :
    ∃ parts, Contents p c tree parts := by
  obtain ⟨pools, parts, items, rfl, hcomposition⟩ := composition_of_build hbuild
  exact ⟨parts, hcomposition.contents h⟩

end Document

/-! ## A program -/

namespace Sample

/-- A program with definitions in two libraries. A trigger hands a block to an imported action, and
calls leave out a parameter that is imported and one that is not; the default value of the parameter
of `Rest` is used nowhere. -/
def source : Program where
  scopes :=
    [.import_ ⟨"Base",
        [.function ⟨.event, [], "Started", ⟨1⟩, [], .void, none⟩,
          .function ⟨.action, [], "Wait", ⟨2⟩,
            [⟨[], "seconds", ⟨"int", []⟩, ⟨3⟩, some ⟨.presetMember "Pace" "fast", none⟩, none⟩],
            .void, none⟩,
          .function ⟨.action, [], "Rest", ⟨4⟩,
            [⟨[], "seconds", ⟨"int", []⟩, ⟨5⟩, some ⟨.literal (.int 2), none⟩, none⟩], .void, none⟩,
          .function ⟨.action, [], "Loop", ⟨6⟩,
            [⟨[⟨"block", none⟩], "body", ⟨"actions", []⟩, ⟨7⟩, none, none⟩], .void, none⟩,
          .preset ⟨[], "Pace", [⟨"fast", ⟨8⟩, none⟩], none⟩]⟩,
      .library ⟨"Tools",
        [.variable ⟨[], ⟨"int", [.size 2]⟩, "table", ⟨.literal (.int 0), none⟩, none⟩,
          .function ⟨.function, [], "Get", "Get",
            [⟨[], "index", ⟨"int", []⟩, some ⟨.literal (.int 1), none⟩, none⟩], ⟨"int", []⟩,
            ⟨[], [⟨"Wait", [⟨.arrayElement "table" [⟨.variable "index", none⟩], none⟩], none⟩]⟩,
            none⟩]⟩,
      .library ⟨"0",
        [.trigger ⟨[], "Run", "Run", ⟨"Started", [], none⟩,
          ⟨[⟨[], ⟨"int", []⟩, "pause", ⟨.call ⟨"Get", [], none⟩, none⟩, none⟩],
            [⟨"Loop", [⟨.block ⟨[], [⟨"Wait", [⟨.variable "pause", none⟩], none⟩]⟩, none⟩], none⟩,
              ⟨"Wait", [], none⟩]⟩, none⟩]⟩]

/-- A catalog of the program that lists a trigger and an imported action in a folder. -/
def listing : Catalog :=
  ⟨[⟨"0", "Sample", [.folder ⟨"Main", [.leaf "Run", .leaf "Wait"], none⟩]⟩]⟩

/-- The program with its slots filled. -/
def numbered : Program × Allocator :=
  (({} : Allocator).run (Allocate.program source)).start.1.toOption.get (by decide +kernel)

/-- The catalog with its slots filled. -/
def listed : Catalog × Allocator :=
  (numbered.2.run (Allocate.catalog listing)).start.1.toOption.get (by decide +kernel)

/-- The document of the program and the catalog. -/
def document : Node :=
  (Document.build numbered.1 listed.1).start.1.toOption.get (by decide +kernel)

lemma numbered_ok : (({} : Allocator).run (Allocate.program source)).start.1 = .ok numbered :=
  eq_ok_get _

lemma listed_ok : (numbered.2.run (Allocate.catalog listing)).start.1 = .ok listed :=
  eq_ok_get _

lemma allocated : Allocated numbered.1 listed.1 listed.2 :=
  .of_runs numbered_ok listed_ok

lemma build_ok : (Document.build numbered.1 listed.1).start.1 = .ok document :=
  eq_ok_get _

end Sample

end TriggerScript
