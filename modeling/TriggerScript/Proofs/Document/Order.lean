import TriggerScript.Proofs.Document.Contents

/-!
# The order of elements

An allocator numbers the nodes of a definition from the outside to the inside and from left to right.
Lowering puts their elements into the pool in the same order. While it does so it may come upon default
values of imported parameters that have not been made yet, and nothing else is made in between.

The main result is `Document.elements_in_allocation_order`.
-/

namespace TriggerScript

/-! ## Nodes inside one another -/

mutual

/-- The nodes of a value that have slots, each with the slots inside it. -/
def Value.owners : Value → List (Slot × List Slot)
  | ⟨kind, allocation⟩ => (⟨kind.elementType?, allocation⟩, kind.slots) :: kind.owners

/-- The nodes inside a value, each with the slots inside it. -/
def ValueKind.owners : ValueKind → List (Slot × List Slot)
  | .literal _ => []
  | .presetMember _ _ => []
  | .variable _ => []
  | .arrayElement _ indices => valuesOwners indices
  | .call c => c.owners
  | .block b => b.owners

/-- The nodes of a call, each with the slots inside it. -/
def Call.owners : Call → List (Slot × List Slot)
  | ⟨_, args, allocation⟩ => (⟨some .functionCall, allocation⟩, valuesSlots args) :: valuesOwners args

/-- The nodes of a block, each with the slots inside it. -/
def Block.owners : Block → List (Slot × List Slot)
  | ⟨locals, statements⟩ => variablesOwners locals ++ callsOwners statements

/-- The nodes of a variable, each with the slots inside it. -/
def VariableDef.owners : VariableDef → List (Slot × List Slot)
  | ⟨_, _, _, v, allocation⟩ => (⟨some .variable, allocation⟩, v.slots) :: v.owners

/-- The nodes of values, each with the slots inside it. -/
def valuesOwners : List Value → List (Slot × List Slot)
  | [] => []
  | v :: rest => v.owners ++ valuesOwners rest

/-- The nodes of calls, each with the slots inside it. -/
def callsOwners : List Call → List (Slot × List Slot)
  | [] => []
  | c :: rest => c.owners ++ callsOwners rest

/-- The nodes of variables, each with the slots inside it. -/
def variablesOwners : List VariableDef → List (Slot × List Slot)
  | [] => []
  | d :: rest => d.owners ++ variablesOwners rest

end

/-- The nodes of a parameter, each with the slots inside it. -/
def ParamDef.owners (d : ParamDef) : List (Slot × List Slot) :=
  (⟨some .paramDef, d.allocation⟩, d.default.toList.flatMap Value.slots) ::
    d.default.toList.flatMap Value.owners

/-- The nodes of a definition, each with the slots inside it. -/
def Definition.owners : Definition → List (Slot × List Slot)
  | .preset d =>
    (⟨some .preset, d.allocation⟩, d.members.map PresetMember.slot) ::
      d.members.map fun m => (m.slot, [])
  | .variable d => d.owners
  | .function d =>
    (⟨some .functionDef, d.allocation⟩, d.params.flatMap ParamDef.slots ++ d.body.slots) ::
      (d.params.flatMap ParamDef.owners ++ d.body.owners)
  | .trigger d =>
    (⟨some .trigger, d.allocation⟩, d.event.slots ++ d.body.slots) ::
      (d.event.owners ++ d.body.owners)

/-- Each node stands in front of the slots inside it. -/
def Nested (slots : List Slot) (owners : List (Slot × List Slot)) : Prop :=
  ∀ owner ∈ owners, (owner.1 :: owner.2).Sublist slots

namespace Nested

variable {slots slots' : List Slot} {owners owners' : List (Slot × List Slot)}

lemma nil (slots : List Slot) : Nested slots [] :=
  List.forall_mem_nil _

lemma cons (h : Nested slots owners) (slot : Slot) :
    Nested (slot :: slots) ((slot, slots) :: owners) :=
  List.forall_mem_cons.2 ⟨.refl _, fun owner howner => (h owner howner).cons slot⟩

lemma append (h : Nested slots owners) (h' : Nested slots' owners') :
    Nested (slots ++ slots') (owners ++ owners') :=
  List.forall_mem_append.2 ⟨fun owner howner => (h owner howner).trans (List.sublist_append_left _ _),
    fun owner howner => (h' owner howner).trans (List.sublist_append_right _ _)⟩

lemma flatMap {α : Type} {f : α → List Slot} {g : α → List (Slot × List Slot)} {xs : List α}
    (h : ∀ x ∈ xs, Nested (f x) (g x)) : Nested (xs.flatMap f) (xs.flatMap g) := by
  induction xs with
  | nil => exact nil _
  | cons x rest ih =>
    rw [List.forall_mem_cons] at h
    exact h.1.append (ih h.2)

end Nested

mutual

lemma Value.nested : ∀ v : Value, Nested v.slots v.owners
  | ⟨kind, allocation⟩ => by
    rw [Value.slots, Value.owners]
    exact (ValueKind.nested kind).cons _

lemma ValueKind.nested : ∀ kind : ValueKind, Nested kind.slots kind.owners
  | .literal _ => by
    rw [ValueKind.owners]
    exact .nil _
  | .presetMember _ _ => by
    rw [ValueKind.owners]
    exact .nil _
  | .variable _ => by
    rw [ValueKind.owners]
    exact .nil _
  | .arrayElement _ indices => by
    rw [ValueKind.slots, ValueKind.owners]
    exact values_nested indices
  | .call c => by
    rw [ValueKind.slots, ValueKind.owners]
    exact Call.nested c
  | .block b => by
    rw [ValueKind.slots, ValueKind.owners]
    exact Block.nested b

lemma Call.nested : ∀ c : Call, Nested c.slots c.owners
  | ⟨_, args, allocation⟩ => by
    rw [Call.slots, Call.owners]
    exact (values_nested args).cons _

lemma Block.nested : ∀ b : Block, Nested b.slots b.owners
  | ⟨locals, statements⟩ => by
    rw [Block.slots, Block.owners]
    exact (variables_nested locals).append (calls_nested statements)

lemma VariableDef.nested : ∀ d : VariableDef, Nested d.slots d.owners
  | ⟨_, _, _, v, allocation⟩ => by
    rw [VariableDef.slots, VariableDef.owners]
    exact (Value.nested v).cons _

lemma values_nested : ∀ vs : List Value, Nested (valuesSlots vs) (valuesOwners vs)
  | [] => by
    rw [valuesOwners]
    exact .nil _
  | v :: rest => by
    rw [valuesSlots, valuesOwners]
    exact (Value.nested v).append (values_nested rest)

lemma calls_nested : ∀ cs : List Call, Nested (callsSlots cs) (callsOwners cs)
  | [] => by
    rw [callsOwners]
    exact .nil _
  | c :: rest => by
    rw [callsSlots, callsOwners]
    exact (Call.nested c).append (calls_nested rest)

lemma variables_nested : ∀ ds : List VariableDef, Nested (variablesSlots ds) (variablesOwners ds)
  | [] => by
    rw [variablesOwners]
    exact .nil _
  | d :: rest => by
    rw [variablesSlots, variablesOwners]
    exact (VariableDef.nested d).append (variables_nested rest)

end

lemma ParamDef.nested (d : ParamDef) : Nested d.slots d.owners :=
  (Nested.flatMap fun v _ => v.nested).cons _

lemma Definition.nested (d : Definition) : Nested d.slots d.owners := by
  rcases d with d | d | d | d
  · have hmembers : Nested (d.members.map PresetMember.slot) (d.members.map fun m => (m.slot, [])) := by
      intro owner howner
      obtain ⟨m, hm, rfl⟩ := List.mem_map.1 howner
      exact List.singleton_sublist.2 (List.mem_map_of_mem hm)
    exact hmembers.cons _
  · exact d.nested
  · exact ((Nested.flatMap fun q _ => q.nested).append d.body.nested).cons _
  · exact (d.event.nested.append d.body.nested).cons _

/-! ## Ids in order -/

/-- Ids of one library are handed out in increasing order. -/
lemma Issues.increasing {c c₁ : Counters} {slots : List Slot} (h : Issues c slots c₁) :
    slots.Pairwise fun slot slot' => ∀ a a', slot.allocation = some a → slot'.allocation = some a' →
      a.library = a'.library → a.id.val < a'.id.val := by
  induction h with
  | nil => exact .nil
  | @cons c c₁ c₂ slot rest b hslot hnext hrest ih =>
    refine List.pairwise_cons.2 ⟨fun slot' hslot' a a' ha ha' hlibrary => ?_, ih⟩
    obtain rfl : b = a := Option.some.inj (hslot.symm.trans ha)
    obtain ⟨hid, hcount⟩ := Counters.next_ok hnext
    have hafter := ((hrest.mem_iff a').1 (ha' ▸ List.mem_map_of_mem hslot')).1
    rw [hcount, if_pos hlibrary.symm] at hafter
    rw [UInt32.lt_iff_toNat_lt]
    omega

/-- The ids of the elements of a definition increase in the order of its nodes. -/
lemma Numbered.increasing_keys {p : Program} {c : Catalog} {ids : Counters} (h : Numbered p c ids)
    {l : LibraryScope} (hl : l ∈ p.libraries) {d : Definition} (hd : d ∈ l.definitions) :
    (d.slots.filterMap Slot.key?).Pairwise fun key key' => key.2.id.val < key'.2.id.val := by
  have hsublist : d.slots.Sublist (p.slots ++ c.slots) := by
    have hjob := (List.singleton_sublist.2 (Program.definition_mem_jobs hl hd)).flatMap Job.slots
    rw [List.flatMap_singleton] at hjob
    exact hjob.trans (List.sublist_append_left _ _)
  have hwithin := h.definition_within hl hd
  rw [List.pairwise_filterMap]
  refine (h.issues.increasing.sublist hsublist).imp_of_mem ?_
  rintro slot slot' hslot hslot' hlt ⟨type, a⟩ hkey ⟨type', a'⟩ hkey'
  rw [Slot.key?_eq_some_iff] at hkey hkey'
  subst hkey hkey'
  obtain ⟨_, ⟨⟩, ha⟩ := hwithin _ hslot
  obtain ⟨_, ⟨⟩, ha'⟩ := hwithin _ hslot'
  exact hlt a a' rfl rfl (ha.trans ha'.symm)

/-! ## What is made while a job is done -/

namespace Makes

variable {p : Program} {done done' : List Allocation} {plan : List PlanStep} {parts : List Part}

/-- The elements of a plan are made in the order of the plan. -/
lemma sublist (h : Makes p done plan parts done') : (planParts plan).Sublist parts := by
  induction h with
  | nil => exact .refl _
  | part part _ ih => exact ih.cons_cons part
  | again _ _ _ ih => exact ih
  | job _ _ _ _ _ _ ih => exact ih.trans (List.sublist_append_right _ _)

/-- What has been begun by following a plan is a job that is asked for, and it has been done in one
go. -/
lemma exists_job (h : Makes p done plan parts done') {a : Allocation} (hfresh : a ∉ done)
    (hbegun : a ∈ done') {P : Job → Prop} (hplan : ∀ job, .job job ∈ plan → P job)
    (hclosed : ∀ j job, P j → j.WellFormed p → .job job ∈ j.plan p → P job) :
    ∃ job before own after done₁ done₂, P job ∧ job.allocation = some a ∧ job.WellFormed p ∧
      parts = before ++ own ++ after ∧ Makes p done₁ (job.plan p) own done₂ := by
  induction h with
  | nil => exact (hfresh hbegun).elim
  | part part _ ih =>
    obtain ⟨job, before, own, after, done₁, done₂, hP, hjob, hwf, rfl, hmakes⟩ :=
      ih hfresh hbegun fun job hjob => hplan job (List.mem_cons_of_mem _ hjob)
    exact ⟨job, part :: before, own, after, done₁, done₂, hP, hjob, hwf, rfl, hmakes⟩
  | again _ _ _ ih => exact ih hfresh hbegun fun job hjob => hplan job (List.mem_cons_of_mem _ hjob)
  | @job done done₁ done' plan parts parts' job b hjob hdone hwf hmakes hrest ih ih' =>
    have hPjob := hplan job List.mem_cons_self
    by_cases hab : a = b
    · subst hab
      exact ⟨job, [], parts, parts', _, _, hPjob, hjob, hwf, rfl, hmakes⟩
    · by_cases ha : a ∈ done₁
      -- the job has been begun while another one was done
      · obtain ⟨job', before, own, after, done₂, done₃, hP, hjob', hwf', rfl, hmakes'⟩ :=
          ih (List.not_mem_cons_of_ne_of_not_mem hab hfresh) ha fun job' hjob' =>
            hclosed job job' hPjob hwf hjob'
        exact ⟨job', before, own, after ++ parts', done₂, done₃, hP, hjob', hwf',
          List.append_assoc _ _ _, hmakes'⟩
      · obtain ⟨job', before, own, after, done₂, done₃, hP, hjob', hwf', rfl, hmakes'⟩ :=
          ih' ha hbegun fun job' hjob' => hplan job' (List.mem_cons_of_mem _ hjob')
        exact ⟨job', parts ++ before, own, after, done₂, done₃, hP, hjob', hwf', by simp, hmakes'⟩

end Makes

/-- The element of a definition comes first. -/
lemma Definition.plan_eq_cons (p : Program) {d : Definition} {a : Allocation}
    (ha : d.allocation = some a) :
    ∃ children rest, d.plan p = .part ⟨a.library, d.type, a.id, children⟩ :: rest := by
  rcases d with d | d | d | d
  · exact ⟨_, _, by rw [plan, show d.allocation = some a from ha]; rfl⟩
  · obtain ⟨attributes, ty, name, v, allocation⟩ := d
    obtain rfl : allocation = some a := ha
    exact ⟨_, _, by rw [plan, VariableDef.plan]; rfl⟩
  · exact ⟨_, _, by rw [plan, show d.allocation = some a from ha]; rfl⟩
  · exact ⟨_, _, by rw [plan, show d.allocation = some a from ha]; rfl⟩

/-- Whether a node bears an id that was handed out in the library to a node of the job. -/
def Job.owns (job : Job) (library : String) (n : Node) : Bool :=
  job.slots.any fun slot => slot.allocation.any fun a =>
    a.library = library && n.attribute? "Id" = some a.id.text

lemma Job.owns_node_iff {job : Job} {part : Part} :
    job.owns part.library part.node ↔ some part.allocation ∈ job.slots.map Slot.allocation := by
  have hid : part.node.attribute? "Id" = some part.id.text := rfl
  simp only [owns, List.any_eq_true, Option.any_eq_true, hid, Bool.and_eq_true, decide_eq_true_eq,
    Option.some.injEq, List.mem_map]
  constructor
  · rintro ⟨slot, hslot, a, ha, hlibrary, htext⟩
    refine ⟨slot, hslot, ?_⟩
    rw [ha, Part.allocation, ← hlibrary, ElementId.text_injective htext]
  · rintro ⟨slot, hslot, ha⟩
    exact ⟨slot, hslot, _, ha, rfl, rfl⟩

namespace Document

variable {p : Program} {c : Catalog} {ids : Counters} {parts : List Part} {l : LibraryScope}
  {d : Definition} {tree : Node}

/-- Among the elements of a document, those of a job are those whose ids were handed out to it. -/
lemma Contents.mem_planParts_iff (hcontents : Contents p c tree parts) (h : Numbered p c ids) {job : Job}
    (hjob : p.Lowers job) {part : Part} (hpart : part ∈ parts) :
    part ∈ planParts (job.plan p) ↔ some part.allocation ∈ job.slots.map Slot.allocation := by
  have hkeys := h.job_keys hjob (hcontents.wellFormed job hjob)
  constructor
  · intro hplan
    have hkey : part.key ∈ job.slots.filterMap Slot.key? := hkeys ▸ List.mem_map_of_mem hplan
    exact List.mem_map.2 ⟨_, mem_filterMap_key?.1 hkey, rfl⟩
  · intro ha
    have hkey : part.key ∈ job.slots.filterMap Slot.key? := by
      rcases (hcontents.mem_keys_iff h).1 (List.mem_map_of_mem hpart) with ⟨job', hjob', hslot⟩ | hslot
      · obtain rfl : job' = job :=
          h.job_eq hjob'.mem_jobs hjob.mem_jobs (List.mem_map.2 ⟨_, hslot, rfl⟩) ha
        exact mem_filterMap_key?.2 hslot
      · -- no id is handed out both in the program and in the catalog
        have hdisjoint := h.nodup
        rw [List.map_append, List.nodup_append] at hdisjoint
        obtain ⟨slot, hslot', heq⟩ := List.mem_map.1 ha
        have hmem := List.mem_flatMap.2 ⟨job, hjob.mem_jobs, hslot'⟩
        exact (hdisjoint.2.2 _ (List.mem_map.2 ⟨slot, hmem, heq⟩)
          _ (List.mem_map.2 ⟨_, hslot, rfl⟩) rfl).elim
    rw [← hkeys] at hkey
    obtain ⟨part', hpart', heq⟩ := List.mem_map.1 hkey
    have hmem : part' ∈ parts :=
      (hcontents.mem_parts part').2 (.inr ⟨job, hjob, mem_planParts.1 hpart'⟩)
    rwa [← List.inj_on_of_nodup_map hcontents.nodup hmem hpart (congrArg Prod.snd heq)]

/-- The elements of a definition are made in one go, its own one first. What else is made in between are
elements of default values. -/
lemma Composition.exists_own {pools : Pools} {items : List (String × Node)}
    (hcomposition : Composition p c pools parts items) (h : Numbered p c ids) (hl : l ∈ p.libraries)
    (hd : d ∈ l.definitions) {a : Allocation} (ha : d.allocation = some a) :
    ∃ before first own after, parts = before ++ (first :: own) ++ after ∧
      first.key = (d.type, a) ∧ (planParts (d.plan p)).Sublist (first :: own) ∧
      ∀ part ∈ first :: own, part ∈ planParts (d.plan p) ∨
        ∃ formal v, p.Lowers (.default formal v) ∧
          part ∈ planParts ((Job.default formal v).plan p) := by
  obtain ⟨done, hmakes⟩ := hcomposition.makes
  have hlowers : p.Lowers (.definition d) := ⟨l, hl, hd⟩
  have hclosed : ∀ j job, p.Lowers j → j.WellFormed p → .job job ∈ j.plan p →
      ∃ formal v, job = .default formal v ∧ p.Lowers job := by
    intro j job hj hwf hjob
    obtain ⟨c', hc', formal, v, homits, rfl⟩ := (Job.job_mem_plan_iff hwf).1 hjob
    exact ⟨formal, v, rfl, hj.omits hc' homits⟩
  have hbegun : a ∈ done := by
    obtain ⟨jobs, hout⟩ := hmakes.outcome
    obtain ⟨b, hb, hdb⟩ := hout.begun _ (.inl (definition_mem_wholePlan c hl hd))
    obtain rfl := Option.some.inj (ha.symm.trans hdb)
    exact hb
  obtain ⟨job, before, own, after, done₁, done₂, hjob, hja, hwf, rfl, hown⟩ :=
    hmakes.exists_job (List.not_mem_nil) hbegun (fun j hj => lowers_of_mem_wholePlan hj)
      fun j job hj hwf hjob => by
        obtain ⟨formal, v, -, hlowers⟩ := hclosed j job hj hwf hjob
        exact hlowers
  obtain rfl : job = .definition d :=
    h.job_eq_of_allocation hjob.mem_jobs hlowers.mem_jobs (hja.trans ha.symm)
  have hsublist := hown.sublist
  obtain ⟨jobs, hout⟩ := hown.outcome
  obtain ⟨children, rest, hplan⟩ := d.plan_eq_cons p ha
  have hplan' : (Job.definition d).plan p = .part ⟨a.library, d.type, a.id, children⟩ :: rest := hplan
  have hjobs := hout.asked (fun j => ∃ formal v, j = .default formal v ∧ p.Lowers j)
    (fun j hj => hclosed _ j hlowers hwf hj) (fun j j' hj hwf hj' => by
      obtain ⟨formal, v, -, hlowers⟩ := hj
      exact hclosed j j' hlowers hwf hj')
  have hmem : ∀ part ∈ own, part ∈ planParts (d.plan p) ∨
      ∃ formal v, p.Lowers (.default formal v) ∧
        part ∈ planParts ((Job.default formal v).plan p) := by
    intro part hpart
    rcases List.mem_append.1 (hout.perm.mem_iff.1 hpart) with hpart | hpart
    · exact .inl hpart
    · obtain ⟨j, hj, hpart⟩ := List.mem_flatMap.1 hpart
      obtain ⟨formal, v, rfl, hlowers⟩ := hjobs j hj
      exact .inr ⟨formal, v, hlowers, hpart⟩
  rw [hplan'] at hown
  cases hown with
  | part first hrest =>
    exact ⟨before, _, _, after, rfl, rfl, hsublist, hmem⟩

/-- An element of a library bears an id of a job if it is one of the elements of the job. -/
lemma Contents.owns_iff (hcontents : Contents p c tree parts) (h : Numbered p c ids) {job : Job}
    (hjob : p.Lowers job) {part : Part} (hpart : part ∈ parts) {library : String}
    (hlibrary : part.library = library) :
    job.owns library part.node ↔ part ∈ planParts (job.plan p) := by
  rw [← hlibrary, Job.owns_node_iff, hcontents.mem_planParts_iff h hjob hpart]

/-- Where all elements of a definition are, those that bear its ids are these, in order. -/
lemma Contents.filter_owns (hcontents : Contents p c tree parts) (h : Numbered p c ids)
    (hl : l ∈ p.libraries) (hd : d ∈ l.definitions) {own : List Part} (hown : own.Sublist parts)
    (hplan : (planParts (d.plan p)).Sublist own) :
    ((own.filter (·.library = l.library)).filter fun part =>
      (Job.definition d).owns l.library part.node) = planParts (d.plan p) := by
  have hlowers : p.Lowers (.definition d) := ⟨l, hl, hd⟩
  have hmem : ∀ part ∈ planParts (d.plan p), part ∈ parts := fun part hpart =>
    hown.subset (hplan.subset hpart)
  have hlibrary : ∀ part ∈ planParts (d.plan p), part.library = l.library := by
    intro part hpart
    obtain ⟨slot, hslot, heq⟩ :=
      List.mem_map.1 ((hcontents.mem_planParts_iff h hlowers (hmem part hpart)).1 hpart)
    obtain ⟨b, hb, hlibrary⟩ := h.definition_within hl hd slot hslot
    obtain rfl := Option.some.inj (heq.symm.trans hb)
    exact hlibrary
  have hnodup := ((hcontents.nodup.of_map.sublist hown).filter fun part =>
    part.library = l.library).filter fun part => (Job.definition d).owns l.library part.node
  refine (List.Sublist.eq_of_length_le ?_
    (List.subperm_of_subset hnodup fun part hpart => ?_).length_le).symm
  · have hfiltered := (hplan.filter fun part => part.library = l.library).filter
      fun part => (Job.definition d).owns l.library part.node
    rwa [List.filter_eq_self.2 fun part hpart => decide_eq_true (hlibrary part hpart),
      List.filter_eq_self.2 fun part hpart =>
        (hcontents.owns_iff h hlowers (hmem part hpart) (hlibrary part hpart)).2 hpart] at hfiltered
  · obtain ⟨hpart, howned⟩ := List.mem_filter.1 hpart
    obtain ⟨hpart, hlibrary⟩ := List.mem_filter.1 hpart
    exact (hcontents.owns_iff h hlowers (hown.subset hpart) (of_decide_eq_true hlibrary)).1 howned

/-- Where all elements of a definition are in one stretch, no element outside it bears its ids. -/
lemma Contents.not_owns_outside (hcontents : Contents p c tree parts) (h : Numbered p c ids)
    (hl : l ∈ p.libraries) (hd : d ∈ l.definitions) {before own after : List Part}
    (hparts : parts = before ++ own ++ after) (hplan : (planParts (d.plan p)).Sublist own) :
    ∀ n ∈ (before.filter (·.library = l.library)).map Part.node ++
      (after.filter (·.library = l.library)).map Part.node, ¬(Job.definition d).owns l.library n := by
  intro n hn howned
  rw [← List.map_append, ← List.filter_append] at hn
  obtain ⟨part, hpart, rfl⟩ := List.mem_map.1 hn
  obtain ⟨hpart, hlibrary⟩ := List.mem_filter.1 hpart
  have hmem : part ∈ parts := by
    rw [hparts, List.mem_append, List.mem_append]
    exact (List.mem_append.1 hpart).imp_left .inl
  have hlowers : p.Lowers (.definition d) := ⟨l, hl, hd⟩
  have hown : part ∈ own :=
    hplan.subset ((hcontents.owns_iff h hlowers hmem (of_decide_eq_true hlibrary)).1 howned)
  -- but no part is made twice
  have hnodup := hcontents.nodup.of_map
  rw [hparts, List.nodup_append, List.nodup_append] at hnodup
  obtain ⟨⟨-, -, hbefore⟩, -, hafter⟩ := hnodup
  rcases List.mem_append.1 hpart with hpart | hpart
  · exact hbefore part hpart part hown rfl
  · exact hafter part (List.mem_append_right _ hown) part hpart rfl

/-- A stretch of the section of a library that holds the elements of one of its definitions. -/
structure Stretch (p : Program) (library : String) (d : Definition) (own : List Node) : Prop where
  /-- The element of the definition comes first. -/
  first : ∃ a children rest, d.allocation = some a ∧ own = .element d.type a.id children :: rest
  /-- What is in between belongs to default values of imported parameters. -/
  between : ∀ n ∈ own, (Job.definition d).owns library n ∨
    ∃ formal v, .default formal v ∈ p.jobs ∧ (Job.default formal v).owns library n
  /-- There is an element for each node of the definition that becomes one, in the order of the
  nodes. -/
  listed : (own.filter ((Job.definition d).owns library)).map
      (fun n => (n.attribute? "Type", n.attribute? "Id")) =
    (d.slots.filterMap Slot.key?).map fun key => (some key.1.name, some key.2.id.text)
  /-- In this order their ids increase. -/
  increasing : (d.slots.filterMap Slot.key?).Pairwise fun key key' => key.2.id.val < key'.2.id.val
  /-- The element of a node stands in front of those of the nodes inside it. -/
  nested : ∀ owner ∈ d.owners, ∀ slot ∈ owner.2, ∀ key key', owner.1.key? = some key →
    slot.key? = some key' → ∃ n n', [n, n'].Sublist own ∧
      n.attribute? "Id" = some key.2.id.text ∧ n'.attribute? "Id" = some key'.2.id.text

/-- Lowering keeps the order of allocation. The elements of a library that bear ids of one of its
definitions are in one stretch of its section. They stand there in increasing order of their ids, that
of the definition first, and only elements of default values of imported parameters are in between. -/
theorem elements_in_allocation_order {final : Allocator} {tree : Node}
    (hallocated : Allocated p c final) (hbuild : (build p c).start.1 = .ok tree) {l : LibraryScope}
    (hl : l ∈ p.libraries) {d : Definition} (hd : d ∈ l.definitions) :
    ∃ before own after, tree.sectionElements l.library = before ++ own ++ after ∧
      (∀ n ∈ before ++ after, ¬(Job.definition d).owns l.library n) ∧
      Stretch p l.library d own := by
  have h := hallocated.numbered
  obtain ⟨pools, parts, items, rfl, hcomposition⟩ := composition_of_build hbuild
  have hcontents := hcomposition.contents h
  obtain ⟨a, ha, halibrary⟩ := h.definition_allocation hl hd
  have hlowers : p.Lowers (.definition d) := ⟨l, hl, hd⟩
  have hkeys : (planParts (d.plan p)).map Part.key = d.slots.filterMap Slot.key? :=
    h.job_keys hlowers (hcontents.wellFormed _ hlowers)
  obtain ⟨before, first, own, after, hparts, hfirst, hplan, hmem⟩ :=
    hcomposition.exists_own h hl hd ha
  have hown : (first :: own).Sublist parts := by
    rw [hparts]
    exact (List.sublist_append_right _ _).trans (List.sublist_append_left _ _)
  have hfilter := hcontents.filter_owns h hl hd hown hplan
  have hlibrary : first.library = l.library := by
    rw [← halibrary]
    exact congrArg (fun key => key.2.library) hfirst
  have hnode : first.node = .element d.type a.id first.children := by
    obtain ⟨library, type, id, children⟩ := first
    cases hfirst
    rfl
  have hsection : (ofPools pools).sectionElements l.library =
      (before.filter (·.library = l.library)).map Part.node ++
        ((first :: own).filter (·.library = l.library)).map Part.node ++
        (after.filter (·.library = l.library)).map Part.node := by
    rw [hcontents.sections, hparts, List.filter_append, List.filter_append, List.map_append,
      List.map_append]
  have hinside : ∀ n ∈ ((first :: own).filter (·.library = l.library)).map Part.node,
      (Job.definition d).owns l.library n ∨
        ∃ formal v, .default formal v ∈ p.jobs ∧ (Job.default formal v).owns l.library n := by
    intro n hn
    obtain ⟨part, hpart, rfl⟩ := List.mem_map.1 hn
    obtain ⟨hpart, hpartLibrary⟩ := List.mem_filter.1 hpart
    have hpartLibrary := of_decide_eq_true hpartLibrary
    rcases hmem part hpart with hplanned | ⟨formal, v, hdefault, hplanned⟩
    · exact .inl ((hcontents.owns_iff h hlowers (hown.subset hpart) hpartLibrary).2 hplanned)
    · exact .inr ⟨formal, v, hdefault.mem_jobs,
        (hcontents.owns_iff h hdefault (hown.subset hpart) hpartLibrary).2 hplanned⟩
  have hplan' : (planParts (d.plan p)).Sublist ((first :: own).filter (·.library = l.library)) := by
    rw [← hfilter]
    exact List.filter_sublist
  refine ⟨_, _, _, hsection, hcontents.not_owns_outside h hl hd hparts hplan, ?first, hinside, ?listed,
    h.increasing_keys hl hd, ?nested⟩
  case first =>
    refine ⟨a, first.children, (own.filter (·.library = l.library)).map Part.node, ha, ?_⟩
    rw [← hnode, ← List.map_cons]
    exact congrArg (List.map Part.node) (List.filter_cons_of_pos (decide_eq_true hlibrary))
  case listed =>
    rw [← hkeys, ← hfilter, List.filter_map, List.map_map, List.map_map]
    rfl
  case nested =>
    intro owner howner slot hslot key key' hkey hkey'
    have hslots : [owner.1, slot].Sublist d.slots :=
      ((List.singleton_sublist.2 hslot).cons_cons owner.1).trans (d.nested owner howner)
    have hsublist : [key, key'].Sublist ((planParts (d.plan p)).map Part.key) := by
      have hfiltered := hslots.filterMap Slot.key?
      rwa [List.filterMap_cons_some hkey, List.filterMap_cons_some hkey', List.filterMap_nil, ← hkeys]
        at hfiltered
    obtain ⟨pair, hpair, heq⟩ := List.sublist_map_iff.1 hsublist
    obtain ⟨part, rest, rfl, rfl, hrest⟩ := List.map_eq_cons_iff.1 heq.symm
    obtain ⟨part', rfl, rfl⟩ := List.map_eq_singleton_iff.1 hrest
    exact ⟨part.node, part'.node, (hpair.trans hplan').map Part.node, rfl, rfl⟩

/-- The elements of the trigger of the sample make up a stretch of its section. -/
theorem elements_in_allocation_order_sample :
    Allocated Sample.numbered.1 Sample.listed.1 Sample.listed.2 ∧
      (build Sample.numbered.1 Sample.listed.1).start.1 = .ok Sample.document ∧
      ∃ l ∈ Sample.numbered.1.libraries, ∃ d ∈ l.definitions, d.name = "Run" ∧
        ∃ before own after,
          Sample.document.sectionElements l.library = before ++ own ++ after ∧
          (∀ n ∈ before ++ after, ¬(Job.definition d).owns l.library n) ∧
          Stretch Sample.numbered.1 l.library d own := by
  obtain ⟨l, hl, d, hd, hname⟩ : ∃ l ∈ Sample.numbered.1.libraries, ∃ d ∈ l.definitions,
      d.name = "Run" := by decide +kernel
  exact ⟨Sample.allocated, Sample.build_ok, l, hl, d, hd, hname,
    elements_in_allocation_order Sample.allocated Sample.build_ok hl hd⟩

end Document

end TriggerScript
