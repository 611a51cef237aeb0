import Mathlib.Data.List.Perm.Basic
import TriggerScript.Proofs.Lowering.Plan
import TriggerScript.Proofs.Numbering
import TriggerScript.Proofs.Walk

/-!
# What following a plan comes to

Jobs are done at most once, and doing one may lead to others. Whatever the order, following a plan
comes to this: there is a list of jobs such that the elements are those of the plan and of these jobs,
all jobs that the plan or one of these jobs asks for have been begun, and no job is among them that
nothing asks for (`Makes.outcome`).

What a plan asks for is read off its tree. Its elements are those of the nodes of the tree, and its
jobs are the imported defaults that the calls of the tree leave out (`Covers`).
-/

namespace TriggerScript

/-- The element that a step makes. -/
def PlanStep.part? : PlanStep → Option Part
  | .part q => some q
  | .job _ => none

/-- The elements of a plan. -/
def planParts (plan : List PlanStep) : List Part :=
  plan.filterMap PlanStep.part?

@[simp] lemma planParts_nil : planParts [] = [] :=
  rfl

@[simp] lemma planParts_part (part : Part) (plan : List PlanStep) :
    planParts (.part part :: plan) = part :: planParts plan :=
  rfl

@[simp] lemma planParts_job (job : Job) (plan : List PlanStep) :
    planParts (.job job :: plan) = planParts plan :=
  rfl

@[simp] lemma planParts_append (plan plan' : List PlanStep) :
    planParts (plan ++ plan') = planParts plan ++ planParts plan' :=
  List.filterMap_append

@[simp] lemma planParts_map_part (parts : List Part) : planParts (parts.map .part) = parts := by
  induction parts with
  | nil => rfl
  | cons part rest ih => rw [List.map_cons, planParts_part, ih]

lemma mem_planParts {plan : List PlanStep} {part : Part} :
    part ∈ planParts plan ↔ .part part ∈ plan := by
  rw [planParts, List.mem_filterMap]
  constructor
  · rintro ⟨_ | _, hstep, ⟨⟩⟩
    exact hstep
  · exact fun h => ⟨_, h, rfl⟩

/-! ## Jobs that have been done -/

/-- Following a plan comes to doing some jobs, each once. -/
structure Outcome (p : Program) (done : List Allocation) (plan : List PlanStep) (parts : List Part)
    (done' : List Allocation) (jobs : List Job) : Prop where
  /-- The elements are those of the plan and of the jobs. -/
  perm : parts.Perm (planParts plan ++ jobs.flatMap fun job => planParts (job.plan p))
  /-- The jobs are what has been begun. -/
  mem_done : ∀ a, a ∈ done' ↔ a ∈ done ∨ some a ∈ jobs.map Job.allocation
  fresh : ∀ job ∈ jobs, ∃ a, job.allocation = some a ∧ a ∉ done
  nodup : (jobs.map Job.allocation).Nodup
  wellFormed : ∀ job ∈ jobs, job.WellFormed p
  /-- What is asked for has been begun. -/
  begun : ∀ job, (.job job ∈ plan ∨ ∃ j ∈ jobs, .job job ∈ j.plan p) →
    ∃ a ∈ done', job.allocation = some a
  /-- No job is done that nothing asks for. -/
  asked : ∀ P : Job → Prop, (∀ job, .job job ∈ plan → P job) →
    (∀ j job, P j → j.WellFormed p → .job job ∈ j.plan p → P job) → ∀ job ∈ jobs, P job

namespace Outcome

variable {p : Program} {done done₁ done' : List Allocation} {plan : List PlanStep}
  {parts parts' : List Part} {job : Job} {jobs jobs' : List Job} {a : Allocation}

lemma nil (p : Program) (done : List Allocation) : Outcome p done [] [] done [] where
  perm := .refl _
  mem_done := by simp
  fresh := by simp
  nodup := by simp
  wellFormed := by simp
  begun := by simp
  asked := by simp

lemma cons_part (h : Outcome p done plan parts done' jobs) (part : Part) :
    Outcome p done (.part part :: plan) (part :: parts) done' jobs where
  perm := h.perm.cons part
  mem_done := h.mem_done
  fresh := h.fresh
  nodup := h.nodup
  wellFormed := h.wellFormed
  begun job hjob := h.begun job (by simpa using hjob)
  asked P hP := h.asked P fun job hjob => hP job (List.mem_cons_of_mem _ hjob)

lemma cons_again (h : Outcome p done plan parts done' jobs) (hjob : job.allocation = some a)
    (hdone : a ∈ done) : Outcome p done (.job job :: plan) parts done' jobs where
  perm := h.perm
  mem_done := h.mem_done
  fresh := h.fresh
  nodup := h.nodup
  wellFormed := h.wellFormed
  begun j hj := by
    rcases hj with hj | hj
    · rcases List.mem_cons.1 hj with hj | hj
      · obtain ⟨⟩ := hj
        exact ⟨a, (h.mem_done a).2 (.inl hdone), hjob⟩
      · exact h.begun j (.inl hj)
    · exact h.begun j (.inr hj)
  asked P hP := h.asked P fun job hjob => hP job (List.mem_cons_of_mem _ hjob)

/-- A job that has not been begun is done before the rest of the plan is followed. -/
lemma cons_job (hjob : job.allocation = some a) (hdone : a ∉ done) (hwf : job.WellFormed p)
    (h : Outcome p (a :: done) (job.plan p) parts done₁ jobs)
    (h' : Outcome p done₁ plan parts' done' jobs') :
    Outcome p done (.job job :: plan) (parts ++ parts') done' (job :: (jobs ++ jobs')) where
  perm := by
    have hperm := h.perm.append h'.perm
    rw [planParts_job, List.flatMap_cons, List.flatMap_append,
      ← List.append_assoc (planParts (job.plan p))]
    exact hperm.trans (List.perm_append_comm_assoc _ _ _)
  mem_done b := by
    rw [h'.mem_done, h.mem_done, List.map_cons, List.map_append, hjob]
    simp only [List.mem_cons, List.mem_append, Option.some.injEq]
    tauto
  fresh j hj := by
    rcases List.mem_cons.1 hj with rfl | hj
    · exact ⟨a, hjob, hdone⟩
    rcases List.mem_append.1 hj with hj | hj
    · obtain ⟨b, hb, hnot⟩ := h.fresh j hj
      exact ⟨b, hb, fun hb => hnot (List.mem_cons_of_mem _ hb)⟩
    · obtain ⟨b, hb, hnot⟩ := h'.fresh j hj
      exact ⟨b, hb, fun hb => hnot ((h.mem_done b).2 (.inl (List.mem_cons_of_mem _ hb)))⟩
  nodup := by
    -- the rest of the plan begins nothing that the job has begun
    have hlater : ∀ b, some b ∈ jobs'.map Job.allocation → b ∉ done₁ := by
      intro b hb
      obtain ⟨j, hj, hjb⟩ := List.mem_map.1 hb
      obtain ⟨b', hb', hnot⟩ := h'.fresh j hj
      rw [hjb, Option.some.injEq] at hb'
      rwa [hb']
    rw [List.map_cons, List.map_append, List.nodup_cons, List.nodup_append]
    refine ⟨?_, h.nodup, h'.nodup, ?_⟩
    · rw [hjob, List.mem_append, not_or]
      constructor
      · intro hmem
        obtain ⟨j, hj, hja⟩ := List.mem_map.1 hmem
        obtain ⟨b, hb, hnot⟩ := h.fresh j hj
        rw [hja, Option.some.injEq] at hb
        exact hnot (hb ▸ List.mem_cons_self)
      · exact fun hmem => hlater a hmem ((h.mem_done a).2 (.inl List.mem_cons_self))
    · rintro b hb _ hb' rfl
      obtain ⟨j, hj, rfl⟩ := List.mem_map.1 hb
      obtain ⟨b, hjb, -⟩ := h.fresh j hj
      rw [hjb] at hb hb'
      exact hlater b hb' ((h.mem_done b).2 (.inr hb))
  wellFormed j hj := by
    rcases List.mem_cons.1 hj with rfl | hj
    · exact hwf
    rcases List.mem_append.1 hj with hj | hj
    · exact h.wellFormed j hj
    · exact h'.wellFormed j hj
  begun j hj := by
    have hbegun : (∃ b ∈ done₁, j.allocation = some b) → ∃ b ∈ done', j.allocation = some b := by
      rintro ⟨b, hb, hjb⟩
      exact ⟨b, (h'.mem_done b).2 (.inl hb), hjb⟩
    rcases hj with hj | ⟨j', hj', hj⟩
    · rcases List.mem_cons.1 hj with hj | hj
      · obtain ⟨⟩ := hj
        exact hbegun ⟨a, (h.mem_done a).2 (.inl List.mem_cons_self), hjob⟩
      · exact h'.begun j (.inl hj)
    · rcases List.mem_cons.1 hj' with rfl | hj'
      · exact hbegun (h.begun j (.inl hj))
      rcases List.mem_append.1 hj' with hj' | hj'
      · exact hbegun (h.begun j (.inr ⟨j', hj', hj⟩))
      · exact h'.begun j (.inr ⟨j', hj', hj⟩)
  asked P hP hclosed := by
    have hPjob : P job := hP job List.mem_cons_self
    intro j hj
    rcases List.mem_cons.1 hj with rfl | hj
    · exact hPjob
    rcases List.mem_append.1 hj with hj | hj
    · exact h.asked P (fun j' hj' => hclosed job j' hPjob hwf hj') hclosed j hj
    · exact h'.asked P (fun j' hj' => hP j' (List.mem_cons_of_mem _ hj')) hclosed j hj

end Outcome

theorem Makes.outcome {p : Program} {done done' : List Allocation} {plan : List PlanStep}
    {parts : List Part} (h : Makes p done plan parts done') :
    ∃ jobs, Outcome p done plan parts done' jobs := by
  induction h with
  | nil done => exact ⟨[], .nil p done⟩
  | part part _ ih =>
    obtain ⟨jobs, hjobs⟩ := ih
    exact ⟨jobs, hjobs.cons_part part⟩
  | again hjob hdone _ ih =>
    obtain ⟨jobs, hjobs⟩ := ih
    exact ⟨jobs, hjobs.cons_again hjob hdone⟩
  | job hjob hdone hwf _ _ ih ih' =>
    obtain ⟨jobs, hjobs⟩ := ih
    obtain ⟨jobs', hjobs'⟩ := ih'
    exact ⟨_, .cons_job hjob hdone hwf hjobs hjobs'⟩

/-! ## What a plan asks for -/

/-- The type of an element and where it is found. -/
def Part.key (part : Part) : ElementType × Allocation :=
  (part.type, part.allocation)

/-- The type of the element that a node with a slot becomes, if it becomes one, and where it is
found. -/
def Slot.key? (slot : Slot) : Option (ElementType × Allocation) :=
  slot.type.bind fun type => slot.allocation.map fun a => (type, a)

/-- Whether an element says that it is a text for display. -/
def Node.showsText (n : Node) : Bool :=
  (n.childrenTagged "ValueType").any (·.attribute? "Type" = some "text")

/-- Whether an element is a value that says that it is a text for display. -/
def Part.showsText (part : Part) : Bool :=
  part.type = .param && part.node.showsText

/-- The key of an element, and whether it is a text for display. -/
def Part.face (part : Part) : (ElementType × Allocation) × Bool :=
  (part.key, part.showsText)

/-- The key of the element that a node becomes, if it becomes one, and whether it is a literal for
display. -/
def Site.face? (site : Site) : Option ((ElementType × Allocation) × Bool) :=
  site.slot.key?.map fun key => (key, site.literal.isSome)

/-- A plan has the elements of nodes, and the jobs of what calls leave out. -/
structure Covers (p : Program) (plan : List PlanStep) (sites : List Site) (calls : List Call) :
    Prop where
  faces : (planParts plan).map Part.face = sites.filterMap Site.face?
  jobs : ∀ job, .job job ∈ plan ↔
    ∃ c ∈ calls, ∃ formal v, c.Omits p formal v ∧ job = .default formal v

namespace Covers

variable {p : Program} {plan plan' : List PlanStep} {sites sites' : List Site}
  {calls calls' : List Call}

lemma nil (p : Program) : Covers p [] [] [] :=
  ⟨rfl, by simp⟩

lemma append (h : Covers p plan sites calls) (h' : Covers p plan' sites' calls') :
    Covers p (plan ++ plan') (sites ++ sites') (calls ++ calls') where
  faces := by rw [planParts_append, List.map_append, List.filterMap_append, h.faces, h'.faces]
  jobs job := by
    rw [List.mem_append, h.jobs, h'.jobs]
    simp only [List.mem_append, or_and_right, exists_or]

/-- The elements are found where the slots say. -/
lemma keys (h : Covers p plan sites calls) :
    (planParts plan).map Part.key = (sites.map Site.slot).filterMap Slot.key? := by
  have hfaces := congrArg (List.map Prod.fst) h.faces
  rw [List.map_map, List.map_filterMap] at hfaces
  rw [List.filterMap_map]
  refine hfaces.trans (List.filterMap_congr fun site _ => ?_)
  rw [Site.face?, Option.map_map]
  exact Option.map_id_apply

/-- The element of the node in front of the others comes first. -/
lemma cons (h : Covers p plan sites calls) (site : Site) {type : ElementType} {children : List Node}
    (htype : site.type = some type) (hshows : ∀ a : Allocation,
      (⟨a.library, type, a.id, children⟩ : Part).showsText = site.literal.isSome) :
    Covers p (slotPart type site.allocation children ++ plan) (site :: sites) calls := by
  obtain ⟨_, _ | a, label, literal⟩ := site
  · obtain rfl := htype
    exact ⟨h.faces, h.jobs⟩
  · obtain rfl := htype
    refine ⟨?_, fun job => ?_⟩
    · have hface : (⟨a.library, type, a.id, children⟩ : Part).face = ((type, a), literal.isSome) := by
        rw [Part.face, hshows a]
        rfl
      exact congrArg₂ List.cons hface h.faces
    · rw [← h.jobs]
      simp [slotPart]

/-- An element that is no value shows no text. -/
lemma slotPart (h : Covers p plan sites calls) (type : ElementType) (htype : type ≠ .param)
    (slot : Option Allocation) (label : Option String) (children : List Node) :
    Covers p (slotPart type slot children ++ plan)
      ({ type := some type, allocation := slot, label } :: sites) calls := by
  refine h.cons { type := some type, allocation := slot, label } rfl fun a => ?_
  rw [Part.showsText, decide_eq_false htype]
  rfl

/-- A node that becomes no element is passed over. -/
lemma none (h : Covers p plan sites calls) {site : Site} (htype : site.type = .none) :
    Covers p plan (site :: sites) calls := by
  obtain ⟨_, allocation, label, literal⟩ := site
  obtain rfl := htype
  exact ⟨h.faces, h.jobs⟩

/-- The jobs of what a call leaves out. -/
lemma defaultsPlan (h : Covers p plan sites calls) (c : Call) {f : Callable}
    (hf : p.callable? c.callee = some f) :
    Covers p (plan ++ defaultsPlan (f.formals.drop c.args.length)) sites (c :: calls) := by
  have hjobs : ∀ job, PlanStep.job job ∈ TriggerScript.defaultsPlan (f.formals.drop c.args.length) ↔
      ∃ formal v, c.Omits p formal v ∧ job = .default formal v := by
    intro job
    simp only [TriggerScript.defaultsPlan, List.mem_flatMap, List.mem_map, Option.mem_toList,
      PlanStep.job.injEq, Call.Omits, hf, Option.some.injEq]
    constructor
    · rintro ⟨formal, hformal, v, hv, rfl⟩
      exact ⟨formal, v, ⟨f, rfl, hformal, hv⟩, rfl⟩
    · rintro ⟨formal, v, ⟨_, rfl, hformal, hv⟩, rfl⟩
      exact ⟨formal, hformal, v, hv, rfl⟩
  have hparts : planParts (TriggerScript.defaultsPlan (f.formals.drop c.args.length)) = [] := by
    rw [List.eq_nil_iff_forall_not_mem]
    intro part hpart
    simp [TriggerScript.defaultsPlan, mem_planParts] at hpart
  constructor
  · rw [planParts_append, hparts, List.append_nil, h.faces]
  · intro job
    rw [List.mem_append, hjobs, h.jobs]
    simp [or_comm]

end Covers

/-- References to slots are no types of values. -/
lemma filter_slotNodes {tag : String} (htag : tag ≠ "ValueType") (type : ElementType)
    (slot : Option Allocation) : (slotNodes tag type slot).filter (·.tag = "ValueType") = [] := by
  rcases slot with _ | a
  · rfl
  · simp [slotNodes, Node.referring, htag]

lemma filter_nameNodes (p : Program) (scope : LexicalScope) (name : String) :
    (nameNodes p scope name).filter (·.tag = "ValueType") = [] := by
  rw [nameNodes]
  rcases scope.binding? p name with _ | a | a <;> rfl

/-- Only a literal for display shows a text. -/
lemma ValueKind.showsText_part (kind : ValueKind) (p : Program) (scope : LexicalScope)
    (formal : Option Allocation) (a : Allocation) :
    (⟨a.library, .param, a.id, slotNodes "ParameterDef" .paramDef formal ++ kind.nodes p scope⟩ :
      Part).showsText = kind.displayed?.isSome := by
  have hnodes : ((kind.nodes p scope).filter (·.tag = "ValueType")).any
      (·.attribute? "Type" = some "text") = kind.displayed?.isSome := by
    rcases kind with l | ⟨preset, member⟩ | name | ⟨name, indices⟩ | c | b
    · rcases l with s | s | n | (_ | _) <;> rfl
    · rw [nodes, filter_slotNodes (by decide)]
      rfl
    · rw [nodes, filter_nameNodes]
      rfl
    · have hindices : (indices.flatMap fun v => slotNodes "Array" .param v.allocation).filter
          (·.tag = "ValueType") = [] := by
        rw [List.filter_flatMap, List.flatMap_eq_nil_iff]
        exact fun v _ => filter_slotNodes (by decide) _ _
      rw [nodes, List.filter_append, filter_nameNodes, hindices]
      rfl
    · rw [nodes, filter_slotNodes (by decide)]
      rfl
    · rfl
  rw [← hnodes]
  show ((slotNodes "ParameterDef" .paramDef formal ++ kind.nodes p scope).filter
    (·.tag = "ValueType")).any (·.attribute? "Type" = some "text") = _
  rw [List.filter_append, filter_slotNodes (by decide), List.nil_append]

lemma actualsPlan_value_covers {p : Program} {names : Set String} {depth : Nat} {scope : LexicalScope}
    {v : Value} {args : List Value} {formal : Formal} {formals : List Formal}
    (hv : ∀ b allocation, v = ⟨.block b, allocation⟩ → False)
    (hvalue : v.WellFormed p names depth →
      Covers p (v.plan p scope formal.allocation) v.sites v.calls)
    (hargs : actualsWellFormed p names depth args formals →
      Covers p (actualsPlan p scope args formals) (valuesSites args) (valuesCalls args))
    (hwf : actualsWellFormed p names depth (v :: args) (formal :: formals)) :
    Covers p (actualsPlan p scope (v :: args) (formal :: formals)) (valuesSites (v :: args))
      (valuesCalls (v :: args)) := by
  rw [actualsWellFormed.eq_4 _ _ _ _ _ _ _ hv] at hwf
  rw [actualsPlan.eq_4 _ _ _ _ _ _ hv, valuesSites, valuesCalls]
  exact (hvalue hwf.1.2).append (hargs hwf.2)

mutual

lemma Value.covers {p : Program} {names : Set String} {depth : Nat} (scope : LexicalScope)
    (formal : Option Allocation) : ∀ v : Value, v.WellFormed p names depth →
      Covers p (v.plan p scope formal) v.sites v.calls
  | ⟨kind, allocation⟩, hwf => by
    rw [Value.WellFormed] at hwf
    rw [Value.plan, Value.sites, Value.calls]
    obtain ⟨htype, hkind⟩ := ValueKind.covers scope kind hwf.2
    exact hkind.cons (kind.site allocation) htype (kind.showsText_part p scope formal)

lemma ValueKind.covers {p : Program} {names : Set String} {depth : Nat} (scope : LexicalScope) :
    ∀ kind : ValueKind, kind.WellFormed p names depth →
      kind.elementType? = some .param ∧ Covers p (kind.plan p scope) kind.sites kind.calls
  | .literal _, _ => by
    rw [ValueKind.plan, ValueKind.sites, ValueKind.calls]
    exact ⟨rfl, .nil p⟩
  | .presetMember _ _, _ => by
    rw [ValueKind.plan, ValueKind.sites, ValueKind.calls]
    exact ⟨rfl, .nil p⟩
  | .variable _, _ => by
    rw [ValueKind.plan, ValueKind.sites, ValueKind.calls]
    exact ⟨rfl, .nil p⟩
  | .arrayElement _ indices, hwf => by
    rw [ValueKind.WellFormed] at hwf
    rw [ValueKind.plan, ValueKind.sites, ValueKind.calls]
    exact ⟨rfl, values_covers scope indices hwf.2⟩
  | .call c, hwf => by
    rw [ValueKind.WellFormed] at hwf
    rw [ValueKind.plan, ValueKind.sites, ValueKind.calls]
    exact ⟨rfl, Call.covers scope none c hwf⟩
  | .block _, hwf => by
    rw [ValueKind.WellFormed] at hwf
    exact hwf.elim

lemma values_covers {p : Program} {names : Set String} {depth : Nat} (scope : LexicalScope) :
    ∀ vs : List Value, valuesWellFormed p names depth vs →
      Covers p (valuesPlan p scope vs) (valuesSites vs) (valuesCalls vs)
  | [], _ => by
    rw [valuesPlan, valuesSites, valuesCalls]
    exact .nil p
  | v :: rest, hwf => by
    rw [valuesWellFormed] at hwf
    rw [valuesPlan, valuesSites, valuesCalls]
    exact (Value.covers scope none v hwf.1).append (values_covers scope rest hwf.2)

lemma Call.covers {p : Program} {names : Set String} {depth : Nat} (scope : LexicalScope)
    (formal : Option Allocation) : ∀ c : Call, c.WellFormed p names depth →
      Covers p (c.plan p scope formal) c.sites c.calls
  | ⟨callee, args, allocation⟩, hwf => by
    rw [Call.WellFormed] at hwf
    obtain ⟨-, f, hf, hlength, -, hargs⟩ := hwf
    rw [Call.plan, Call.sites, Call.calls, hf]
    simp only [List.append_assoc (TriggerScript.slotPart _ _ _)]
    exact ((actuals_covers scope args f.formals hlength hargs).defaultsPlan ⟨callee, args, allocation⟩
      hf).slotPart _ (by decide) _ _ _

lemma actuals_covers {p : Program} {names : Set String} {depth : Nat} (scope : LexicalScope) :
    ∀ (args : List Value) (formals : List Formal), args.length ≤ formals.length →
      actualsWellFormed p names depth args formals →
      Covers p (actualsPlan p scope args formals) (valuesSites args) (valuesCalls args)
  | [], _, _, _ => by
    rw [actualsPlan, valuesSites, valuesCalls]
    exact .nil p
  | _ :: _, [], hlength, _ => absurd hlength (by simp)
  | ⟨kind, allocation⟩ :: args, formal :: formals, hlength, hwf => by
    cases kind with
    | block b =>
      rw [actualsWellFormed] at hwf
      rw [actualsPlan, valuesSites, valuesCalls, Value.sites, Value.calls, ValueKind.sites,
        ValueKind.calls]
      exact ((Block.covers scope.openBlock formal.allocation b hwf.1.2).none rfl).append
        (actuals_covers scope args formals (Nat.le_of_succ_le_succ hlength) hwf.2)
    | _ =>
      exact actualsPlan_value_covers nofun (Value.covers scope _ _)
        (actuals_covers scope args formals (Nat.le_of_succ_le_succ hlength)) hwf

lemma Block.covers {p : Program} {names : Set String} {depth : Nat} (scope : LexicalScope)
    (formal : Option Allocation) : ∀ b : Block, b.WellFormed p names depth →
      Covers p (b.plan p scope formal) b.sites b.calls
  | ⟨locals, statements⟩, hwf => by
    rw [Block.WellFormed] at hwf
    rw [Block.plan, Block.sites, Block.calls]
    exact (locals_covers scope locals hwf.1).append
      (calls_covers (scope.declare locals) formal statements hwf.2)

lemma VariableDef.covers {p : Program} {names : Set String} {depth : Nat} (scope : LexicalScope) :
    ∀ d : VariableDef, d.WellFormed p names depth → Covers p (d.plan p scope) d.sites d.calls
  | ⟨attributes, ty, name, v, allocation⟩, hwf => by
    rw [VariableDef.WellFormed] at hwf
    rw [VariableDef.plan, VariableDef.sites, VariableDef.calls]
    exact (Value.covers scope none v hwf.2.2).slotPart _ (by decide) _ _ _

lemma calls_covers {p : Program} {names : Set String} {depth : Nat} (scope : LexicalScope)
    (formal : Option Allocation) : ∀ cs : List Call, callsWellFormed p names depth cs →
      Covers p (callsPlan p scope formal cs) (callsSites cs) (callsCalls cs)
  | [], _ => by
    rw [callsPlan, callsSites, callsCalls]
    exact .nil p
  | c :: rest, hwf => by
    rw [callsWellFormed] at hwf
    rw [callsPlan, callsSites, callsCalls]
    exact (Call.covers scope formal c hwf.1).append (calls_covers scope formal rest hwf.2)

lemma locals_covers {p : Program} {names : Set String} {depth : Nat} (scope : LexicalScope) :
    ∀ ds : List VariableDef, localsWellFormed p names depth ds →
      Covers p (localsPlan p scope ds) (variablesSites ds) (variablesCalls ds)
  | [], _ => by
    rw [localsPlan, variablesSites, variablesCalls]
    exact .nil p
  | d :: rest, hwf => by
    rw [localsWellFormed] at hwf
    rw [localsPlan, variablesSites, variablesCalls]
    exact (VariableDef.covers scope d hwf.1).append (locals_covers _ rest hwf.2)

end

lemma params_covers {p : Program} {names : Set String} {scope : LexicalScope}
    {params : List ParamDef} (hwf : paramsWellFormed p names params) :
    Covers p (paramsPlan p scope params) (params.flatMap ParamDef.sites)
      (params.flatMap fun q => q.default.toList.flatMap Value.calls) := by
  induction params generalizing names scope with
  | nil => exact .nil p
  | cons d rest ih =>
    obtain ⟨⟨-, -, hdefault⟩, hrest⟩ := hwf
    have hd : Covers p (d.default.toList.flatMap (Value.plan p {} none))
        (defaultSites d.default) (d.default.toList.flatMap Value.calls) := by
      rcases hv : d.default with _ | v
      · exact .nil p
      · simpa [defaultSites] using Value.covers {} none v (hdefault v hv)
    rw [paramsPlan, ParamDef.plan, List.flatMap_cons, List.flatMap_cons, ParamDef.sites]
    exact (hd.slotPart _ (by decide) _ _ _).append (ih hrest)

lemma PresetDef.covers {p : Program} {d : PresetDef} {library : String}
    (hwithin : Within library (Definition.preset d).slots) :
    Covers p (d.memberParts.map .part) (d.members.map PresetMember.site) [] := by
  refine ⟨?_, by simp⟩
  rw [Definition.slots, Within, List.forall_mem_cons] at hwithin
  obtain ⟨⟨a, ha, rfl⟩, hmembers⟩ := hwithin
  simp only at ha
  rw [planParts_map_part, memberParts, ha]
  simp only [Option.toList_some, List.flatMap_cons, List.flatMap_nil, List.append_nil]
  generalize d.members = members at hmembers ⊢
  induction members with
  | nil => rfl
  | cons m rest ih =>
    rw [List.map_cons, List.forall_mem_cons] at hmembers
    obtain ⟨⟨b, hb, hlibrary⟩, hrest⟩ := hmembers
    have hm : m.allocation = some b := hb
    rw [List.flatMap_cons, List.map_append, ih hrest, List.map_cons, hm]
    simp [Part.face, Part.key, Part.showsText, Part.allocation, PresetMember.site, Site.face?,
      Site.slot, Slot.key?, hm, ← hlibrary]

lemma FunctionDef.covers {p : Program} {d : FunctionDef} (hwf : (Definition.function d).WellFormed p) :
    Covers p ((Definition.function d).plan p) (Definition.function d).sites
      (Definition.function d).calls := by
  obtain ⟨-, -, hparams, hbody⟩ := hwf
  rw [Definition.plan, List.append_assoc]
  exact ((params_covers hparams).append (d.body.covers _ none hbody)).slotPart _ (by decide) _ _ _

lemma TriggerDef.covers {p : Program} {d : TriggerDef} (hwf : (Definition.trigger d).WellFormed p) :
    Covers p ((Definition.trigger d).plan p) (Definition.trigger d).sites
      (Definition.trigger d).calls := by
  obtain ⟨-, hevent, hbody⟩ := hwf
  rw [Definition.plan, List.append_assoc]
  exact ((d.event.covers _ none hevent).append (d.body.covers _ none hbody)).slotPart _ (by decide) _ _ _

lemma Definition.covers {p : Program} {d : Definition} {library : String} (hwf : d.WellFormed p)
    (hwithin : Within library d.slots) : Covers p (d.plan p) d.sites d.calls := by
  rcases d with d | d | d | d
  · exact (d.covers hwithin).slotPart _ (by decide) _ _ _
  · exact d.covers {} hwf
  · exact d.covers hwf
  · exact d.covers hwf

/-- The calls of a job. -/
def Job.calls : Job → List Call
  | definition d => d.calls
  | default _ v => v.calls

lemma Job.covers {p : Program} {job : Job} {library : String} (hwf : job.WellFormed p)
    (hwithin : Within library job.slots) : Covers p (job.plan p) job.sites job.calls := by
  rcases job with d | ⟨formal, v⟩
  · exact d.covers hwf hwithin
  · exact v.covers {} formal.allocation hwf

/-- A job asks for what its calls leave out, whatever its slots hold. -/
lemma Job.job_mem_plan_iff {p : Program} {job j : Job} (hwf : job.WellFormed p) :
    .job j ∈ job.plan p ↔ ∃ c ∈ job.calls, ∃ formal v, c.Omits p formal v ∧ j = .default formal v := by
  rcases job with (d | d | d | d) | ⟨formal, v⟩
  · simp [plan, Definition.plan, slotPart, calls, Definition.calls]
  · exact (d.covers {} hwf).jobs j
  · exact (d.covers hwf).jobs j
  · exact (d.covers hwf).jobs j
  · exact (v.covers {} formal.allocation hwf).jobs j

end TriggerScript
