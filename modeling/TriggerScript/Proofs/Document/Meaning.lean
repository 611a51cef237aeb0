import TriggerScript.Proofs.Document.Contents
import TriggerScript.Proofs.Document.Representation

/-!
# A document says what its program says

The elements of the plan of a well-formed tree represent the tree, in any document that has these
elements. This is shown along the tree, for values, calls, blocks and variables together; on the way
the scope in which the plan is drawn up gives names the same meaning as the environment
(`LexicalScope.Means`).

The main result is `Document.represents_definitions`.
-/

namespace TriggerScript

/-! ## Scopes and environments -/

namespace LexicalScope

variable {p : Program} {scope : LexicalScope} {env : Environment} {nested : Bool}

/-- A scope gives all names the meaning that they have in an environment. -/
def Means (p : Program) (scope : LexicalScope) (env : Environment) : Prop :=
  ∀ name, scope.binding? p name = env name

/-- Whether a block is open. -/
def Nested (scope : LexicalScope) (nested : Bool) : Prop :=
  nested = true ↔ scope.blocks ≠ []

lemma means_globals (p : Program) : Means p {} (.globals p) :=
  fun _ => rfl

lemma nested_empty : Nested {} false := by
  simp [Nested]

lemma Means.openBlock (h : scope.Means p env) : scope.openBlock.Means p env := by
  intro name
  rw [← h name, binding?, binding?, LexicalScope.openBlock, local?, local?]
  rfl

lemma nested_openBlock (scope : LexicalScope) : scope.openBlock.Nested true := by
  simp [Nested, openBlock]

lemma Nested.addLocal (h : scope.Nested nested) (name : String) (a : Allocation) :
    (scope.addLocal name a).Nested nested := by
  obtain ⟨_ | ⟨block, outer⟩, parameters, locals⟩ := scope <;>
    simpa [Nested, LexicalScope.addLocal] using h

/-- Where no block is open, a name that means a parameter has been declared as one. -/
lemma Means.parameter_iff (h : scope.Means p env) (houter : scope.blocks = []) {name : String}
    {a : Allocation} :
    env name = some (.parameter a) ↔ scope.parameters.lookup name = some a := by
  rw [← h name, binding?, local?, houter]
  rcases hparameter : scope.parameters.lookup name with _ | b
  · rcases scope.locals.lookup name with _ | b
    · rcases (p.global? name).bind (·.allocation) with _ | b <;> simp
    · simp
  · simp

lemma Means.addLocal (h : scope.Means p env) (hnested : scope.Nested nested) (name : String)
    (a : Allocation) : (scope.addLocal name a).Means p (env.bindLocal nested name a) := by
  intro other
  have hbind : ∀ {b : Binding}, (scope.addLocal name a).local? other =
      (if other = name then some b else scope.local? other) →
      (scope.addLocal name a).binding? p other = env.bind name b other := by
    intro b hlocal
    rw [binding?, hlocal, Environment.bind]
    split_ifs
    · rfl
    · exact h other
  -- outside of blocks it matters whether a parameter has the same name
  by_cases hblocks : scope.blocks = []
  · obtain rfl : nested = false := by simpa [Nested, hblocks] using hnested
    have hlocal := local?_addLocal_of_outer hblocks name a other
    rcases hparameter : scope.parameters.lookup name with _ | b
    · have hvisible : env.bindLocal false name a = env.bind name (.variable a) := by
        unfold Environment.bindLocal
        split
        · rename_i henv
          simp [(h.parameter_iff hblocks).1 henv] at hparameter
        · rfl
      rw [hparameter] at hlocal
      rw [hvisible]
      exact hbind hlocal
    · have henv := (h.parameter_iff hblocks).2 hparameter
      have hhidden : env.bindLocal false name a = env := by
        simp only [Environment.bindLocal, henv]
      rw [hparameter] at hlocal
      rw [hhidden, hbind hlocal, Environment.bind]
      split_ifs with hother
      · rw [hother, henv]
        rfl
      · rfl
  · obtain rfl : nested = true := by simpa [Nested, hblocks] using hnested
    exact hbind (local?_addLocal_of_block hblocks name a other)

lemma Means.addParameter (h : scope.Means p env) (houter : scope.blocks = []) (name : String)
    (a : Allocation) : (scope.addParameter name a).Means p (env.bind name (.parameter a)) := by
  intro other
  rw [binding?, local?_addParameter houter, Environment.bind]
  split_ifs
  · rfl
  · exact h other

/-- The meaning of a name that is bound. -/
lemma Means.exists_of_binds (h : scope.Means p env) (hp : p.Filled) {name : String}
    (hname : p.Binds scope.names name) :
    ∃ b, scope.binding? p name = some b ∧ env name = some b := by
  obtain ⟨b, hb⟩ := exists_binding?_of_binds hp.global hname
  exact ⟨b, hb, (h name).symm.trans hb⟩

end LexicalScope

/-! ## Elements and references -/

/-- A document has the elements of a plan. -/
def Realised (tree : Node) (plan : List PlanStep) : Prop :=
  ∀ part, .part part ∈ plan → tree.HasElement part.type part.allocation part.children

namespace Realised

variable {tree : Node} {plan plan' : List PlanStep}

lemma append_iff : Realised tree (plan ++ plan') ↔ Realised tree plan ∧ Realised tree plan' := by
  simp only [Realised, List.mem_append, or_imp, forall_and]

lemma slotPart {type : ElementType} {a : Allocation} {children : List Node}
    (h : Realised tree (slotPart type (some a) children)) : tree.HasElement type a children := by
  obtain ⟨library, id⟩ := a
  exact h ⟨library, type, id, children⟩ List.mem_cons_self

end Realised

/-- References to things that all have allocations. -/
lemma flatMap_slotNodes {α : Type} {slot : α → Option Allocation} {xs : List α}
    {targets : List Allocation} (h : xs.map slot = targets.map some) (tag : String)
    (type : ElementType) :
    (xs.flatMap fun x => slotNodes tag type (slot x)) = references tag type targets := by
  induction xs generalizing targets with
  | nil =>
    obtain rfl := List.map_eq_nil_iff.1 h.symm
    rfl
  | cons x rest ih =>
    rcases targets with _ | ⟨a, targets⟩
    · simp at h
    · simp only [List.map_cons, List.cons.injEq] at h
      rw [List.flatMap_cons, ih h.2, slotNodes, h.1]
      rfl

/-- Things that all have allocations. -/
lemma exists_targets {α : Type} {slot : α → Option Allocation} {xs : List α}
    (h : ∀ x ∈ xs, (slot x).isSome) : ∃ targets : List Allocation, xs.map slot = targets.map some := by
  induction xs with
  | nil => exact ⟨[], rfl⟩
  | cons x rest ih =>
    rw [List.forall_mem_cons] at h
    obtain ⟨a, ha⟩ := Option.isSome_iff_exists.1 h.1
    obtain ⟨targets, htargets⟩ := ih h.2
    exact ⟨a :: targets, by rw [List.map_cons, ha, htargets]; rfl⟩

/-- The default values that are left out are referred to in order. -/
lemma defaultsNodes_eq {formals : List Formal} {targets : List Allocation}
    (h : (formals.filterMap Formal.externalDefault).map Value.allocation = targets.map some) :
    defaultsNodes formals = references "Default" .param targets := by
  rw [← flatMap_slotNodes h]
  clear h
  induction formals with
  | nil => rfl
  | cons formal rest ih =>
    rcases hdefault : formal.externalDefault with _ | v <;>
      simpa [defaultsNodes, hdefault] using ih

/-! ## Types -/

lemma DimensionsWritten.of_nodes {p : Program} {scope : LexicalScope} {env : Environment}
    (hp : p.Filled) (hmeans : scope.Means p env) {dims : List Dimension} {index : Nat}
    (hwf : ∀ name, .variable name ∈ dims → p.Binds scope.names name) :
    DimensionsWritten env index dims (dimensionsNodes p scope index dims) := by
  induction dims generalizing index with
  | nil => exact .nil
  | cons d rest ih =>
    have hrest := @ih (index + 1) fun name hname => hwf name (List.mem_cons_of_mem _ hname)
    rcases d with n | name
    · exact .size hrest
    · obtain ⟨b, hb, hname⟩ := hmeans.exists_of_binds hp (hwf name List.mem_cons_self)
      rw [dimensionsNodes, Dimension.nodes, hb]
      exact .variable hname hrest

lemma TypeRef.written {p : Program} {scope : LexicalScope} {env : Environment} (hp : p.Filled)
    (hmeans : scope.Means p env) {ty : TypeRef} (hwf : ty.WellFormed p scope.names) (tag : String) :
    ty.Written env tag (ty.node p scope tag) :=
  ⟨.of_nodes hp hmeans hwf⟩

/-! ## Values, calls, blocks and variables -/

section Trees

variable {tree : Node} {p : Program} {env : Environment}

/-- A value is represented where it is handed to a parameter, and so are the other values. -/
lemma ActualsRepresented.of_value {scope : LexicalScope} {depth : Nat} {v : Value} {args : List Value}
    {formal : Formal} {formals : List Formal}
    (hv : ∀ b allocation, v = ⟨.block b, allocation⟩ → False)
    (hformals : ∀ formal' ∈ formal :: formals, formal'.allocation.isSome)
    (hvalue : v.WellFormed p scope.names depth → Full v.slots →
      Realised tree (v.plan p scope formal.allocation) →
      ∃ a, v.allocation = some a ∧ v.Represented tree p env formal.allocation a)
    (hargs : actualsWellFormed p scope.names depth args formals → Full (valuesSlots args) →
      Realised tree (actualsPlan p scope args formals) →
      ActualsRepresented tree p env args (formals.take args.length) (actualsNodes args formals))
    (hwf : actualsWellFormed p scope.names depth (v :: args) (formal :: formals))
    (hfull : Full (valuesSlots (v :: args)))
    (hplan : Realised tree (actualsPlan p scope (v :: args) (formal :: formals))) :
    ActualsRepresented tree p env (v :: args) ((formal :: formals).take (v :: args).length)
      (actualsNodes (v :: args) (formal :: formals)) := by
  rw [actualsWellFormed.eq_4 _ _ _ _ _ _ _ hv] at hwf
  rw [valuesSlots, Full, List.forall_mem_append] at hfull
  rw [actualsPlan.eq_4 _ _ _ _ _ _ hv, Realised.append_iff] at hplan
  obtain ⟨q, hq⟩ := Option.isSome_iff_exists.1 (hformals formal List.mem_cons_self)
  obtain ⟨a, ha, hrepresented⟩ := hvalue hwf.1.2 hfull.1 hplan.1
  rw [hq] at hrepresented
  rw [actualsNodes, Lower.actualNodes_of_not_block hv, ha]
  exact .value hwf.1.1 hq hrepresented (hargs hwf.2 hfull.2 hplan.2)

mutual

lemma Value.represented (hp : p.Filled) {env : Environment} {scope : LexicalScope}
    {formal : Option Allocation} {depth : Nat} (hmeans : scope.Means p env) : ∀ v : Value,
      v.WellFormed p scope.names depth → Full v.slots → Realised tree (v.plan p scope formal) →
      ∃ a, v.allocation = some a ∧ v.Represented tree p env formal a
  | ⟨kind, allocation⟩, hwf, hfull, hplan => by
    rw [Value.WellFormed] at hwf
    rw [Value.slots, Full, List.forall_mem_cons] at hfull
    rw [Value.plan, Realised.append_iff] at hplan
    obtain ⟨a, rfl⟩ := Option.isSome_iff_exists.1 hfull.1
    exact ⟨a, rfl, .mk (ValueKind.represented hp hmeans kind hwf.2 hfull.2 hplan.2) hplan.1.slotPart⟩

lemma ValueKind.represented (hp : p.Filled) {env : Environment} {scope : LexicalScope} {depth : Nat}
    (hmeans : scope.Means p env) : ∀ kind : ValueKind, kind.WellFormed p scope.names depth →
      Full kind.slots → Realised tree (kind.plan p scope) →
      kind.Represented tree p env (kind.nodes p scope)
  | .literal l, _, _, _ => by
    rw [ValueKind.nodes]
    exact .literal l
  | .presetMember preset member, hwf, _, _ => by
    rw [ValueKind.WellFormed] at hwf
    obtain ⟨q, hq, hmember⟩ := hwf
    obtain ⟨a, ha⟩ := Option.isSome_iff_exists.1 hmember
    rw [ValueKind.nodes, hq, Option.bind_some, ha]
    exact .presetMember hq ha
  | .variable name, hwf, _, _ => by
    rw [ValueKind.WellFormed] at hwf
    obtain ⟨b, hb, hname⟩ := hmeans.exists_of_binds hp hwf
    rw [ValueKind.nodes, nameNodes, hb]
    exact .variable hname
  | .arrayElement name indices, hwf, hfull, hplan => by
    rw [ValueKind.WellFormed] at hwf
    rw [ValueKind.slots] at hfull
    rw [ValueKind.plan] at hplan
    obtain ⟨b, hb, hname⟩ := hmeans.exists_of_binds hp hwf.1
    obtain ⟨targets, htargets, hindices⟩ := values_represented hp hmeans indices hwf.2 hfull hplan
    rw [ValueKind.nodes, nameNodes, hb, flatMap_slotNodes htargets]
    exact .arrayElement hname hindices
  | .call c, hwf, hfull, hplan => by
    rw [ValueKind.WellFormed] at hwf
    rw [ValueKind.slots] at hfull
    rw [ValueKind.plan] at hplan
    obtain ⟨a, ha, hcall⟩ := Call.represented hp hmeans c hwf hfull hplan
    rw [ValueKind.nodes, ha]
    exact .call hcall
  | .block _, hwf, _, _ => by
    rw [ValueKind.WellFormed] at hwf
    exact hwf.elim

lemma values_represented (hp : p.Filled) {env : Environment} {scope : LexicalScope} {depth : Nat}
    (hmeans : scope.Means p env) : ∀ vs : List Value, valuesWellFormed p scope.names depth vs →
      Full (valuesSlots vs) → Realised tree (valuesPlan p scope vs) →
      ∃ targets, vs.map Value.allocation = targets.map some ∧ ValuesRepresented tree p env vs targets
  | [], _, _, _ => ⟨[], rfl, .nil⟩
  | v :: rest, hwf, hfull, hplan => by
    rw [valuesWellFormed] at hwf
    rw [valuesSlots, Full, List.forall_mem_append] at hfull
    rw [valuesPlan, Realised.append_iff] at hplan
    obtain ⟨a, ha, hvalue⟩ := Value.represented hp hmeans v hwf.1 hfull.1 hplan.1
    obtain ⟨targets, htargets, hrest⟩ := values_represented hp hmeans rest hwf.2 hfull.2 hplan.2
    exact ⟨a :: targets, by rw [List.map_cons, ha, htargets]; rfl, .cons hvalue hrest⟩

lemma Call.represented (hp : p.Filled) {env : Environment} {scope : LexicalScope}
    {formal : Option Allocation} {depth : Nat} (hmeans : scope.Means p env) : ∀ c : Call,
      c.WellFormed p scope.names depth → Full c.slots → Realised tree (c.plan p scope formal) →
      ∃ a, c.allocation = some a ∧ c.Represented tree p env formal a
  | ⟨callee, args, allocation⟩, hwf, hfull, hplan => by
    rw [Call.WellFormed] at hwf
    obtain ⟨-, f, hf, hlength, -, hargs⟩ := hwf
    rw [Call.slots, Full, List.forall_mem_cons] at hfull
    obtain ⟨a, rfl⟩ := Option.isSome_iff_exists.1 hfull.1
    obtain ⟨target, htarget⟩ := Option.isSome_iff_exists.1 (hp.callable hf)
    rw [Call.plan, hf] at hplan
    simp only [htarget, Realised.append_iff] at hplan
    obtain ⟨⟨helement, hactuals⟩, -⟩ := hplan
    -- what is left out has been numbered with the imported entity
    obtain ⟨defaults, hdefaults⟩ :
        ∃ defaults : List Allocation, ((f.formals.drop args.length).filterMap
          Formal.externalDefault).map Value.allocation = defaults.map some := by
      refine exists_targets fun v hv => ?_
      obtain ⟨formal', hformal', hv⟩ := List.mem_filterMap.1 hv
      obtain ⟨rest, hslots⟩ := v.slots_head
      refine hp.default hf formal' (List.mem_of_mem_drop hformal') v hv ⟨v.kind.elementType?, _⟩ ?_
      rw [hslots]
      exact List.mem_cons_self
    rw [defaultsNodes_eq hdefaults] at helement
    exact ⟨a, rfl, .mk hf htarget (actuals_represented hp hmeans args f.formals hlength (hp.formal hf)
      hargs hfull.2 hactuals) hdefaults helement.slotPart⟩

lemma actuals_represented (hp : p.Filled) {env : Environment} {scope : LexicalScope} {depth : Nat}
    (hmeans : scope.Means p env) : ∀ (args : List Value) (formals : List Formal),
      args.length ≤ formals.length → (∀ formal ∈ formals, formal.allocation.isSome) →
      actualsWellFormed p scope.names depth args formals → Full (valuesSlots args) →
      Realised tree (actualsPlan p scope args formals) →
      ActualsRepresented tree p env args (formals.take args.length) (actualsNodes args formals)
  | [], formals, _, _, _, _, _ => by
    rw [actualsNodes]
    exact .nil
  | _ :: _, [], hlength, _, _, _, _ => absurd hlength (by simp)
  | ⟨kind, allocation⟩ :: args, formal :: formals, hlength, hformals, hwf, hfull, hplan => by
    cases kind with
    | block b =>
      rw [actualsWellFormed] at hwf
      rw [valuesSlots, Value.slots, ValueKind.slots, Full, List.forall_mem_append,
        List.forall_mem_cons] at hfull
      rw [actualsPlan, Realised.append_iff] at hplan
      rw [List.forall_mem_cons] at hformals
      obtain ⟨q, hq⟩ := Option.isSome_iff_exists.1 hformals.1
      rw [hq] at hplan
      rw [← LexicalScope.names_openBlock] at hwf
      obtain ⟨locals, statements, hnodes, hblock⟩ := Block.represented hp "FunctionCall"
        hmeans.openBlock scope.nested_openBlock b hwf.1.2 hfull.1.2 hplan.1
      have hrest := actuals_represented hp hmeans args formals (Nat.le_of_succ_le_succ hlength)
        hformals.2 hwf.2 hfull.2 hplan.2
      have hactual : actualNodes ⟨.block b, allocation⟩ = b.nodes "FunctionCall" := rfl
      rw [actualsNodes, hactual, hnodes]
      exact .block hwf.1.1 hq hblock hrest
    | _ =>
      refine .of_value nofun hformals (Value.represented hp hmeans _) ?_ hwf hfull hplan
      exact actuals_represented hp hmeans args formals (Nat.le_of_succ_le_succ hlength)
        (List.forall_mem_cons.1 hformals).2

lemma Block.represented (hp : p.Filled) {env : Environment} {scope : LexicalScope} {nested : Bool}
    {formal : Option Allocation} {depth : Nat} (tag : String) (hmeans : scope.Means p env)
    (hnested : scope.Nested nested) : ∀ b : Block, b.WellFormed p scope.names depth → Full b.slots →
      Realised tree (b.plan p scope formal) →
      ∃ locals statements, b.nodes tag = references "Variable" .variable locals ++
          references tag .functionCall statements ∧
        b.Represented tree p env nested formal locals statements
  | ⟨ds, cs⟩, hwf, hfull, hplan => by
    rw [Block.WellFormed] at hwf
    rw [Block.slots, Full, List.forall_mem_append] at hfull
    rw [Block.plan, Realised.append_iff] at hplan
    obtain ⟨locals, hlocals, hds, hmeans'⟩ :=
      locals_represented hp hmeans hnested ds hwf.1 hfull.1 hplan.1
    have hnames : (scope.declare ds).names = declare scope.names ds := by
      refine LexicalScope.names_declare fun d hd => ?_
      have hmem : d.allocation ∈ locals.map some := by
        rw [← hlocals]
        exact List.mem_map.2 ⟨d, hd, rfl⟩
      obtain ⟨a, -, ha⟩ := List.mem_map.1 hmem
      rw [← ha]
      rfl
    rw [← hnames] at hwf
    obtain ⟨statements, hstatements, hcs⟩ :=
      calls_represented hp hmeans' cs hwf.2 hfull.2 hplan.2
    exact ⟨locals, statements, congrArg₂ (· ++ ·) (flatMap_slotNodes hlocals _ _)
      (flatMap_slotNodes hstatements _ _), .mk hds hcs⟩

lemma locals_represented (hp : p.Filled) {env : Environment} {scope : LexicalScope} {nested : Bool}
    {depth : Nat} (hmeans : scope.Means p env) (hnested : scope.Nested nested) :
    ∀ ds : List VariableDef, localsWellFormed p scope.names depth ds → Full (variablesSlots ds) →
      Realised tree (localsPlan p scope ds) →
      ∃ targets, ds.map VariableDef.allocation = targets.map some ∧
        LocalsRepresented tree p env nested ds targets ∧
        (scope.declare ds).Means p (env.bindLocals nested ((ds.map VariableDef.name).zip targets))
  | [], _, _, _ => ⟨[], rfl, .nil, hmeans⟩
  | d :: rest, hwf, hfull, hplan => by
    rw [localsWellFormed] at hwf
    rw [variablesSlots, Full, List.forall_mem_append] at hfull
    rw [localsPlan, Realised.append_iff] at hplan
    obtain ⟨a, ha, hd⟩ := VariableDef.represented hp hmeans d hwf.1 hfull.1 hplan.1
    have hdeclare : scope.declare [d] = scope.addLocal d.name a := by
      simp [LexicalScope.declare, ha]
    rw [hdeclare] at hplan
    rw [← LexicalScope.names_addLocal scope d.name a] at hwf
    obtain ⟨targets, htargets, hrest, hmeans'⟩ := locals_represented hp
      (hmeans.addLocal hnested d.name a) (hnested.addLocal d.name a) rest hwf.2 hfull.2 hplan.2
    refine ⟨a :: targets, by rw [List.map_cons, ha, htargets]; rfl, .cons hd hrest, ?_⟩
    rw [LexicalScope.declare, ha]
    exact hmeans'

lemma calls_represented (hp : p.Filled) {env : Environment} {scope : LexicalScope}
    {formal : Option Allocation} {depth : Nat} (hmeans : scope.Means p env) :
    ∀ cs : List Call, callsWellFormed p scope.names depth cs → Full (callsSlots cs) →
      Realised tree (callsPlan p scope formal cs) →
      ∃ targets, cs.map Call.allocation = targets.map some ∧
        CallsRepresented tree p env formal cs targets
  | [], _, _, _ => ⟨[], rfl, .nil⟩
  | c :: rest, hwf, hfull, hplan => by
    rw [callsWellFormed] at hwf
    rw [callsSlots, Full, List.forall_mem_append] at hfull
    rw [callsPlan, Realised.append_iff] at hplan
    obtain ⟨a, ha, hc⟩ := Call.represented hp hmeans c hwf.1 hfull.1 hplan.1
    obtain ⟨targets, htargets, hrest⟩ := calls_represented hp hmeans rest hwf.2 hfull.2 hplan.2
    exact ⟨a :: targets, by rw [List.map_cons, ha, htargets]; rfl, .cons hc hrest⟩

lemma VariableDef.represented (hp : p.Filled) {env : Environment} {scope : LexicalScope} {depth : Nat}
    (hmeans : scope.Means p env) : ∀ d : VariableDef, d.WellFormed p scope.names depth →
      Full d.slots → Realised tree (d.plan p scope) →
      ∃ a, d.allocation = some a ∧ d.Represented tree p env a
  | ⟨attributes, ty, name, v, allocation⟩, hwf, hfull, hplan => by
    rw [VariableDef.WellFormed] at hwf
    rw [VariableDef.slots, Full, List.forall_mem_cons] at hfull
    rw [VariableDef.plan, Realised.append_iff] at hplan
    obtain ⟨a, rfl⟩ := Option.isSome_iff_exists.1 hfull.1
    obtain ⟨initial, hinitial, hvalue⟩ := Value.represented hp hmeans v hwf.2.2 hfull.2 hplan.2
    have helement := hplan.1.slotPart
    rw [hinitial] at helement
    exact ⟨a, rfl, .mk (ty.written hp hmeans hwf.2.1 _) hvalue helement⟩

end

/-! ## Definitions -/

lemma DefaultRepresented.of_plan (hp : p.Filled) {v : Option Value}
    (hwf : ∀ w, v = some w → w.WellFormed p ∅ 0) (hfull : Full (v.toList.flatMap Value.slots))
    (hplan : Realised tree (v.toList.flatMap (Value.plan p {} none))) :
    DefaultRepresented tree p v
      (v.toList.flatMap fun w => slotNodes "Default" .param w.allocation) := by
  rcases v with _ | w
  · rfl
  · rw [Option.toList_some, List.flatMap_singleton] at hfull hplan ⊢
    have hwf' := hwf w rfl
    rw [← LexicalScope.names_empty] at hwf'
    obtain ⟨a, ha, hw⟩ := w.represented hp (LexicalScope.means_globals p) hwf' hfull hplan
    exact ⟨a, hw, by rw [ha]; rfl⟩

lemma params_represented (hp : p.Filled) {env : Environment} {scope : LexicalScope}
    (hmeans : scope.Means p env) (houter : scope.blocks = []) {params : List ParamDef}
    (hwf : paramsWellFormed p scope.names params) (hfull : Full (params.flatMap ParamDef.slots))
    (hplan : Realised tree (paramsPlan p scope params)) :
    ∃ targets, params.map ParamDef.allocation = targets.map some ∧
      ParamsRepresented tree p env params targets ∧
      (scope.declareParams params).Means p
        (env.bindParameters ((params.map ParamDef.name).zip targets)) ∧
      (scope.declareParams params).blocks = [] ∧
      (scope.declareParams params).names = declareParams scope.names params := by
  induction params generalizing scope env with
  | nil => exact ⟨[], rfl, .nil, hmeans, houter, rfl⟩
  | cons d rest ih =>
    obtain ⟨⟨-, hty, hdefault⟩, hrest⟩ := hwf
    rw [List.flatMap_cons, ParamDef.slots, Full, List.forall_mem_append, List.forall_mem_cons] at hfull
    obtain ⟨a, ha⟩ : ∃ a, d.allocation = some a := Option.isSome_iff_exists.1 hfull.1.1
    have hdeclare : scope.declareParams [d] = scope.addParameter d.name a := by
      simp [LexicalScope.declareParams, ha]
    rw [paramsPlan, ParamDef.plan, hdeclare, ha, Realised.append_iff, Realised.append_iff] at hplan
    rw [← LexicalScope.names_addParameter scope d.name a] at hrest
    obtain ⟨targets, htargets, hparams, hmeans', houter', hnames⟩ :=
      ih (hmeans.addParameter houter d.name a) houter hrest hfull.2 hplan.2
    have hparam : d.Represented tree p env a :=
      ⟨ha, _, _, d.ty.written hp hmeans hty _, .of_plan hp hdefault hfull.1.2 hplan.1.2,
        hplan.1.1.slotPart⟩
    refine ⟨a :: targets, by rw [List.map_cons, ha, htargets]; rfl, .cons hparam hparams, ?_⟩
    rw [LexicalScope.declareParams, ha, Option.elim_some, declareParams,
      ← LexicalScope.names_addParameter scope d.name a]
    exact ⟨hmeans', houter', hnames⟩

lemma FunctionDef.represented (hp : p.Filled) {d : FunctionDef}
    (hwf : (Definition.function d).WellFormed p) (hfull : Full (Definition.function d).slots)
    (hplan : Realised tree ((Definition.function d).plan p)) :
    ∃ a, d.allocation = some a ∧ d.Represented tree p a := by
  obtain ⟨-, hreturns, hparams, hbody⟩ := hwf
  rw [Definition.slots, Full, List.forall_mem_cons, List.forall_mem_append] at hfull
  obtain ⟨a, ha⟩ : ∃ a, d.allocation = some a := Option.isSome_iff_exists.1 hfull.1
  rw [Definition.plan, ha, Realised.append_iff, Realised.append_iff] at hplan
  rw [← LexicalScope.names_empty] at hreturns hparams hbody
  obtain ⟨params, hallocations, hparams', hmeans, houter, hnames⟩ :=
    params_represented hp (LexicalScope.means_globals p) rfl hparams hfull.2.1 hplan.1.2
  rw [← hnames] at hbody
  have hnested : (LexicalScope.declareParams {} d.params).Nested false := by
    simp [LexicalScope.Nested, houter]
  obtain ⟨locals, statements, hnodes, hbody'⟩ := d.body.represented hp "FunctionCall" hmeans
    hnested hbody hfull.2.2 hplan.2
  refine ⟨a, ha, ha, d.returnNodes p, params, locals, statements, ?_, hparams', hbody', ?_⟩
  · rw [FunctionDef.returnNodes]
    split_ifs with hvoid
    · rfl
    · exact ⟨_, d.returns.written hp (LexicalScope.means_globals p) (hreturns hvoid) _, rfl⟩
  · have helement := hplan.1.1.slotPart
    rw [FunctionDef.nodes, flatMap_slotNodes hallocations, hnodes] at helement
    simpa only [List.append_assoc, List.cons_append, List.append_nil, List.nil_append] using helement

lemma TriggerDef.represented (hp : p.Filled) {d : TriggerDef}
    (hwf : (Definition.trigger d).WellFormed p) (hfull : Full (Definition.trigger d).slots)
    (hplan : Realised tree ((Definition.trigger d).plan p)) :
    ∃ a, d.allocation = some a ∧ d.Represented tree p a := by
  obtain ⟨-, hevent, hbody⟩ := hwf
  rw [Definition.slots, Full, List.forall_mem_cons, List.forall_mem_append] at hfull
  obtain ⟨a, ha⟩ : ∃ a, d.allocation = some a := Option.isSome_iff_exists.1 hfull.1
  rw [Definition.plan, ha, Realised.append_iff, Realised.append_iff] at hplan
  rw [← LexicalScope.names_empty] at hevent hbody
  have hmeans := LexicalScope.means_globals p
  obtain ⟨event, hallocation, hevent'⟩ := d.event.represented hp hmeans hevent hfull.2.1 hplan.1.2
  obtain ⟨locals, statements, hnodes, hbody'⟩ := d.body.represented hp "Action" hmeans
    LexicalScope.nested_empty hbody hfull.2.2 hplan.2
  refine ⟨a, ha, ha, event, locals, statements, hevent', hbody', ?_⟩
  have helement := hplan.1.1.slotPart
  rw [TriggerDef.nodes, hallocation, slotNodes_some, hnodes] at helement
  simpa only [List.append_assoc, List.cons_append, List.append_nil, List.nil_append] using helement

lemma PresetDef.represented {d : PresetDef} {library : String}
    (hwithin : Within library (Definition.preset d).slots)
    (hplan : Realised tree ((Definition.preset d).plan p)) :
    ∃ a, d.allocation = some a ∧ d.Represented tree a := by
  rw [Definition.slots, Within, List.forall_mem_cons] at hwithin
  obtain ⟨⟨a, ha, rfl⟩, hmembers⟩ := hwithin
  replace ha : d.allocation = some a := ha
  rw [Definition.plan, ha, Realised.append_iff] at hplan
  obtain ⟨members, htargets⟩ : ∃ members : List Allocation,
      d.members.map PresetMember.allocation = members.map some := by
    refine exists_targets fun m hm => ?_
    obtain ⟨b, hb, -⟩ := hmembers m.slot (List.mem_map.2 ⟨m, hm, rfl⟩)
    exact Option.isSome_iff_exists.2 ⟨b, hb⟩
  refine ⟨a, ha, ha, members, htargets, ?_, ?_⟩
  · intro b hb
    have hmem : some b ∈ d.members.map PresetMember.allocation := by
      rw [htargets]
      exact List.mem_map.2 ⟨b, hb, rfl⟩
    obtain ⟨m, hm, hmb⟩ := List.mem_map.1 hmem
    obtain ⟨b', hb', hlibrary⟩ := hmembers m.slot (List.mem_map.2 ⟨m, hm, rfl⟩)
    obtain rfl : b = b' := Option.some.inj (hmb.symm.trans hb')
    -- the member stands in the library of the preset, which is its own
    have hpart := hplan.2 ⟨a.library, .presetValue, b.id, []⟩ (by
      refine List.mem_map.2 ⟨_, ?_, rfl⟩
      simp only [PresetDef.memberParts, ha, Option.toList_some, List.flatMap_singleton,
        List.mem_flatMap, List.mem_map]
      exact ⟨m, hm, b, by simp [hmb], rfl⟩)
    rw [← hlibrary] at hpart
    exact hpart
  · have helement := hplan.1.slotPart
    rw [PresetDef.nodes, flatMap_slotNodes htargets, PresetDef.base] at helement
    rcases hbase : Attribute.valueOf? d.attributes "base" with _ | base
    · simpa [hbase] using helement
    · by_cases hint : base = "int"
      · subst hint
        simpa [hbase] using helement
      · simpa [hbase, hint] using helement

end Trees

namespace Document

end Document

end TriggerScript
