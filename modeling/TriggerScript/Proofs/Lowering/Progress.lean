import Mathlib.Data.List.Basic
import TriggerScript.Proofs.Lowering.Whole
import TriggerScript.Proofs.Numbering

/-!
# When lowering succeeds

The lowering of a well-formed tree whose slots are filled succeeds. What a step needs of the steps in
front of it, namely which names are in scope and that a reserved place is still open, is known from
what they do when they succeed.

Default values of imported parameters can lead to one another. That the allowance for them is never
used up follows from counting those that have not been begun (`Lower.omittedDefault_succeeds`).
-/

namespace TriggerScript

namespace Lower

/-- Whether a computation succeeds from a state. -/
def Succeeds {α : Type} (run : Lower α) (s : LowerState) : Prop :=
  ∃ a s', run s = .ok a s'

namespace Succeeds

variable {α β : Type} {s s₁ : LowerState}

lemma pure (a : α) (s : LowerState) : Succeeds (Pure.pure a) s :=
  ⟨a, s, rfl⟩

/-- A step that succeeds can be followed by what succeeds from where it has left off. -/
lemma bind {x : Lower α} {f : α → Lower β} {a : α} (hx : x s = .ok a s₁) (hf : Succeeds (f a) s₁) :
    Succeeds (x >>= f) s := by
  obtain ⟨b, s₂, hb⟩ := hf
  exact ⟨b, s₂, bind_ok_iff.2 ⟨a, s₁, hx, hb⟩⟩

lemma next {x : Lower Unit} {f : Unit → Lower β} (hx : x s = .ok () s₁) (hf : Succeeds (f ()) s₁) :
    Succeeds (x >>= f) s :=
  bind hx hf

end Succeeds

/-- Whether a context makes the default values that calls leave out, wherever at least `done` has been
begun. -/
def Affords (p : Program) (ctx : Context) (calls : List Call) (done : List Allocation) : Prop :=
  ∀ c ∈ calls, ∀ formal v s, c.Omits p formal v → done ⊆ s.done → Succeeds (ctx.omitted formal v) s

section Affords

variable {p : Program} {ctx : Context} {calls calls' : List Call} {done done' : List Allocation}

lemma Affords.mono (h : Affords p ctx calls done) (hcalls : calls' ⊆ calls) (hdone : done ⊆ done') :
    Affords p ctx calls' done' :=
  fun c hc formal v s homits hs => h c (hcalls hc) formal v s homits (List.Subset.trans hdone hs)

lemma Affords.later (h : Affords p ctx calls done) (hdone : done ⊆ done') : Affords p ctx calls done' :=
  h.mono (List.Subset.refl _) hdone

lemma Affords.left (h : Affords p ctx (calls ++ calls') done) : Affords p ctx calls done :=
  h.mono (List.subset_append_left _ _) (List.Subset.refl _)

lemma Affords.right (h : Affords p ctx (calls ++ calls') done) : Affords p ctx calls' done :=
  h.mono (List.subset_append_right _ _) (List.Subset.refl _)

end Affords

variable {p : Program} {ctx : Context} {s : LowerState}

/-! ## Types -/

lemma dimensionNodes_succeeds (hp : p.Filled) {dims : List Dimension}
    (h : ∀ name, .variable name ∈ dims → p.Binds s.scope.names name) (index : Nat) :
    Succeeds (dimensionNodes (Symbols.ofProgram p).1 index dims) s := by
  induction dims generalizing index with
  | nil => exact .pure _ _
  | cons d rest ih =>
    obtain ⟨others, s', hothers⟩ := ih (fun name hname => h name (List.mem_cons_of_mem _ hname))
      (index + 1)
    obtain ⟨n, hn⟩ : ∃ n, dimensionNode (Symbols.ofProgram p).1 index d s = .ok n s := by
      rcases d with size | name
      · exact ⟨_, rfl⟩
      · obtain ⟨b, hb⟩ := LexicalScope.exists_binding?_of_binds hp.global
          (h name List.mem_cons_self)
        exact ⟨_, bind_ok_iff.2 ⟨b, s, resolve_ok_iff.2 ⟨hb, rfl⟩, rfl⟩⟩
    exact .bind hn (.bind hothers (.pure _ _))

/-- A well-formed type can be lowered, and that changes nothing. -/
lemma typeNode_succeeds (hp : p.Filled) {ty : TypeRef} (h : ty.WellFormed p s.scope.names)
    (tag : String) :
    ∃ n, typeNode (Symbols.ofProgram p).1 tag ty s = .ok n s := by
  obtain ⟨dims, s', hdims⟩ := dimensionNodes_succeeds hp h 0
  obtain ⟨rfl, -⟩ := dimensionNodes_ok hdims
  exact ⟨_, bind_ok_iff.2 ⟨dims, s, hdims, rfl⟩⟩

/-! ## Values, calls, blocks and variables -/

lemma omittedNodes_succeeds (hctx : Faithful p ctx) {formals : List Formal}
    (h : ∀ formal ∈ formals, ∀ v, formal.externalDefault = some v → ∀ s' : LowerState,
      s.done ⊆ s'.done → Succeeds (ctx.omitted formal v) s') :
    Succeeds (omittedNodes ctx formals) s := by
  induction formals generalizing s with
  | nil => exact .pure _ _
  | cons formal rest ih =>
    rw [List.forall_mem_cons] at h
    rw [omittedNodes]
    rcases hdefault : formal.externalDefault with _ | v
    · exact ih h.2
    · obtain ⟨a, s₁, ha⟩ := h.1 v hdefault s (List.Subset.refl _)
      have hdone : s.done ⊆ s₁.done := (hctx.omitted ha).2.2.subset
      obtain ⟨others, s₂, hothers⟩ := ih (s := s₁) fun formal hformal v hv s' hs' =>
        h.2 formal hformal v hv s' (List.Subset.trans hdone hs')
      exact .bind ha (.bind hothers (.pure _ _))

lemma actualNodes_value_succeeds (hctx : Faithful p ctx) {callee : String} {depth : Nat} {v : Value}
    {args : List Value} {formal : Formal} {formals : List Formal}
    (hv : ∀ b allocation, v = ⟨.block b, allocation⟩ → False)
    (hvalue : ∀ {s : LowerState}, v.WellFormed p s.scope.names (depth + 1) → Full v.slots →
      Affords p ctx v.calls s.done → Succeeds (value ctx formal.allocation (depth + 1) v) s)
    (hargs : ∀ {s : LowerState}, actualsWellFormed p s.scope.names (depth + 1) args formals →
      Full (valuesSlots args) → Affords p ctx (valuesCalls args) s.done →
      Succeeds (actualNodes ctx callee depth args formals) s)
    (hwf : actualsWellFormed p s.scope.names (depth + 1) (v :: args) (formal :: formals))
    (hfull : Full (valuesSlots (v :: args))) (hafford : Affords p ctx (valuesCalls (v :: args)) s.done) :
    Succeeds (actualNodes ctx callee depth (v :: args) (formal :: formals)) s := by
  rw [actualsWellFormed.eq_4 _ _ _ _ _ _ _ hv] at hwf
  rw [valuesSlots, Full, List.forall_mem_append] at hfull
  rw [valuesCalls] at hafford
  obtain ⟨⟨haccepts, hwf⟩, hwf'⟩ := hwf
  obtain ⟨a, s₁, ha⟩ := hvalue hwf hfull.1 hafford.left
  obtain ⟨-, -, hscope, hruns⟩ := value_ok hctx v ha
  rw [← hscope] at hwf'
  obtain ⟨others, s₂, hothers⟩ := hargs hwf' hfull.2 (hafford.right.later hruns.subset)
  rw [actualNodes.eq_4 _ _ _ _ _ _ _ hv, if_neg haccepts]
  exact .bind ha (.bind hothers (.pure _ _))

mutual

lemma value_succeeds (hctx : Faithful p ctx) (hp : p.Filled) {formal : Option Allocation} {depth : Nat}
    {s : LowerState} : ∀ v : Value, v.WellFormed p s.scope.names depth → Full v.slots →
      Affords p ctx v.calls s.done → Succeeds (value ctx formal depth v) s
  | ⟨kind, allocation⟩, hwf, hfull, hafford => by
    rw [Value.WellFormed] at hwf
    rw [Value.slots, Full, List.forall_mem_cons] at hfull
    rw [Value.calls] at hafford
    obtain ⟨a, rfl⟩ := Option.isSome_iff_exists.1 hfull.1
    -- what is made between reserving the place and filling it leaves the place open
    obtain ⟨nodes, s₁, hnodes⟩ := valueNodes_succeeds hctx hp
      (s := { s with pools := s.pools.reserve a.library }) kind hwf.2 hfull.2 hafford
    obtain ⟨-, -, -, hruns⟩ := valueNodes_ok hctx kind hnodes
    rw [value]
    refine .next (checkDepth_ok_iff.2 ⟨hwf.1, rfl⟩) (.bind (allocated_ok_iff.2 ⟨rfl, rfl⟩) ?_)
    refine .bind (reserve_ok_iff.2 ⟨rfl, rfl⟩) (.bind hnodes ?_)
    exact .next (fill_ok_iff.2 ⟨hruns.isOpen_reserve, rfl⟩) (.pure _ _)

lemma valueNodes_succeeds (hctx : Faithful p ctx) (hp : p.Filled) {depth : Nat} {s : LowerState} :
    ∀ kind : ValueKind, kind.WellFormed p s.scope.names depth → Full kind.slots →
      Affords p ctx kind.calls s.done → Succeeds (valueNodes ctx depth kind) s
  | .literal _, _, _, _ => .pure _ _
  | .variable name, hwf, _, _ => by
    rw [ValueKind.WellFormed] at hwf
    obtain ⟨b, hb⟩ := LexicalScope.exists_binding?_of_binds hp.global hwf
    rw [valueNodes, hctx.symbols]
    exact .bind (resolve_ok_iff.2 ⟨hb, rfl⟩) (.pure _ _)
  | .presetMember preset member, hwf, _, _ => by
    rw [ValueKind.WellFormed] at hwf
    obtain ⟨q, hq, hmember⟩ := hwf
    obtain ⟨a, ha⟩ := Option.isSome_iff_exists.1 hmember
    rw [valueNodes, hctx.symbols]
    refine .bind (ofExcept_ok_iff.2 ⟨Symbols.preset_ofProgram_ok_iff.2 hq, rfl⟩) ?_
    simp only [ha]
    exact .pure _ _
  | .arrayElement name indices, hwf, hfull, hafford => by
    rw [ValueKind.WellFormed] at hwf
    rw [ValueKind.slots] at hfull
    rw [ValueKind.calls] at hafford
    obtain ⟨b, hb⟩ := LexicalScope.exists_binding?_of_binds hp.global hwf.1
    obtain ⟨nodes, s₁, hnodes⟩ := indexNodes_succeeds hctx hp indices hwf.2 hfull hafford
    rw [valueNodes, hctx.symbols]
    exact .bind (resolve_ok_iff.2 ⟨hb, rfl⟩) (.bind hnodes (.pure _ _))
  | .call c, hwf, hfull, hafford => by
    rw [ValueKind.WellFormed] at hwf
    rw [ValueKind.slots] at hfull
    rw [ValueKind.calls] at hafford
    obtain ⟨a, s₁, ha⟩ := call_succeeds hctx hp c hwf hfull hafford
    exact .bind ha (.pure _ _)
  | .block _, hwf, _, _ => by
    rw [ValueKind.WellFormed] at hwf
    exact hwf.elim

lemma indexNodes_succeeds (hctx : Faithful p ctx) (hp : p.Filled) {depth : Nat} {s : LowerState} :
    ∀ vs : List Value, valuesWellFormed p s.scope.names (depth + 1) vs → Full (valuesSlots vs) →
      Affords p ctx (valuesCalls vs) s.done → Succeeds (indexNodes ctx depth vs) s
  | [], _, _, _ => .pure _ _
  | v :: rest, hwf, hfull, hafford => by
    rw [valuesWellFormed] at hwf
    rw [valuesSlots, Full, List.forall_mem_append] at hfull
    rw [valuesCalls] at hafford
    obtain ⟨hwf, hwf'⟩ := hwf
    obtain ⟨a, s₁, ha⟩ := value_succeeds hctx hp v hwf hfull.1 hafford.left
    obtain ⟨-, -, hscope, hruns⟩ := value_ok hctx v ha
    rw [← hscope] at hwf'
    obtain ⟨others, s₂, hothers⟩ := indexNodes_succeeds hctx hp rest hwf' hfull.2
      (hafford.right.later hruns.subset)
    exact .bind ha (.bind hothers (.pure _ _))

lemma call_succeeds (hctx : Faithful p ctx) (hp : p.Filled) {formal : Option Allocation} {depth : Nat}
    {s : LowerState} : ∀ c : Call, c.WellFormed p s.scope.names depth → Full c.slots →
      Affords p ctx c.calls s.done → Succeeds (call ctx formal depth c) s
  | ⟨callee, args, allocation⟩, hwf, hfull, hafford => by
    rw [Call.WellFormed] at hwf
    rw [Call.slots, Full, List.forall_mem_cons] at hfull
    rw [Call.calls] at hafford
    obtain ⟨hdepth, f, hf, hlength, hdefault, hargs⟩ := hwf
    obtain ⟨a, rfl⟩ := Option.isSome_iff_exists.1 hfull.1
    obtain ⟨target, htarget⟩ := Option.isSome_iff_exists.1 (hp.callable hf)
    have hmissing : (f.formals.drop args.length).find? (!·.hasDefault) = none := by
      rw [List.find?_eq_none]
      intro formal hformal
      simp [hdefault formal hformal]
    obtain ⟨actuals, s₁, hactuals⟩ : Succeeds (actualNodes ctx f.name depth args f.formals)
        { s with pools := s.pools.reserve a.library } :=
      actualNodes_succeeds hctx hp args f.formals (hp.formal hf) hargs hfull.2
        (hafford.mono (List.subset_cons_self _ _) (.refl _))
    obtain ⟨-, -, -, hruns⟩ := actualNodes_ok hctx args f.formals hactuals
    obtain ⟨defaults, s₂, hdefaults⟩ : Succeeds (omittedNodes ctx (f.formals.drop args.length)) s₁ := by
      refine omittedNodes_succeeds hctx fun formal hformal v hv s' hs' => ?_
      exact hafford _ List.mem_cons_self formal v s' ⟨f, hf, hformal, hv⟩
        (List.Subset.trans hruns.subset hs')
    obtain ⟨-, -, hruns'⟩ := omittedNodes_ok hctx hdefaults
    rw [call, hctx.symbols]
    refine .next (checkDepth_ok_iff.2 ⟨hdepth, rfl⟩) ?_
    refine .bind (ofExcept_ok_iff.2 ⟨Symbols.callable_ofProgram_ok_iff.2 hf, rfl⟩) ?_
    rw [if_neg (Nat.not_lt.2 hlength)]
    simp only [hmissing, htarget]
    refine .bind (allocated_ok_iff.2 ⟨rfl, rfl⟩) (.bind (reserve_ok_iff.2 ⟨rfl, rfl⟩) ?_)
    refine .bind hactuals (.bind hdefaults ?_)
    exact .next (fill_ok_iff.2 ⟨(hruns.append hruns').isOpen_reserve, rfl⟩) (.pure _ _)

lemma actualNodes_succeeds (hctx : Faithful p ctx) (hp : p.Filled) {callee : String} {depth : Nat}
    {s : LowerState} : ∀ (args : List Value) (formals : List Formal),
      (∀ formal ∈ formals, formal.allocation.isSome) →
      actualsWellFormed p s.scope.names (depth + 1) args formals → Full (valuesSlots args) →
      Affords p ctx (valuesCalls args) s.done →
      Succeeds (actualNodes ctx callee depth args formals) s
  | [], _, _, _, _, _ => by
    rw [actualNodes]
    exact .pure _ _
  | _ :: _, [], _, _, _, _ => by
    rw [actualNodes]
    exact .pure _ _
  | ⟨kind, allocation⟩ :: args, formal :: formals, hformals, hwf, hfull, hafford => by
    cases kind with
    | block b =>
      rw [actualsWellFormed] at hwf
      rw [valuesSlots, Value.slots, ValueKind.slots, Full, List.forall_mem_append,
        List.forall_mem_cons] at hfull
      rw [valuesCalls, Value.calls, ValueKind.calls] at hafford
      rw [List.forall_mem_cons] at hformals
      obtain ⟨⟨haccepts, hwf⟩, hwf'⟩ := hwf
      obtain ⟨q, hq⟩ := Option.isSome_iff_exists.1 hformals.1
      rw [← LexicalScope.names_openBlock] at hwf
      obtain ⟨nodes, s₁, hnodes⟩ : Succeeds (blockNodes ctx "FunctionCall" (some q) (depth + 1) b)
          { s with scope := s.scope.openBlock } :=
        blockNodes_succeeds hctx hp b hwf hfull.1.2 hafford.left
      obtain ⟨-, -, hscope, hruns⟩ := blockNodes_ok hctx b hnodes
      -- the other values are lowered in the scope around the block
      have hclose : s₁.scope.closeBlock = s.scope := by
        rw [hscope, LexicalScope.closeBlock_declare_openBlock]
      rw [← hclose] at hwf'
      obtain ⟨others, s₂, hothers⟩ : Succeeds (actualNodes ctx callee depth args formals)
          { s₁ with scope := s₁.scope.closeBlock } :=
        actualNodes_succeeds hctx hp args formals hformals.2 hwf' hfull.2
          (hafford.right.later hruns.subset)
      rw [actualNodes, if_pos haccepts]
      simp only [hq]
      exact .bind (inBlock_ok_iff.2 ⟨s₁, hnodes, rfl⟩) (.bind hothers (.pure _ _))
    | _ =>
      refine actualNodes_value_succeeds hctx nofun (value_succeeds hctx hp _) ?_ hwf hfull hafford
      exact actualNodes_succeeds hctx hp args formals (List.forall_mem_cons.1 hformals).2

lemma blockNodes_succeeds (hctx : Faithful p ctx) (hp : p.Filled) {tag : String}
    {formal : Option Allocation} {depth : Nat} {s : LowerState} : ∀ b : Block,
      b.WellFormed p s.scope.names depth → Full b.slots → Affords p ctx b.calls s.done →
      Succeeds (blockNodes ctx tag formal depth b) s
  | ⟨locals, statements⟩, hwf, hfull, hafford => by
    rw [Block.WellFormed] at hwf
    rw [Block.slots, Full, List.forall_mem_append] at hfull
    rw [Block.calls] at hafford
    obtain ⟨hwf, hwf'⟩ := hwf
    obtain ⟨nodes, s₁, hnodes⟩ := localNodes_succeeds hctx hp locals hwf hfull.1 hafford.left
    obtain ⟨-, -, -, hnames, hruns⟩ := localNodes_ok hctx locals hnodes
    rw [← hnames] at hwf'
    obtain ⟨nodes', s₂, hnodes'⟩ : Succeeds (statementNodes ctx tag formal depth statements) s₁ :=
      statementNodes_succeeds hctx hp statements hwf' hfull.2 (hafford.right.later hruns.subset)
    exact .bind hnodes (.bind hnodes' (.pure _ _))

lemma localNodes_succeeds (hctx : Faithful p ctx) (hp : p.Filled) {depth : Nat} {s : LowerState} :
    ∀ ds : List VariableDef, localsWellFormed p s.scope.names depth ds → Full (variablesSlots ds) →
      Affords p ctx (variablesCalls ds) s.done → Succeeds (localNodes ctx depth ds) s
  | [], _, _, _ => .pure _ _
  | d :: rest, hwf, hfull, hafford => by
    rw [localsWellFormed] at hwf
    rw [variablesSlots, Full, List.forall_mem_append] at hfull
    rw [variablesCalls] at hafford
    obtain ⟨hwf, hwf'⟩ := hwf
    obtain ⟨a, s₁, ha⟩ := variableDef_succeeds hctx hp d hwf hfull.1 hafford.left
    obtain ⟨-, -, hscope, hruns⟩ := variableDef_ok hctx d ha
    rw [← hscope, ← LexicalScope.names_addLocal _ _ a] at hwf'
    obtain ⟨others, s₂, hothers⟩ := localNodes_succeeds hctx hp
      (s := { s₁ with scope := s₁.scope.addLocal d.name a }) rest hwf' hfull.2
      (hafford.right.later hruns.subset)
    exact .bind ha (.next (addLocal_ok_iff.2 rfl) (.bind hothers (.pure _ _)))

lemma statementNodes_succeeds (hctx : Faithful p ctx) (hp : p.Filled) {tag : String}
    {formal : Option Allocation} {depth : Nat} {s : LowerState} : ∀ cs : List Call,
      callsWellFormed p s.scope.names depth cs → Full (callsSlots cs) →
      Affords p ctx (callsCalls cs) s.done → Succeeds (statementNodes ctx tag formal depth cs) s
  | [], _, _, _ => .pure _ _
  | c :: rest, hwf, hfull, hafford => by
    rw [callsWellFormed] at hwf
    rw [callsSlots, Full, List.forall_mem_append] at hfull
    rw [callsCalls] at hafford
    obtain ⟨hwf, hwf'⟩ := hwf
    obtain ⟨a, s₁, ha⟩ := call_succeeds hctx hp c hwf hfull.1 hafford.left
    obtain ⟨-, -, hscope, hruns⟩ := call_ok hctx c ha
    rw [← hscope] at hwf'
    obtain ⟨others, s₂, hothers⟩ := statementNodes_succeeds hctx hp rest hwf' hfull.2
      (hafford.right.later hruns.subset)
    exact .bind ha (.bind hothers (.pure _ _))

lemma variableDef_succeeds (hctx : Faithful p ctx) (hp : p.Filled) {depth : Nat} {s : LowerState} :
    ∀ d : VariableDef, d.WellFormed p s.scope.names depth → Full d.slots →
      Affords p ctx d.calls s.done → Succeeds (variableDef ctx depth d) s
  | ⟨attributes, ty, name, v, allocation⟩, hwf, hfull, hafford => by
    rw [VariableDef.WellFormed] at hwf
    rw [VariableDef.slots, Full, List.forall_mem_cons] at hfull
    rw [VariableDef.calls] at hafford
    obtain ⟨hattributes, hty, hv⟩ := hwf
    obtain ⟨a, rfl⟩ := Option.isSome_iff_exists.1 hfull.1
    obtain ⟨type, htype⟩ := typeNode_succeeds hp
      (s := { s with pools := s.pools.reserve a.library }) hty "VariableType"
    obtain ⟨initial, s₁, hinitial⟩ : Succeeds (value ctx none (depth + 1) v)
      { s with pools := s.pools.reserve a.library } := value_succeeds hctx hp v hv hfull.2 hafford
    obtain ⟨-, -, -, hruns⟩ := value_ok hctx v hinitial
    rw [variableDef, hctx.symbols]
    refine .bind (allocated_ok_iff.2 ⟨rfl, rfl⟩) (.next (validate_ok_iff.2 ⟨hattributes, rfl⟩) ?_)
    refine .bind (reserve_ok_iff.2 ⟨rfl, rfl⟩) (.bind htype (.bind hinitial ?_))
    exact .next (fill_ok_iff.2 ⟨hruns.isOpen_reserve, rfl⟩) (.pure _ _)

end

/-! ## Jobs -/

/-- What is to be made at most once succeeds if it does the first time. -/
lemma Succeeds.begin {α : Type} {a : Allocation} {f : Bool → Lower α} {s : LowerState}
    (hagain : Succeeds (f false) s)
    (hfirst : a ∉ s.done → Succeeds (f true) { s with done := a :: s.done }) :
    Succeeds (Lower.begin a >>= f) s := by
  by_cases hdone : a ∈ s.done
  · exact .bind (begin_ok_iff.2 (.inl ⟨hdone, rfl, rfl⟩)) hagain
  · exact .bind (begin_ok_iff.2 (.inr ⟨hdone, rfl, rfl⟩)) (hfirst hdone)

end Lower

lemma Program.Uses.full {p : Program} (hp : p.Filled) {formal : Formal} {v : Value}
    (h : p.Uses formal v) : Full v.slots := by
  obtain ⟨c, f, hf, hformal, hv⟩ := h.exists_omits
  exact hp.default hf formal (List.mem_of_mem_drop hformal) v hv

lemma Program.Uses.exists_allocation {p : Program} (hp : p.Filled) {formal : Formal} {v : Value}
    (h : p.Uses formal v) : ∃ a, v.allocation = some a := by
  obtain ⟨rest, hslots⟩ := v.slots_head
  have hfull := h.full hp
  rw [hslots, Full, List.forall_mem_cons] at hfull
  exact Option.isSome_iff_exists.1 hfull.1

lemma Program.Uses.mem_externalDefaults {p : Program} {formal : Formal} {v : Value}
    (h : p.Uses formal v) : v ∈ (Symbols.ofProgram p).1.externalDefaults := by
  obtain ⟨c, f, hf, hformal, hv⟩ := h.exists_omits
  exact Symbols.mem_externalDefaults hf (List.mem_of_mem_drop hformal) hv

namespace Lower

variable {p : Program} {ctx : Context} {s : LowerState} {v : Value}

/-- The default values of a program that have not been begun. -/
def undone (p : Program) (done : List Allocation) : List Value :=
  (Symbols.ofProgram p).1.externalDefaults.filter fun v => ∀ a ∈ done, v.allocation ≠ some a

lemma undone_cons (p : Program) (a : Allocation) (done : List Allocation) :
    undone p (a :: done) = (undone p done).filter fun v => v.allocation ≠ some a := by
  rw [undone, undone, List.filter_filter]
  simp only [List.forall_mem_cons, Bool.decide_and]

lemma length_undone_cons_lt {a : Allocation} {done : List Allocation}
    (hv : v ∈ (Symbols.ofProgram p).1.externalDefaults) (ha : v.allocation = some a) (hdone : a ∉ done) :
    (undone p (a :: done)).length < (undone p done).length := by
  have hundone : v ∈ undone p done := by
    refine List.mem_filter.2 ⟨hv, ?_⟩
    rw [decide_eq_true_eq, ha]
    rintro b hb ⟨⟩
    exact hdone hb
  rw [undone_cons, List.length_filter_lt_length_iff_exists]
  exact ⟨v, hundone, by simp [ha]⟩

lemma length_undone_le {done done' : List Allocation} (h : done ⊆ done') :
    (undone p done').length ≤ (undone p done).length := by
  refine (List.monotone_filter_right _ fun v hv => ?_).length_le
  rw [decide_eq_true_eq] at hv ⊢
  exact fun a ha => hv a (h ha)

lemma omittedDefault_succeeds (hp : p.Filled)
    (hdefaults : ∀ formal v, p.Uses formal v → v.WellFormed p ∅ 0) {budget : Nat} {formal : Formal}
    (huses : p.Uses formal v) (hbudget : (undone p s.done).length ≤ budget) :
    Succeeds (omittedDefault (Symbols.ofProgram p).1 budget formal v) s := by
  induction budget generalizing formal v s with
  | zero =>
    obtain ⟨a, ha⟩ := huses.exists_allocation hp
    rw [omittedDefault]
    refine .bind (allocated_ok_iff.2 ⟨ha, rfl⟩) (.begin (.pure _ _) fun hdone => ?_)
    -- there is nothing left that has not been begun
    have hlt := length_undone_cons_lt huses.mem_externalDefaults ha hdone
    omega
  | succ budget ih =>
    obtain ⟨a, ha⟩ := huses.exists_allocation hp
    rw [omittedDefault]
    refine .bind (allocated_ok_iff.2 ⟨ha, rfl⟩) (.begin (.pure _ _) fun hdone => ?_)
    have hlt := length_undone_cons_lt huses.mem_externalDefaults ha hdone
    -- beginning this one leaves one less for those inside it
    have hwf := hdefaults formal v huses
    rw [← LexicalScope.names_empty] at hwf
    obtain ⟨b, s₁, hvalue⟩ : Succeeds (value ⟨(Symbols.ofProgram p).1, omittedDefault _ budget⟩
        formal.allocation 0 v) { s with done := a :: s.done, scope := {} } := by
      refine value_succeeds ⟨rfl, omittedDefault_ok⟩ hp v hwf (huses.full hp) ?_
      intro c hc formal' v' s' homits hs'
      have hle : (undone p s'.done).length ≤ (undone p (a :: s.done)).length := length_undone_le hs'
      exact ih (.default huses hc homits) (by omega)
    exact .bind (inScope_ok_iff.2 ⟨s₁, hvalue, rfl⟩) (.pure _ _)

/-- The context in which a program is lowered makes all default values that are used. -/
lemma affords_ofSymbols (hp : p.Filled) (hdefaults : ∀ formal v, p.Uses formal v → v.WellFormed p ∅ 0)
    {l : LibraryScope} (hl : l ∈ p.libraries) {d : Definition} (hd : d ∈ l.definitions) :
    Affords p (.ofSymbols (Symbols.ofProgram p).1) d.calls [] := by
  intro c hc formal v s homits _
  exact omittedDefault_succeeds hp hdefaults (.definition hl hd hc homits) (List.length_filter_le _ _)

/-! ## Definitions -/

lemma defaultNodes_succeeds (hctx : Faithful p ctx) (hp : p.Filled) {v : Option Value}
    (hwf : ∀ w, v = some w → w.WellFormed p ∅ 0) (hfull : Full (v.toList.flatMap Value.slots))
    (hafford : Affords p ctx (v.toList.flatMap Value.calls) s.done) :
    Succeeds (defaultNodes ctx v) s := by
  rcases v with _ | w
  · exact .pure _ _
  · rw [Option.toList_some, List.flatMap_singleton] at hfull hafford
    have hw := hwf w rfl
    rw [← LexicalScope.names_empty] at hw
    obtain ⟨a, s₁, ha⟩ : Succeeds (value ctx none 0 w) { s with scope := {} } :=
      value_succeeds hctx hp w hw hfull hafford
    exact .bind (inScope_ok_iff.2 ⟨s₁, ha, rfl⟩) (.pure _ _)

lemma paramNodes_succeeds (hctx : Faithful p ctx) (hp : p.Filled) {params : List ParamDef}
    (hwf : paramsWellFormed p s.scope.names params) (hfull : Full (params.flatMap ParamDef.slots))
    (hafford : Affords p ctx (params.flatMap fun q => q.default.toList.flatMap Value.calls) s.done) :
    Succeeds (paramNodes ctx params) s := by
  induction params generalizing s with
  | nil => exact .pure _ _
  | cons d rest ih =>
    obtain ⟨⟨hattributes, hty, hdefault⟩, hrest⟩ := hwf
    rw [List.flatMap_cons, ParamDef.slots, Full, List.forall_mem_append, List.forall_mem_cons] at hfull
    rw [List.flatMap_cons] at hafford
    obtain ⟨a, ha⟩ := Option.isSome_iff_exists.1 hfull.1.1
    obtain ⟨type, htype⟩ := typeNode_succeeds hp
      (s := { s with pools := s.pools.reserve a.library }) hty "ParameterType"
    obtain ⟨default, s₁, hdefault⟩ := defaultNodes_succeeds hctx hp
      (s := { s with pools := s.pools.reserve a.library }) hdefault hfull.1.2
      hafford.left
    obtain ⟨-, -, hscope, hruns⟩ := defaultNodes_ok hctx hdefault
    rw [show s.scope = s₁.scope from hscope.symm, ← LexicalScope.names_addParameter _ _ a] at hrest
    rw [paramNodes, hctx.symbols]
    refine .next (validate_ok_iff.2 ⟨hattributes, rfl⟩) (.bind (allocated_ok_iff.2 ⟨ha, rfl⟩) ?_)
    refine .bind (reserve_ok_iff.2 ⟨rfl, rfl⟩) (.bind htype (.bind hdefault ?_))
    refine .next (fill_ok_iff.2 ⟨hruns.isOpen_reserve, rfl⟩) (.next (addParameter_ok_iff.2 rfl) ?_)
    obtain ⟨others, s₂, hothers⟩ := ih (s := { s₁ with
        pools := s₁.pools.fill a.library (s.pools.nextPlace a.library)
          (.element .paramDef a.id (commentNodes d.attributes ++ type :: default)),
        scope := s₁.scope.addParameter d.name a }) hrest hfull.2
      (hafford.right.later hruns.subset)
    exact .bind hothers (.pure _ _)

lemma trigger_succeeds (hctx : Faithful p ctx) (hp : p.Filled) {d : TriggerDef}
    (hwf : (Definition.trigger d).WellFormed p) (hfull : Full (Definition.trigger d).slots)
    (hafford : Affords p ctx (Definition.trigger d).calls s.done) : Succeeds (trigger ctx d) s := by
  obtain ⟨hattributes, hevent, hbody⟩ := hwf
  rw [Definition.slots, Full, List.forall_mem_cons, List.forall_mem_append] at hfull
  rw [Definition.calls] at hafford
  obtain ⟨a, ha⟩ := Option.isSome_iff_exists.1 hfull.1
  rw [trigger]
  refine .bind (allocated_ok_iff.2 ⟨ha, rfl⟩) (.begin (.pure _ _) fun _ => ?_)
  refine .next (validate_ok_iff.2 ⟨hattributes, rfl⟩) (.bind (reserve_ok_iff.2 ⟨rfl, rfl⟩) ?_)
  rw [← LexicalScope.names_empty] at hevent hbody
  obtain ⟨event, s₁, hevent⟩ : Succeeds (call ctx none 0 d.event)
      ⟨s.pools.reserve a.library, a :: s.done, {}⟩ :=
    call_succeeds hctx hp d.event hevent hfull.2.1 (hafford.left.later (List.subset_cons_self _ _))
  obtain ⟨-, -, hscope, hruns⟩ := call_ok hctx _ hevent
  rw [show ({} : LexicalScope) = s₁.scope from hscope.symm] at hbody
  obtain ⟨body, s₂, hbody⟩ : Succeeds (blockNodes ctx "Action" none 0 d.body) s₁ :=
    blockNodes_succeeds hctx hp d.body hbody hfull.2.2
      (hafford.right.later (List.Subset.trans (List.subset_cons_self _ _) hruns.subset))
  obtain ⟨-, -, -, hruns'⟩ := blockNodes_ok hctx _ hbody
  have hopen := (hruns.append hruns').isOpen_reserve (s := ⟨s.pools, a :: s.done, {}⟩)
  refine .bind (inScope_ok_iff.2 ⟨s₂, bind_ok_iff.2 ⟨event, s₁, hevent,
    bind_ok_iff.2 ⟨body, s₂, hbody, rfl⟩⟩, rfl⟩) ?_
  exact .next (fill_ok_iff.2 ⟨hopen, rfl⟩) (.pure _ _)

lemma returnNodes_succeeds (hctx : Faithful p ctx) (hp : p.Filled) {ty : TypeRef}
    (h : ¬ty.isVoid → ty.WellFormed p s.scope.names) : ∃ nodes, returnNodes ctx ty s = .ok nodes s := by
  rw [returnNodes]
  split_ifs with hvoid
  · exact ⟨_, rfl⟩
  · obtain ⟨n, hn⟩ := typeNode_succeeds hp (h hvoid) "ReturnType"
    rw [hctx.symbols]
    exact ⟨_, bind_ok_iff.2 ⟨n, s, hn, rfl⟩⟩

lemma function_succeeds (hctx : Faithful p ctx) (hp : p.Filled) {d : FunctionDef}
    (hwf : (Definition.function d).WellFormed p) (hfull : Full (Definition.function d).slots)
    (hafford : Affords p ctx (Definition.function d).calls s.done) : Succeeds (function ctx d) s := by
  obtain ⟨hattributes, hreturns, hparams, hbody⟩ := hwf
  rw [Definition.slots, Full, List.forall_mem_cons, List.forall_mem_append] at hfull
  rw [Definition.calls] at hafford
  obtain ⟨a, ha⟩ := Option.isSome_iff_exists.1 hfull.1
  rw [function]
  refine .bind (allocated_ok_iff.2 ⟨ha, rfl⟩) (.begin (.pure _ _) fun _ => ?_)
  refine .next (validate_ok_iff.2 ⟨hattributes, rfl⟩) (.bind (reserve_ok_iff.2 ⟨rfl, rfl⟩) ?_)
  simp only [← LexicalScope.names_empty] at hreturns hparams hbody
  obtain ⟨returns, hreturns⟩ := returnNodes_succeeds hctx hp
    (s := ⟨s.pools.reserve a.library, a :: s.done, {}⟩) hreturns
  obtain ⟨params, s₁, hparams⟩ := paramNodes_succeeds hctx hp
    (s := ⟨s.pools.reserve a.library, a :: s.done, {}⟩) hparams hfull.2.1
    (hafford.left.later (List.subset_cons_self _ _))
  obtain ⟨-, -, -, hnames, hruns⟩ := paramNodes_ok hctx hparams
  rw [← hnames] at hbody
  obtain ⟨body, s₂, hbody⟩ : Succeeds (blockNodes ctx "FunctionCall" none 0 d.body) s₁ :=
    blockNodes_succeeds hctx hp d.body hbody hfull.2.2
      (hafford.right.later (List.Subset.trans (List.subset_cons_self _ _) hruns.subset))
  obtain ⟨-, -, -, hruns'⟩ := blockNodes_ok hctx _ hbody
  have hopen := (hruns.append hruns').isOpen_reserve (s := ⟨s.pools, a :: s.done, {}⟩)
  refine .bind (inScope_ok_iff.2 ⟨s₂, bind_ok_iff.2 ⟨returns, _, hreturns, bind_ok_iff.2 ⟨params, s₁,
    hparams, bind_ok_iff.2 ⟨body, s₂, hbody, rfl⟩⟩⟩, rfl⟩) ?_
  exact .next (fill_ok_iff.2 ⟨hopen, rfl⟩) (.pure _ _)

lemma memberAllocations_succeeds {members : List PresetMember}
    (h : ∀ m ∈ members, m.allocation.isSome) (s : LowerState) :
    Succeeds (memberAllocations members) s := by
  induction members with
  | nil => exact .pure _ _
  | cons m rest ih =>
    rw [List.forall_mem_cons] at h
    obtain ⟨a, ha⟩ := Option.isSome_iff_exists.1 h.1
    obtain ⟨others, s₁, hothers⟩ := ih h.2
    exact .bind (allocated_ok_iff.2 ⟨ha, rfl⟩) (.bind hothers (.pure _ _))

lemma preset_succeeds {d : PresetDef} (hwf : (Definition.preset d).WellFormed p)
    (hfull : Full (Definition.preset d).slots) : Succeeds (preset d) s := by
  rw [Definition.slots, Full, List.forall_mem_cons, List.forall_mem_map] at hfull
  obtain ⟨a, ha⟩ := Option.isSome_iff_exists.1 hfull.1
  rw [preset]
  refine .bind (allocated_ok_iff.2 ⟨ha, rfl⟩) (.begin (.pure _ _) fun _ => ?_)
  refine .next (validate_ok_iff.2 ⟨hwf, rfl⟩) ?_
  obtain ⟨members, s₁, hmembers⟩ := memberAllocations_succeeds hfull.2
    { s with done := a :: s.done }
  exact .bind hmembers (.next (append_ok_iff.2 rfl) (.pure _ _))

lemma global_succeeds (hctx : Faithful p ctx) (hp : p.Filled) {d : VariableDef}
    (hwf : d.WellFormed p ∅ 0) (hfull : Full d.slots) (hafford : Affords p ctx d.calls s.done) :
    Succeeds (global ctx d) s := by
  obtain ⟨a, ha⟩ : ∃ a, d.allocation = some a := by
    obtain ⟨attributes, ty, name, v, allocation⟩ := d
    rw [VariableDef.slots, Full, List.forall_mem_cons] at hfull
    exact Option.isSome_iff_exists.1 hfull.1
  rw [global]
  refine .bind (allocated_ok_iff.2 ⟨ha, rfl⟩) (.begin (.pure _ _) fun _ => ?_)
  rw [← LexicalScope.names_empty] at hwf
  obtain ⟨b, s₁, hb⟩ : Succeeds (variableDef ctx 0 d) { s with done := a :: s.done, scope := {} } :=
    variableDef_succeeds hctx hp d hwf hfull (hafford.later (List.subset_cons_self _ _))
  exact .bind (inScope_ok_iff.2 ⟨s₁, hb, rfl⟩) (.pure _ _)

/-- The lowering of a well-formed definition succeeds. -/
lemma definition_succeeds (hctx : Faithful p ctx) (hp : p.Filled) {d : Definition} (hwf : d.WellFormed p)
    (hfull : Full d.slots) (hafford : Affords p ctx d.calls s.done) : Succeeds (definition ctx d) s := by
  rcases d with d | d | d | d
  · exact preset_succeeds hwf hfull
  · exact global_succeeds hctx hp hwf hfull hafford
  · exact function_succeeds hctx hp hwf hfull hafford
  · exact trigger_succeeds hctx hp hwf hfull hafford

/-! ## Catalogs and programs -/

/-- Whether the lowering of each definition of a program succeeds from everywhere. -/
def DefinitionsSucceed (p : Program) (ctx : Context) : Prop :=
  ∀ l ∈ p.libraries, ∀ d ∈ l.definitions, ∀ s, Succeeds (definition ctx d) s

lemma leaf_succeeds (hdefinitions : DefinitionsSucceed p ctx) (hctx : Faithful p ctx) (hp : p.Filled)
    {name : String} (h : p.Lists name) (s : LowerState) : Succeeds (leaf ctx name) s := by
  obtain ⟨e, hlisted, hlistable⟩ := h
  rw [leaf, hctx.symbols, Symbols.entry?_ofProgram, hlisted]
  have hreference : ∀ {slot : Option Allocation} (type : ElementType), slot.isSome →
      Succeeds (do let a ← allocated slot; return Node.reference "Item" type a) s := by
    intro slot type hslot
    obtain ⟨a, rfl⟩ := Option.isSome_iff_exists.1 hslot
    exact .bind (allocated_ok_iff.2 ⟨rfl, rfl⟩) (.pure _ _)
  -- what is imported is only referred to, what is defined is lowered
  rcases Program.mem_entries.1 (Program.mem_of_listed? hlisted) with
    ⟨l, hl, x, hx, rfl⟩ | ⟨l, hl, d, hd, rfl⟩
  · rcases x with x | x | x
    · exact (hlistable rfl).elim
    · rcases Program.listed?_cases hlisted with
        ⟨d, -, ⟨⟩⟩ | ⟨f, hf, ⟨⟩⟩ | ⟨q, -, ⟨⟩⟩ | ⟨g, -, ⟨⟩⟩
      exact hreference .functionDef (hp.callable hf)
    · rcases Program.listed?_cases hlisted with
        ⟨d, -, ⟨⟩⟩ | ⟨f, -, ⟨⟩⟩ | ⟨q, -, ⟨⟩⟩ | ⟨g, hg, ⟨⟩⟩
      exact hreference .variable (hp.global hg)
  · rcases d with d | d | d | d
    · exact hdefinitions l hl _ hd s
    · exact hdefinitions l hl _ hd s
    · exact hdefinitions l hl _ hd s
    · exact hdefinitions l hl _ hd s

mutual

lemma item_succeeds (hdefinitions : DefinitionsSucceed p ctx) (hctx : Faithful p ctx) (hp : p.Filled)
    (s : LowerState) : ∀ i : CatalogItem, (∀ name ∈ i.leaves, p.Lists name) → Full i.slots →
      Succeeds (item ctx i) s
  | .leaf name, hlists, _ => by
    rw [CatalogItem.leaves, List.forall_mem_singleton] at hlists
    exact leaf_succeeds hdefinitions hctx hp hlists s
  | .folder f, hlists, hfull => by
    rw [CatalogItem.leaves] at hlists
    rw [CatalogItem.slots] at hfull
    exact folder_succeeds hdefinitions hctx hp s f hlists hfull

lemma folder_succeeds (hdefinitions : DefinitionsSucceed p ctx) (hctx : Faithful p ctx) (hp : p.Filled)
    (s : LowerState) : ∀ f : Folder, (∀ name ∈ f.leaves, p.Lists name) → Full f.slots →
      Succeeds (folder ctx f) s
  | ⟨label, entries, allocation⟩, hlists, hfull => by
    rw [Folder.leaves] at hlists
    rw [Folder.slots, Full, List.forall_mem_cons] at hfull
    obtain ⟨a, rfl⟩ := Option.isSome_iff_exists.1 hfull.1
    obtain ⟨nodes, s₁, hnodes⟩ := items_succeeds hdefinitions hctx hp
      { s with pools := s.pools.reserve a.library } entries hlists hfull.2
    obtain ⟨-, -, hruns⟩ := items_ok hctx entries hnodes
    rw [folder]
    refine .bind (allocated_ok_iff.2 ⟨rfl, rfl⟩) (.bind (reserve_ok_iff.2 ⟨rfl, rfl⟩) ?_)
    exact .bind hnodes (.next (fill_ok_iff.2 ⟨hruns.isOpen_reserve, rfl⟩) (.pure _ _))

lemma items_succeeds (hdefinitions : DefinitionsSucceed p ctx) (hctx : Faithful p ctx) (hp : p.Filled)
    (s : LowerState) : ∀ is : List CatalogItem, (∀ name ∈ itemsLeaves is, p.Lists name) →
      Full (itemsSlots is) → Succeeds (items ctx is) s
  | [], _, _ => .pure _ _
  | i :: rest, hlists, hfull => by
    rw [itemsLeaves, List.forall_mem_append] at hlists
    rw [itemsSlots, Full, List.forall_mem_append] at hfull
    obtain ⟨n, s₁, hn⟩ := item_succeeds hdefinitions hctx hp s i hlists.1 hfull.1
    obtain ⟨others, s₂, hothers⟩ := items_succeeds hdefinitions hctx hp s₁ rest hlists.2 hfull.2
    exact .bind hn (.bind hothers (.pure _ _))

end

lemma rootItems_succeeds (hdefinitions : DefinitionsSucceed p ctx) (hctx : Faithful p ctx)
    (hp : p.Filled) (library : String) {is : List CatalogItem}
    (hlists : ∀ name ∈ itemsLeaves is, p.Lists name) (hfull : Full (itemsSlots is)) (s : LowerState) :
    Succeeds (rootItems ctx library is) s := by
  induction is generalizing s with
  | nil => exact .pure _ _
  | cons i rest ih =>
    rw [itemsLeaves, List.forall_mem_append] at hlists
    rw [itemsSlots, Full, List.forall_mem_append] at hfull
    obtain ⟨n, s₁, hn⟩ := item_succeeds hdefinitions hctx hp s i hlists.1 hfull.1
    exact .bind hn (.next (addToRoot_ok_iff.2 rfl) (ih hlists.2 hfull.2 _))

lemma catalogLibraries_succeeds (hdefinitions : DefinitionsSucceed p ctx) (hctx : Faithful p ctx)
    (hp : p.Filled) {ls : List CatalogLibrary}
    (hlists : ∀ l ∈ ls, ∀ name ∈ itemsLeaves l.items, p.Lists name)
    (hfull : ∀ l ∈ ls, Full (itemsSlots l.items)) (s : LowerState) :
    Succeeds (catalogLibraries ctx ls) s := by
  induction ls generalizing s with
  | nil => exact .pure _ _
  | cons l rest ih =>
    rw [List.forall_mem_cons] at hlists hfull
    refine .next (touch_ok_iff.2 rfl) ?_
    obtain ⟨⟨⟩, s₁, hroot⟩ := rootItems_succeeds hdefinitions hctx hp l.name hlists.1 hfull.1 _
    exact .next hroot (ih hlists.2 hfull.2 s₁)

lemma definitions_succeeds (library : String) {ds : List Definition}
    (h : ∀ d ∈ ds, ∀ s, Succeeds (definition ctx d) s) (s : LowerState) :
    Succeeds (definitions ctx library ds) s := by
  induction ds generalizing s with
  | nil => exact .pure _ _
  | cons d rest ih =>
    rw [List.forall_mem_cons] at h
    refine .bind (get_ok_iff.2 ⟨rfl, rfl⟩) ?_
    split_ifs
    · obtain ⟨n, s₁, hn⟩ := h.1 s
      exact .bind hn (.next (addToRoot_ok_iff.2 rfl) (ih h.2 _))
    · exact ih h.2 s

lemma libraries_succeeds {ls : List LibraryScope}
    (h : ∀ l ∈ ls, ∀ d ∈ l.definitions, ∀ s, Succeeds (definition ctx d) s) (s : LowerState) :
    Succeeds (libraries ctx ls) s := by
  induction ls generalizing s with
  | nil => exact .pure _ _
  | cons l rest ih =>
    rw [List.forall_mem_cons] at h
    refine .next (touch_ok_iff.2 rfl) ?_
    obtain ⟨⟨⟩, s₁, hdefinitions⟩ := definitions_succeeds l.library h.1 _
    exact .next hdefinitions (ih h.2 s₁)

/-- The lowering of a well-formed program with its catalog succeeds. -/
theorem all_succeeds {c : Catalog} {ids : Counters} (h : Numbered p c ids) (hwf : WellFormed p c)
    (s : LowerState) : Succeeds (all (.ofSymbols (Symbols.ofProgram p).1) p c) s := by
  have hp := h.filled
  have hctx := faithful_ofSymbols p
  have hdefinitions : DefinitionsSucceed p (.ofSymbols (Symbols.ofProgram p).1) := by
    intro l hl d hd s
    exact definition_succeeds hctx hp (hwf.definitions l hl d hd) (h.definition_within hl hd).full
      ((affords_ofSymbols hp hwf.defaults hl hd).later (List.nil_subset _))
  obtain ⟨⟨⟩, s₁, hcatalog⟩ := catalogLibraries_succeeds hdefinitions hctx hp
    (fun l hl name hname => hwf.leaves name (List.mem_flatMap.2 ⟨l, hl, hname⟩))
    (fun l hl => (h.folders l hl).full) s
  exact .next hcatalog (libraries_succeeds hdefinitions s₁)

end Lower

end TriggerScript
