import TriggerScript.Proofs.Lowering.Plan

/-!
# What lowering does when it succeeds

If the lowering of a tree succeeds then the tree is well-formed, the scope is as it was before, and
the computation has followed the plan of the tree. This is shown for values, calls, blocks and
variables together, and then for definitions.
-/

namespace TriggerScript

namespace Lower

/-- A context looks names up in a program, and makes the default values of imported parameters as
jobs. -/
structure Faithful (p : Program) (ctx : Context) : Prop where
  symbols : ctx.symbols = (Symbols.ofProgram p).1
  omitted : ∀ {formal : Formal} {v : Value} {s s' : LowerState} {a : Allocation},
    ctx.omitted formal v s = .ok a s' →
      v.allocation = some a ∧ s'.scope = s.scope ∧ Runs p [.job (.default formal v)] s s'

variable {p : Program} {ctx : Context} {s s' : LowerState} {n : Node} {nodes : List Node}

/-! ## Types -/

lemma dimensionNode_ok {index : Nat} {d : Dimension}
    (h : dimensionNode (Symbols.ofProgram p).1 index d s = .ok n s') :
    s = s' ∧ [n] = d.nodes p s.scope index ∧
      ∀ name, d = .variable name → p.Binds s.scope.names name := by
  rcases d with size | name
  · obtain ⟨rfl, rfl⟩ := pure_ok_iff.1 h
    exact ⟨rfl, rfl, by simp⟩
  · simp only [dimensionNode, bind_ok_iff, resolve_ok_iff, pure_ok_iff] at h
    obtain ⟨b, _, ⟨hb, rfl⟩, rfl, rfl⟩ := h
    refine ⟨rfl, ?_, ?_⟩
    · rw [Dimension.nodes, hb, Node.reference_eq]
      cases b <;> rfl
    · rintro _ ⟨⟩
      exact LexicalScope.binds_of_binding? hb

lemma dimensionNodes_ok {dims : List Dimension} {index : Nat}
    (h : dimensionNodes (Symbols.ofProgram p).1 index dims s = .ok nodes s') :
    s = s' ∧ nodes = dimensionsNodes p s.scope index dims ∧
      ∀ name, .variable name ∈ dims → p.Binds s.scope.names name := by
  induction dims generalizing index nodes with
  | nil =>
    obtain ⟨rfl, rfl⟩ := pure_ok_iff.1 h
    exact ⟨rfl, rfl, by simp⟩
  | cons d rest ih =>
    simp only [dimensionNodes, bind_ok_iff, pure_ok_iff] at h
    obtain ⟨n, _, hn, others, _, hothers, rfl, rfl⟩ := h
    obtain ⟨rfl, hn, hd⟩ := dimensionNode_ok hn
    obtain ⟨rfl, rfl, hrest⟩ := ih hothers
    refine ⟨rfl, by rw [dimensionsNodes, ← hn]; rfl, ?_⟩
    intro name hname
    rcases List.mem_cons.1 hname with hname | hname
    · exact hd name hname.symm
    · exact hrest name hname

lemma typeNode_ok {tag : String} {ty : TypeRef}
    (h : typeNode (Symbols.ofProgram p).1 tag ty s = .ok n s') :
    s = s' ∧ n = ty.node p s.scope tag ∧ ty.WellFormed p s.scope.names := by
  simp only [typeNode, bind_ok_iff, pure_ok_iff] at h
  obtain ⟨nodes, _, hnodes, rfl, rfl⟩ := h
  obtain ⟨rfl, rfl, hty⟩ := dimensionNodes_ok hnodes
  exact ⟨rfl, rfl, hty⟩

/-! ## Values, calls, blocks and variables -/

lemma omittedNodes_ok (hctx : Faithful p ctx) {formals : List Formal}
    (h : omittedNodes ctx formals s = .ok nodes s') :
    s'.scope = s.scope ∧ nodes = defaultsNodes formals ∧ Runs p (defaultsPlan formals) s s' := by
  induction formals generalizing s nodes with
  | nil =>
    obtain ⟨rfl, rfl⟩ := pure_ok_iff.1 h
    exact ⟨rfl, rfl, .nil p _⟩
  | cons formal rest ih =>
    rw [omittedNodes] at h
    rcases hdefault : formal.externalDefault with _ | v
    · simp only [hdefault] at h
      simpa [defaultsNodes, defaultsPlan, hdefault] using ih h
    · simp only [hdefault, bind_ok_iff, pure_ok_iff] at h
      obtain ⟨a, s₁, ha, others, s₂, hothers, rfl, rfl⟩ := h
      obtain ⟨hv, hscope, hruns⟩ := hctx.omitted ha
      obtain ⟨hscope', rfl, hruns'⟩ := ih hothers
      refine ⟨hscope'.trans hscope, by simp [defaultsNodes, hdefault, slotNodes, hv], ?_⟩
      have hplan : defaultsPlan (formal :: rest) = [.job (.default formal v)] ++ defaultsPlan rest := by
        simp [defaultsPlan, hdefault]
      rw [hplan]
      exact hruns.append hruns'

/-- The children of what is handed to a parameter that accepts a value. -/
lemma actualNodes_of_not_block {v : Value} (hv : ∀ b allocation, v = ⟨.block b, allocation⟩ → False) :
    TriggerScript.actualNodes v = slotNodes "Parameter" .param v.allocation := by
  obtain ⟨kind, allocation⟩ := v
  rcases kind with l | ⟨preset, member⟩ | name | ⟨name, indices⟩ | c | b
  iterate 5 rfl
  exact (hv b allocation rfl).elim

/-- A value is handed to a parameter, and further values to the other parameters. -/
lemma actualNodes_value_ok {callee : String} {depth : Nat} {v : Value} {args : List Value}
    {formal : Formal} {formals : List Formal} (hv : ∀ b allocation, v = ⟨.block b, allocation⟩ → False)
    (hvalue : ∀ {s s' : LowerState} {a : Allocation},
      value ctx formal.allocation (depth + 1) v s = .ok a s' →
        v.WellFormed p s.scope.names (depth + 1) ∧ v.allocation = some a ∧ s'.scope = s.scope ∧
          Runs p (v.plan p s.scope formal.allocation) s s')
    (hargs : ∀ {s s' : LowerState} {nodes : List Node},
      actualNodes ctx callee depth args formals s = .ok nodes s' →
        actualsWellFormed p s.scope.names (depth + 1) args formals ∧
          nodes = actualsNodes args formals ∧ s'.scope = s.scope ∧
          Runs p (actualsPlan p s.scope args formals) s s')
    (h : actualNodes ctx callee depth (v :: args) (formal :: formals) s = .ok nodes s') :
    actualsWellFormed p s.scope.names (depth + 1) (v :: args) (formal :: formals) ∧
      nodes = actualsNodes (v :: args) (formal :: formals) ∧ s'.scope = s.scope ∧
      Runs p (actualsPlan p s.scope (v :: args) (formal :: formals)) s s' := by
  rw [actualNodes.eq_4 _ _ _ _ _ _ _ hv] at h
  split_ifs at h with haccepts
  · rw [shape_ok_iff] at h
    exact h.elim
  · simp only [bind_ok_iff, pure_ok_iff, Node.reference_eq] at h
    obtain ⟨a, s₁, hvalue', others, s₂, hothers, rfl, rfl⟩ := h
    obtain ⟨hwf, ha, hscope, hruns⟩ := hvalue hvalue'
    obtain ⟨hwf', rfl, hscope', hruns'⟩ := hargs hothers
    rw [hscope] at hwf' hscope' hruns'
    rw [actualsWellFormed.eq_4 _ _ _ _ _ _ _ hv, actualsPlan.eq_4 _ _ _ _ _ _ hv, actualsNodes,
      actualNodes_of_not_block hv, ha]
    exact ⟨⟨⟨haccepts, hwf⟩, hwf'⟩, rfl, hscope', hruns.append hruns'⟩

mutual

lemma value_ok (hctx : Faithful p ctx) {formal : Option Allocation} {depth : Nat}
    {s s' : LowerState} {a : Allocation} : ∀ (v : Value), value ctx formal depth v s = .ok a s' →
      v.WellFormed p s.scope.names depth ∧ v.allocation = some a ∧ s'.scope = s.scope ∧
        Runs p (v.plan p s.scope formal) s s'
  | ⟨kind, allocation⟩, h => by
    simp only [value, bind_ok_iff, checkDepth_ok_iff, allocated_ok_iff, reserve_ok_iff, fill_ok_iff,
      pure_ok_iff, Node.reference_eq] at h
    obtain ⟨_, _, ⟨hdepth, rfl⟩, _, _, ⟨rfl, rfl⟩, _, _, ⟨rfl, rfl⟩, nodes, s₁, hnodes, _, _,
      ⟨-, rfl⟩, rfl, rfl⟩ := h
    obtain ⟨hwf, rfl, hscope, hruns⟩ := valueNodes_ok hctx kind hnodes
    rw [Value.WellFormed, Value.plan]
    exact ⟨⟨hdepth, hwf⟩, rfl, hscope, hruns.fill_reserve⟩

lemma valueNodes_ok (hctx : Faithful p ctx) {depth : Nat} {s s' : LowerState} {nodes : List Node} :
    ∀ (kind : ValueKind), valueNodes ctx depth kind s = .ok nodes s' →
      kind.WellFormed p s.scope.names depth ∧ nodes = kind.nodes p s.scope ∧ s'.scope = s.scope ∧
        Runs p (kind.plan p s.scope) s s'
  | .literal l, h => by
    obtain ⟨rfl, rfl⟩ := pure_ok_iff.1 h
    rw [ValueKind.WellFormed, ValueKind.plan, literalNodes_eq]
    exact ⟨trivial, rfl, rfl, .nil p _⟩
  | .variable name, h => by
    simp only [valueNodes, hctx.symbols, bind_ok_iff, resolve_ok_iff, pure_ok_iff] at h
    obtain ⟨b, _, ⟨hb, rfl⟩, rfl, rfl⟩ := h
    rw [ValueKind.WellFormed, ValueKind.plan]
    exact ⟨LexicalScope.binds_of_binding? hb, by simp [ValueKind.nodes, nameNodes, hb], rfl,
      .nil p _⟩
  | .presetMember preset member, h => by
    simp only [valueNodes, hctx.symbols, bind_ok_iff, ofExcept_ok_iff,
      Symbols.preset_ofProgram_ok_iff] at h
    obtain ⟨q, _, ⟨hq, rfl⟩, h⟩ := h
    rcases hmember : q.member? member with _ | a
    · simp only [hmember] at h
      exact (throw_ok_iff.1 h).elim
    · simp only [hmember, pure_ok_iff] at h
      obtain ⟨rfl, rfl⟩ := h
      rw [ValueKind.WellFormed, ValueKind.plan]
      exact ⟨⟨q, hq, by simp [hmember]⟩, by simp [ValueKind.nodes, slotNodes, hq, hmember], rfl,
        .nil p _⟩
  | .arrayElement name indices, h => by
    simp only [valueNodes, hctx.symbols, bind_ok_iff, resolve_ok_iff, pure_ok_iff] at h
    obtain ⟨b, _, ⟨hb, rfl⟩, others, s₁, hindices, rfl, rfl⟩ := h
    obtain ⟨hwf, rfl, hscope, hruns⟩ := indexNodes_ok hctx indices hindices
    rw [ValueKind.WellFormed, ValueKind.plan]
    exact ⟨⟨LexicalScope.binds_of_binding? hb, hwf⟩, by simp [ValueKind.nodes, nameNodes, hb], hscope,
      hruns⟩
  | .call c, h => by
    simp only [valueNodes, bind_ok_iff, pure_ok_iff] at h
    obtain ⟨a, s₁, hc, rfl, rfl⟩ := h
    obtain ⟨hwf, ha, hscope, hruns⟩ := call_ok hctx c hc
    rw [ValueKind.WellFormed, ValueKind.plan]
    exact ⟨hwf, by simp [ValueKind.nodes, slotNodes, ha], hscope, hruns⟩
  | .block b, h => by
    simp only [valueNodes] at h
    exact (shape_ok_iff.1 h).elim

lemma indexNodes_ok (hctx : Faithful p ctx) {depth : Nat} {s s' : LowerState} {nodes : List Node} :
    ∀ (vs : List Value), indexNodes ctx depth vs s = .ok nodes s' →
      valuesWellFormed p s.scope.names (depth + 1) vs ∧
        nodes = (vs.flatMap fun v => slotNodes "Array" .param v.allocation) ∧
        s'.scope = s.scope ∧ Runs p (valuesPlan p s.scope vs) s s'
  | [], h => by
    obtain ⟨rfl, rfl⟩ := pure_ok_iff.1 h
    rw [valuesWellFormed, valuesPlan]
    exact ⟨trivial, rfl, rfl, .nil p _⟩
  | v :: rest, h => by
    simp only [indexNodes, bind_ok_iff, pure_ok_iff] at h
    obtain ⟨a, s₁, hv, others, s₂, hrest, rfl, rfl⟩ := h
    obtain ⟨hwf, ha, hscope, hruns⟩ := value_ok hctx v hv
    obtain ⟨hwf', rfl, hscope', hruns'⟩ := indexNodes_ok hctx rest hrest
    rw [hscope] at hwf' hscope' hruns'
    rw [valuesWellFormed, valuesPlan]
    exact ⟨⟨hwf, hwf'⟩, by simp [slotNodes, ha], hscope', hruns.append hruns'⟩

lemma call_ok (hctx : Faithful p ctx) {formal : Option Allocation} {depth : Nat}
    {s s' : LowerState} {a : Allocation} : ∀ (c : Call), call ctx formal depth c s = .ok a s' →
      c.WellFormed p s.scope.names depth ∧ c.allocation = some a ∧ s'.scope = s.scope ∧
        Runs p (c.plan p s.scope formal) s s'
  | ⟨callee, args, allocation⟩, h => by
    simp only [call, hctx.symbols, bind_ok_iff, checkDepth_ok_iff, ofExcept_ok_iff,
      Symbols.callable_ofProgram_ok_iff] at h
    obtain ⟨_, _, ⟨hdepth, rfl⟩, f, _, ⟨hf, rfl⟩, h⟩ := h
    split_ifs at h with hlength
    · simp only [bind_ok_iff, shape_ok_iff, false_and, exists_false] at h
    -- the call is only made if nothing without a default is left out
    rcases hmissing : (f.formals.drop args.length).find? (!·.hasDefault) with _ | missing
    · simp only [hmissing, bind_ok_iff, allocated_ok_iff] at h
      obtain ⟨_, _, ⟨rfl, rfl⟩, h⟩ := h
      rcases htarget : f.allocation with _ | target
      · simp only [htarget, shape_ok_iff] at h
      · simp only [htarget, bind_ok_iff, reserve_ok_iff, fill_ok_iff, pure_ok_iff,
          Node.reference_eq] at h
        obtain ⟨_, _, ⟨rfl, rfl⟩, actuals, s₁, hactuals, defaults, s₂, hdefaults, _, _, ⟨-, rfl⟩,
          rfl, rfl⟩ := h
        obtain ⟨hwf, rfl, hscope, hruns⟩ := actualNodes_ok hctx args f.formals hactuals
        obtain ⟨hscope', rfl, hruns'⟩ := omittedNodes_ok hctx hdefaults
        have hdefault : ∀ formal ∈ f.formals.drop args.length, formal.hasDefault := by
          intro formal hformal
          simpa using List.find?_eq_none.1 hmissing formal hformal
        rw [Call.WellFormed, Call.plan, hf]
        refine ⟨⟨hdepth, f, rfl, Nat.not_lt.1 hlength, hdefault, hwf⟩, rfl, hscope'.trans hscope, ?_⟩
        simp only [htarget, List.append_assoc (slotPart _ _ _)]
        exact (hruns.append hruns').fill_reserve
    · simp only [hmissing, bind_ok_iff, shape_ok_iff, false_and, exists_false] at h

lemma actualNodes_ok (hctx : Faithful p ctx) {callee : String} {depth : Nat} {s s' : LowerState}
    {nodes : List Node} : ∀ (args : List Value) (formals : List Formal),
      actualNodes ctx callee depth args formals s = .ok nodes s' →
        actualsWellFormed p s.scope.names (depth + 1) args formals ∧
          nodes = actualsNodes args formals ∧ s'.scope = s.scope ∧
          Runs p (actualsPlan p s.scope args formals) s s'
  | [], formals, h => by
    rw [actualNodes] at h
    obtain ⟨rfl, rfl⟩ := pure_ok_iff.1 h
    rw [actualsWellFormed, actualsPlan]
    exact ⟨trivial, by rw [actualsNodes], rfl, .nil p _⟩
  | v :: args, [], h => by
    rw [actualNodes] at h
    obtain ⟨rfl, rfl⟩ := pure_ok_iff.1 h
    rw [actualsWellFormed, actualsPlan]
    exact ⟨trivial, by rw [actualsNodes], rfl, .nil p _⟩
  | ⟨kind, allocation⟩ :: args, formal :: formals, h => by
    cases kind with
    | block b =>
      rw [actualNodes] at h
      split_ifs at h with haccepts
      · rcases hformal : formal.allocation with _ | a
        · simp only [hformal, shape_ok_iff] at h
        · simp only [hformal, bind_ok_iff, inBlock_ok_iff, pure_ok_iff] at h
          obtain ⟨nodes, _, ⟨s₁, hblock, rfl⟩, others, s₂, hothers, rfl, rfl⟩ := h
          obtain ⟨hwf, rfl, hscope, hruns⟩ := blockNodes_ok hctx b hblock
          rw [LexicalScope.names_openBlock] at hwf
          obtain ⟨hwf', rfl, hscope', hruns'⟩ := actualNodes_ok hctx args formals hothers
          rw [hscope, LexicalScope.closeBlock_declare_openBlock] at hwf' hscope' hruns'
          rw [actualsWellFormed, actualsPlan, hformal]
          exact ⟨⟨⟨haccepts, hwf⟩, hwf'⟩, rfl, hscope', (hruns.scope _ _).append hruns'⟩
      · rw [shape_ok_iff] at h
        exact h.elim
    | _ =>
      exact actualNodes_value_ok nofun (value_ok hctx _) (actualNodes_ok hctx args formals) h

lemma blockNodes_ok (hctx : Faithful p ctx) {tag : String} {formal : Option Allocation} {depth : Nat}
    {s s' : LowerState} {nodes : List Node} : ∀ (b : Block),
      blockNodes ctx tag formal depth b s = .ok nodes s' →
        b.WellFormed p s.scope.names depth ∧ nodes = b.nodes tag ∧
          s'.scope = s.scope.declare b.locals ∧ Runs p (b.plan p s.scope formal) s s'
  | ⟨locals, statements⟩, h => by
    simp only [blockNodes, bind_ok_iff, pure_ok_iff] at h
    obtain ⟨nodes, s₁, hlocals, nodes', s₂, hstatements, rfl, rfl⟩ := h
    obtain ⟨hwf, rfl, hscope, hnames, hruns⟩ := localNodes_ok hctx locals hlocals
    obtain ⟨hwf', rfl, hscope', hruns'⟩ := statementNodes_ok hctx statements hstatements
    rw [hscope] at hscope' hruns'
    rw [hnames] at hwf'
    rw [Block.WellFormed, Block.plan]
    exact ⟨⟨hwf, hwf'⟩, rfl, hscope', hruns.append hruns'⟩

lemma localNodes_ok (hctx : Faithful p ctx) {depth : Nat} {s s' : LowerState} {nodes : List Node} :
    ∀ (locals : List VariableDef), localNodes ctx depth locals s = .ok nodes s' →
      localsWellFormed p s.scope.names depth locals ∧ nodes = localsNodes locals ∧
        s'.scope = s.scope.declare locals ∧ s'.scope.names = declare s.scope.names locals ∧
        Runs p (localsPlan p s.scope locals) s s'
  | [], h => by
    obtain ⟨rfl, rfl⟩ := pure_ok_iff.1 h
    rw [localsWellFormed, localsPlan]
    exact ⟨trivial, rfl, rfl, rfl, .nil p _⟩
  | d :: rest, h => by
    simp only [localNodes, bind_ok_iff, addLocal_ok_iff, pure_ok_iff] at h
    obtain ⟨a, s₁, hd, _, _, rfl, others, s₂, hothers, rfl, rfl⟩ := h
    obtain ⟨hwf, ha, hscope, hruns⟩ := variableDef_ok hctx d hd
    obtain ⟨hwf', rfl, hscope', hnames, hruns'⟩ := localNodes_ok hctx rest hothers
    simp only [hscope, LexicalScope.names_addLocal] at hwf' hscope' hnames hruns'
    have hdeclare : s.scope.declare [d] = s.scope.addLocal d.name a := by
      simp [LexicalScope.declare, ha]
    rw [localsWellFormed, localsPlan, hdeclare]
    exact ⟨⟨hwf, hwf'⟩, by simp [localsNodes, slotNodes, ha],
      by rw [hscope', LexicalScope.declare, ha]; rfl, hnames, hruns.append hruns'⟩

lemma statementNodes_ok (hctx : Faithful p ctx) {tag : String} {formal : Option Allocation}
    {depth : Nat} {s s' : LowerState} {nodes : List Node} : ∀ (cs : List Call),
      statementNodes ctx tag formal depth cs s = .ok nodes s' →
        callsWellFormed p s.scope.names depth cs ∧ nodes = statementsNodes tag cs ∧
          s'.scope = s.scope ∧ Runs p (callsPlan p s.scope formal cs) s s'
  | [], h => by
    obtain ⟨rfl, rfl⟩ := pure_ok_iff.1 h
    rw [callsWellFormed, callsPlan]
    exact ⟨trivial, rfl, rfl, .nil p _⟩
  | c :: rest, h => by
    simp only [statementNodes, bind_ok_iff, pure_ok_iff] at h
    obtain ⟨a, s₁, hc, others, s₂, hrest, rfl, rfl⟩ := h
    obtain ⟨hwf, ha, hscope, hruns⟩ := call_ok hctx c hc
    obtain ⟨hwf', rfl, hscope', hruns'⟩ := statementNodes_ok hctx rest hrest
    rw [hscope] at hwf' hscope' hruns'
    rw [callsWellFormed, callsPlan]
    exact ⟨⟨hwf, hwf'⟩, by simp [statementsNodes, slotNodes, ha], hscope', hruns.append hruns'⟩

lemma variableDef_ok (hctx : Faithful p ctx) {depth : Nat} {s s' : LowerState} {a : Allocation} :
    ∀ (d : VariableDef), variableDef ctx depth d s = .ok a s' →
      d.WellFormed p s.scope.names depth ∧ d.allocation = some a ∧ s'.scope = s.scope ∧
        Runs p (d.plan p s.scope) s s'
  | ⟨attributes, ty, name, v, allocation⟩, h => by
    simp only [variableDef, hctx.symbols, bind_ok_iff, allocated_ok_iff, validate_ok_iff,
      reserve_ok_iff, fill_ok_iff, pure_ok_iff, flagNodes_cons, flagNodes_nil, List.append_nil,
      commentNodes_eq, Node.reference_eq] at h
    obtain ⟨_, _, ⟨rfl, rfl⟩, _, _, ⟨hattributes, rfl⟩, _, _, ⟨rfl, rfl⟩, type, _, htype, initial, s₁,
      hvalue, _, _, ⟨-, rfl⟩, rfl, rfl⟩ := h
    obtain ⟨rfl, rfl, hty⟩ := typeNode_ok htype
    obtain ⟨hwf, hinitial, hscope, hruns⟩ := value_ok hctx v hvalue
    rw [VariableDef.WellFormed, VariableDef.plan, hinitial]
    refine ⟨⟨hattributes, hty, hwf⟩, rfl, hscope, ?_⟩
    exact hruns.fill_reserve

end

/-! ## Jobs -/

lemma omittedDefault_ok {budget : Nat} {formal : Formal} {v : Value} {a : Allocation}
    (h : omittedDefault (Symbols.ofProgram p).1 budget formal v s = .ok a s') :
    v.allocation = some a ∧ s'.scope = s.scope ∧ Runs p [.job (.default formal v)] s s' := by
  induction budget generalizing formal v s s' a with
  | zero =>
    simp only [omittedDefault, bind_ok_iff, allocated_ok_iff, begin_ok_iff] at h
    obtain ⟨a, _, ⟨hv, rfl⟩, _, _, ⟨hdone, rfl, rfl⟩ | ⟨hdone, rfl, rfl⟩, h⟩ := h
    · obtain ⟨rfl, rfl⟩ := pure_ok_iff.1 h
      exact ⟨hv, rfl, Runs.job_again hv hdone⟩
    · simp only [if_true, bind_ok_iff, throw_ok_iff, false_and, exists_false] at h
  | succ budget ih =>
    simp only [omittedDefault, bind_ok_iff, allocated_ok_iff, begin_ok_iff] at h
    obtain ⟨a, _, ⟨hv, rfl⟩, _, _, ⟨hdone, rfl, rfl⟩ | ⟨hdone, rfl, rfl⟩, h⟩ := h
    · obtain ⟨rfl, rfl⟩ := pure_ok_iff.1 h
      exact ⟨hv, rfl, Runs.job_again hv hdone⟩
    · simp only [if_true, bind_ok_iff, inScope_ok_iff, pure_ok_iff] at h
      obtain ⟨_, _, ⟨s₁, hvalue, rfl⟩, rfl, rfl⟩ := h
      obtain ⟨hwf, -, -, hruns⟩ := value_ok ⟨rfl, ih⟩ v hvalue
      rw [LexicalScope.names_empty] at hwf
      exact ⟨hv, rfl, Runs.job hv hdone hwf (hruns.scope _ _)⟩

/-- The context in which a program is lowered looks names up in the program. -/
lemma faithful_ofSymbols (p : Program) : Faithful p (.ofSymbols (Symbols.ofProgram p).1) :=
  ⟨rfl, omittedDefault_ok⟩

lemma defaultNodes_ok (hctx : Faithful p ctx) {v : Option Value}
    (h : defaultNodes ctx v s = .ok nodes s') :
    (∀ w, v = some w → w.WellFormed p ∅ 0) ∧
      nodes = (v.toList.flatMap fun w => slotNodes "Default" .param w.allocation) ∧
      s'.scope = s.scope ∧ Runs p (v.toList.flatMap (Value.plan p {} none)) s s' := by
  rcases v with _ | w
  · obtain ⟨rfl, rfl⟩ := pure_ok_iff.1 h
    exact ⟨by simp, rfl, rfl, .nil p _⟩
  · simp only [defaultNodes, bind_ok_iff, inScope_ok_iff, pure_ok_iff] at h
    obtain ⟨a, _, ⟨s₁, hvalue, rfl⟩, rfl, rfl⟩ := h
    obtain ⟨hwf, ha, -, hruns⟩ := value_ok hctx w hvalue
    rw [LexicalScope.names_empty] at hwf
    refine ⟨by rintro _ ⟨⟩; exact hwf, by simp [slotNodes, ha], rfl, ?_⟩
    simpa using hruns.scope _ _

lemma paramNodes_ok (hctx : Faithful p ctx) {params : List ParamDef}
    (h : paramNodes ctx params s = .ok nodes s') :
    paramsWellFormed p s.scope.names params ∧
      nodes = (params.flatMap fun q => slotNodes "Parameter" .paramDef q.allocation) ∧
      s'.scope = s.scope.declareParams params ∧
      s'.scope.names = declareParams s.scope.names params ∧
      Runs p (paramsPlan p s.scope params) s s' := by
  induction params generalizing s nodes with
  | nil =>
    obtain ⟨rfl, rfl⟩ := pure_ok_iff.1 h
    exact ⟨trivial, rfl, rfl, rfl, .nil p _⟩
  | cons d rest ih =>
    simp only [paramNodes, hctx.symbols, bind_ok_iff, validate_ok_iff, allocated_ok_iff,
      reserve_ok_iff, fill_ok_iff, addParameter_ok_iff, pure_ok_iff, commentNodes_eq] at h
    obtain ⟨_, _, ⟨hattributes, rfl⟩, a, _, ⟨ha, rfl⟩, _, _, ⟨rfl, rfl⟩, type, _, htype, default, s₁,
      hdefault, _, _, ⟨-, rfl⟩, _, _, rfl, others, s₂, hothers, rfl, rfl⟩ := h
    obtain ⟨rfl, rfl, hty⟩ := typeNode_ok htype
    obtain ⟨hwf, rfl, hscope, hruns⟩ := defaultNodes_ok hctx hdefault
    obtain ⟨hwf', rfl, hscope', hnames, hruns'⟩ := ih hothers
    simp only [hscope, LexicalScope.names_addParameter] at hwf' hscope' hnames hruns'
    have hdeclare : s.scope.declareParams [d] = s.scope.addParameter d.name a := by
      simp [LexicalScope.declareParams, ha]
    rw [paramsPlan, ParamDef.plan, ha, hdeclare]
    refine ⟨⟨⟨hattributes, hty, hwf⟩, hwf'⟩, by simp [slotNodes, ha],
      by rw [hscope', LexicalScope.declareParams, ha]; rfl, hnames, ?_⟩
    exact (hruns.fill_reserve.scope _ _).append hruns'

/-- A definition that has been lowered is a job that has been done, and what is yielded refers to
it. -/
def JobOk (p : Program) (d : Definition) (n : Node) (s s' : LowerState) : Prop :=
  ∃ a, d.allocation = some a ∧ n = .referring "Item" d.type a ∧ s'.scope = s.scope ∧
    Runs p [.job (.definition d)] s s'

/-- What is made at most once has been begun before, or it is begun and made. -/
lemma JobOk.of_begin {d : Definition} {next : Allocation → Bool → Lower Node}
    (h : (do
      let a ← allocated d.allocation
      let fresh ← begin a
      next a fresh) s = .ok n s')
    (hagain : ∀ a, next a false = pure (.reference "Item" d.type a))
    (hfirst : ∀ a, d.allocation = some a → next a true { s with done := a :: s.done } = .ok n s' →
      .referring "Item" d.type a = n ∧ s'.scope = s.scope ∧ d.WellFormed p ∧
        Runs p (d.plan p) { s with done := a :: s.done } s') : JobOk p d n s s' := by
  simp only [bind_ok_iff, allocated_ok_iff, begin_ok_iff] at h
  obtain ⟨a, _, ⟨ha, rfl⟩, _, _, ⟨hdone, rfl, rfl⟩ | ⟨hdone, rfl, rfl⟩, h⟩ := h
  · rw [hagain, pure_ok_iff] at h
    obtain ⟨rfl, rfl⟩ := h
    exact ⟨a, ha, by rw [Node.reference_eq], rfl, Runs.job_again ha hdone⟩
  · obtain ⟨rfl, hscope, hwf, hruns⟩ := hfirst a ha h
    exact ⟨a, ha, rfl, hscope, Runs.job ha hdone hwf hruns⟩

lemma trigger_ok (hctx : Faithful p ctx) {d : TriggerDef} (h : trigger ctx d s = .ok n s') :
    JobOk p (.trigger d) n s s' := by
  refine .of_begin h (fun _ => rfl) fun a (ha : d.allocation = some a) h => ?_
  simp only [if_true, bind_ok_iff, validate_ok_iff, reserve_ok_iff, inScope_ok_iff, fill_ok_iff,
    pure_ok_iff, flagNodes_cons, flagNodes_nil, List.append_nil, commentNodes_eq,
    Node.reference_eq] at h
  obtain ⟨_, _, ⟨hattributes, rfl⟩, _, _, ⟨rfl, rfl⟩, _, _, ⟨_, ⟨event, s₁, hevent, body, s₂, hbody,
    rfl, rfl⟩, rfl⟩, _, _, ⟨-, rfl⟩, rfl, rfl⟩ := h
  obtain ⟨hwf, hevent, hscope, hruns⟩ := call_ok hctx _ hevent
  obtain ⟨hwf', rfl, -, hruns'⟩ := blockNodes_ok hctx _ hbody
  rw [hscope] at hwf' hruns'
  rw [LexicalScope.names_empty] at hwf hwf'
  refine ⟨rfl, rfl, ⟨hattributes, hwf, hwf'⟩, ?_⟩
  rw [Definition.plan, ha, TriggerDef.nodes, hevent, List.append_assoc (slotPart _ _ _)]
  exact ((hruns.append hruns').scope s.scope s.scope).fill_reserve

lemma returnNodes_ok (hctx : Faithful p ctx) {ty : TypeRef} (h : returnNodes ctx ty s = .ok nodes s') :
    s = s' ∧ nodes = (if ty.isVoid then [] else [ty.node p s.scope "ReturnType"]) ∧
      (¬ty.isVoid → ty.WellFormed p s.scope.names) := by
  rw [returnNodes] at h
  split_ifs at h with hvoid
  · obtain ⟨rfl, rfl⟩ := pure_ok_iff.1 h
    exact ⟨rfl, by rw [if_pos hvoid], fun hnot => absurd hvoid hnot⟩
  · simp only [hctx.symbols, bind_ok_iff, pure_ok_iff] at h
    obtain ⟨n, _, hn, rfl, rfl⟩ := h
    obtain ⟨rfl, rfl, hty⟩ := typeNode_ok hn
    exact ⟨rfl, by rw [if_neg hvoid], fun _ => hty⟩

lemma function_ok (hctx : Faithful p ctx) {d : FunctionDef} (h : function ctx d s = .ok n s') :
    JobOk p (.function d) n s s' := by
  refine .of_begin h (fun _ => rfl) fun a (ha : d.allocation = some a) h => ?_
  simp only [if_true, bind_ok_iff, validate_ok_iff, reserve_ok_iff, inScope_ok_iff, fill_ok_iff,
    pure_ok_iff, flagNodes_cons, flagNodes_nil, List.append_nil, commentNodes_eq, kindNode_eq,
    Node.reference_eq] at h
  obtain ⟨_, _, ⟨hattributes, rfl⟩, _, _, ⟨rfl, rfl⟩, _, _, ⟨_, ⟨returns, _, hreturns, params, s₁,
    hparams, body, s₂, hbody, rfl, rfl⟩, rfl⟩, _, _, ⟨-, rfl⟩, rfl, rfl⟩ := h
  obtain ⟨rfl, rfl, hty⟩ := returnNodes_ok hctx hreturns
  obtain ⟨hwf, rfl, hscope, hnames, hruns⟩ := paramNodes_ok hctx hparams
  obtain ⟨hwf', rfl, -, hruns'⟩ := blockNodes_ok hctx _ hbody
  rw [hnames] at hwf'
  rw [hscope] at hruns'
  simp only [LexicalScope.names_empty] at hty hwf hwf'
  refine ⟨rfl, rfl, ⟨hattributes, hty, hwf, hwf'⟩, ?_⟩
  rw [Definition.plan, ha, FunctionDef.nodes, FunctionDef.returnNodes,
    List.append_assoc (slotPart _ _ _)]
  exact ((hruns.append hruns').scope s.scope s.scope).fill_reserve

lemma memberAllocations_ok {members : List PresetMember} {allocations : List Allocation}
    (h : memberAllocations members s = .ok allocations s') :
    s = s' ∧ allocations = members.flatMap fun m => m.allocation.toList := by
  induction members generalizing allocations with
  | nil =>
    obtain ⟨rfl, rfl⟩ := pure_ok_iff.1 h
    exact ⟨rfl, rfl⟩
  | cons m rest ih =>
    simp only [memberAllocations, bind_ok_iff, allocated_ok_iff, pure_ok_iff] at h
    obtain ⟨a, _, ⟨ha, rfl⟩, others, _, hothers, rfl, rfl⟩ := h
    obtain ⟨rfl, rfl⟩ := ih hothers
    exact ⟨rfl, by simp [ha]⟩

lemma preset_ok {d : PresetDef} (h : preset d s = .ok n s') : JobOk p (.preset d) n s s' := by
  refine .of_begin h (fun _ => rfl) fun a (ha : d.allocation = some a) h => ?_
  simp only [if_true, bind_ok_iff, validate_ok_iff, append_ok_iff, pure_ok_iff, commentNodes_eq,
    Node.reference_eq] at h
  obtain ⟨_, _, ⟨hattributes, rfl⟩, members, _, hmembers, _, _, rfl, rfl, rfl⟩ := h
  obtain ⟨rfl, rfl⟩ := memberAllocations_ok hmembers
  refine ⟨rfl, rfl, hattributes, ?_⟩
  have hplan : (Definition.preset d).plan p =
      ((⟨a.library, .preset, a.id, d.nodes⟩ : Part) :: d.memberParts).map .part := by
    rw [Definition.plan, ha]
    rfl
  have hmembers : d.memberParts = (d.members.flatMap fun m => m.allocation.toList).map
      fun b => (⟨a.library, .presetValue, b.id, []⟩ : Part) := by
    simp [PresetDef.memberParts, ha, List.map_flatMap]
  have hlibrary : ∀ part ∈ d.memberParts, part.library = a.library := by
    rw [hmembers]
    intro part hpart
    obtain ⟨b, -, rfl⟩ := List.mem_map.1 hpart
    rfl
  rw [hplan]
  refine Runs.parts ?_ rfl
  rw [← Pools.append_eq_extend _ _ hlibrary, hmembers, List.map_map]
  simp only [Part.node, PresetDef.nodes, PresetDef.base, slotNodes, List.map_flatMap]
  rfl

lemma global_ok (hctx : Faithful p ctx) {d : VariableDef} (h : global ctx d s = .ok n s') :
    JobOk p (.variable d) n s s' := by
  refine .of_begin h (fun _ => rfl) fun a ha h => ?_
  simp only [if_true, bind_ok_iff, inScope_ok_iff, pure_ok_iff, Node.reference_eq] at h
  obtain ⟨_, _, ⟨s₁, hd, rfl⟩, rfl, rfl⟩ := h
  obtain ⟨hwf, -, -, hruns⟩ := variableDef_ok hctx d hd
  rw [LexicalScope.names_empty] at hwf
  exact ⟨rfl, rfl, hwf, hruns.scope _ _⟩

lemma definition_ok (hctx : Faithful p ctx) {d : Definition} (h : definition ctx d s = .ok n s') :
    JobOk p d n s s' := by
  rcases d with d | d | d | d
  · exact preset_ok h
  · exact global_ok hctx h
  · exact function_ok hctx h
  · exact trigger_ok hctx h

end Lower

end TriggerScript
