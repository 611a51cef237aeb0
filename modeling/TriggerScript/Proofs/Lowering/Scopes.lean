import TriggerScript.Proofs.Lowering.Orderly

/-!
# Names behind an expression

The names in scope are part of the state of lowering. They are changed in two ways only: a block is
opened and closed, and a local is declared. Values, calls and variables may hold blocks, and lowering
them may fail anywhere inside these. Still, behind them the names in scope are as they were in front of
them, since what is declared in a block goes when the block is closed, and the block is closed in any
case. Lowering what stands in a block changes that block only (`LexicalScope.Within`).

The main result is `Lower.scope_after_expression`.
-/

namespace TriggerScript

namespace LexicalScope

variable {scope scope₁ scope₂ : LexicalScope}

/-- Only the innermost open block is different, if there is one. -/
def Within (before after : LexicalScope) : Prop :=
  before.blocks ≠ [] → after.blocks ≠ [] ∧ after.closeBlock = before.closeBlock

lemma within_of_eq (h : scope₁ = scope) : scope.Within scope₁ := by
  subst h
  exact fun hblocks => ⟨hblocks, rfl⟩

lemma Within.trans (h : scope.Within scope₁) (h' : scope₁.Within scope₂) : scope.Within scope₂ := by
  intro hblocks
  obtain ⟨hblocks₁, hclose⟩ := h hblocks
  obtain ⟨hblocks₂, hclose'⟩ := h' hblocks₁
  exact ⟨hblocks₂, hclose'.trans hclose⟩

lemma within_addLocal (scope : LexicalScope) (name : String) (a : Allocation) :
    scope.Within (scope.addLocal name a) := by
  obtain ⟨_ | ⟨block, outer⟩, parameters, locals⟩ := scope
  · exact fun hblocks => (hblocks rfl).elim
  · exact fun _ => ⟨List.cons_ne_nil _ _, rfl⟩

/-- What is done inside a block is gone when the block is closed. -/
lemma closeBlock_of_within (h : scope.openBlock.Within scope₁) : scope₁.closeBlock = scope :=
  (h (List.cons_ne_nil _ _)).2

end LexicalScope

namespace Lower

variable {α β : Type} {symbols : Symbols} {ctx : Context}

/-- The names in scope are the same behind a computation, whether it succeeds or fails. -/
def KeepsScope : Lower α → Prop :=
  Moves fun s s' => s'.scope = s.scope

/-- The names in scope are the same behind a computation, but for the innermost open block. -/
def KeepsOuterScope : Lower α → Prop :=
  Moves fun s s' => s.scope.Within s'.scope

namespace KeepsScope

lemma bind {x : Lower α} {f : α → Lower β} (hx : KeepsScope x) (hf : ∀ a, KeepsScope (f a)) :
    KeepsScope (x >>= f) :=
  Moves.bind (fun h h' => h'.trans h) hx hf

lemma pure (a : α) : KeepsScope (Pure.pure a) :=
  fun _ => rfl

lemma throw (e : LoweringError) : KeepsScope (throw e : Lower α) :=
  fun _ => rfl

lemma shape (message : String) : KeepsScope (shape message : Lower α) :=
  throw _

/-- Nothing is done behind a failure. -/
lemma shape_bind (message : String) {f : α → Lower β} : KeepsScope (Lower.shape message >>= f) :=
  fun _ => rfl

lemma ofExcept (x : Except LoweringError α) : KeepsScope (ofExcept x) := by
  rcases x with e | a
  · exact throw e
  · exact pure a

lemma allocated (slot : Option Allocation) : KeepsScope (allocated slot) := by
  rcases slot with _ | a
  · exact throw _
  · exact pure a

lemma checkDepth (depth : Nat) : KeepsScope (checkDepth depth) := by
  rw [Lower.checkDepth]
  split_ifs
  · exact shape _
  · exact pure ()

lemma validate (flags valued : List String) (owner : String) (attributes : List Attribute) :
    KeepsScope (validate flags valued owner attributes) := by
  induction attributes with
  | nil => exact pure ()
  | cons a rest ih =>
    rw [Lower.validate]
    split_ifs
    · exact ih
    · exact shape _

lemma resolve (name : String) : KeepsScope (resolve symbols name) :=
  bind (fun _ => rfl) fun _ => ofExcept _

lemma reserve (library : String) : KeepsScope (reserve library) :=
  fun _ => rfl

lemma fill (library : String) (place : Nat) (n : Node) : KeepsScope (fill library place n) := by
  intro s
  rcases fill_cases library place n s with h | h
  · rw [after_of_ok h]
  · rw [after_of_error h]

lemma begin (a : Allocation) : KeepsScope (begin a) := by
  intro s
  by_cases hdone : a ∈ s.done
  · rw [after_of_ok (begin_ok_iff.2 (.inl ⟨hdone, rfl, rfl⟩))]
  · rw [after_of_ok (begin_ok_iff.2 (.inr ⟨hdone, rfl, rfl⟩))]

/-- Whatever is done in a scope of its own is not seen outside of it. -/
lemma inScope (scope : LexicalScope) (run : Lower α) : KeepsScope (inScope scope run) := by
  intro s
  rw [inScope_eq_rescoped]
  rcases hrun : run { s with scope } with ⟨a, s₁⟩ | ⟨e, s₁⟩
  · rw [after_of_ok (rescoped_of_ok hrun)]
  · rw [after_of_error (rescoped_of_error hrun)]

/-- The block is closed in both cases, and what has been declared in it goes with it. -/
lemma inBlock {run : Lower α} (hrun : KeepsOuterScope run) : KeepsScope (inBlock run) := by
  intro s
  have hwithin := hrun { s with scope := s.scope.openBlock }
  rw [inBlock_eq_rescoped]
  rcases hx : run { s with scope := s.scope.openBlock } with ⟨a, s₁⟩ | ⟨e, s₁⟩
  · rw [after_of_ok hx] at hwithin
    rw [after_of_ok (rescoped_of_ok hx)]
    exact LexicalScope.closeBlock_of_within hwithin
  · rw [after_of_error hx] at hwithin
    rw [after_of_error (rescoped_of_error hx)]
    exact LexicalScope.closeBlock_of_within hwithin

lemma outer {x : Lower α} (hx : KeepsScope x) : KeepsOuterScope x :=
  fun s => LexicalScope.within_of_eq (hx s)

end KeepsScope

namespace KeepsOuterScope

lemma bind {x : Lower α} {f : α → Lower β} (hx : KeepsOuterScope x)
    (hf : ∀ a, KeepsOuterScope (f a)) : KeepsOuterScope (x >>= f) :=
  Moves.bind (fun h h' => h.trans h') hx hf

lemma addLocal (name : String) (a : Allocation) : KeepsOuterScope (addLocal name a) :=
  fun s => s.scope.within_addLocal name a

end KeepsOuterScope

/-- Default values that are left out are made without a change of the names in scope. -/
def Context.KeepsScope (ctx : Context) : Prop :=
  ∀ formal v, Lower.KeepsScope (ctx.omitted formal v)

/-! ## Values, calls and variables -/

lemma dimensionNode_keepsScope (index : Nat) (d : Dimension) :
    KeepsScope (dimensionNode symbols index d) := by
  rcases d with n | name
  · exact .pure _
  · exact (KeepsScope.resolve name).bind fun _ => .pure _

lemma dimensionNodes_keepsScope (index : Nat) (ds : List Dimension) :
    KeepsScope (dimensionNodes symbols index ds) := by
  induction ds generalizing index with
  | nil => exact .pure _
  | cons d rest ih =>
    exact (dimensionNode_keepsScope index d).bind fun _ => (ih (index + 1)).bind fun _ => .pure _

lemma typeNode_keepsScope (tag : String) (ty : TypeRef) : KeepsScope (typeNode symbols tag ty) :=
  (dimensionNodes_keepsScope 0 ty.dims).bind fun _ => .pure _

lemma omittedNodes_keepsScope (hctx : ctx.KeepsScope) (formals : List Formal) :
    KeepsScope (omittedNodes ctx formals) := by
  induction formals with
  | nil => exact .pure _
  | cons formal rest ih =>
    simp only [omittedNodes]
    rcases formal.externalDefault with _ | v
    · exact ih
    · exact (hctx formal v).bind fun _ => ih.bind fun _ => .pure _

mutual

lemma value_keepsScope (hctx : ctx.KeepsScope) {formal : Option Allocation} {depth : Nat} :
    ∀ v : Value, KeepsScope (value ctx formal depth v)
  | ⟨kind, allocation⟩ => by
    simp only [value]
    exact (KeepsScope.checkDepth depth).bind fun _ => (KeepsScope.allocated allocation).bind fun a =>
      (KeepsScope.reserve a.library).bind fun place => (valueNodes_keepsScope hctx kind).bind
        fun _ => (KeepsScope.fill a.library place _).bind fun _ => .pure a

lemma valueNodes_keepsScope (hctx : ctx.KeepsScope) {depth : Nat} :
    ∀ kind : ValueKind, KeepsScope (valueNodes ctx depth kind)
  | .literal _ => by
    simp only [valueNodes]
    exact .pure _
  | .variable name => by
    simp only [valueNodes]
    exact (KeepsScope.resolve name).bind fun _ => .pure _
  | .presetMember preset member => by
    simp only [valueNodes]
    refine (KeepsScope.ofExcept _).bind fun p => ?_
    rcases p.member? member with _ | a
    · exact .throw _
    · exact .pure _
  | .arrayElement name indices => by
    simp only [valueNodes]
    exact (KeepsScope.resolve name).bind fun _ =>
      (indexNodes_keepsScope hctx indices).bind fun _ => .pure _
  | .call c => by
    simp only [valueNodes]
    exact (call_keepsScope hctx c).bind fun _ => .pure _
  | .block _ => by
    simp only [valueNodes]
    exact .shape _

lemma indexNodes_keepsScope (hctx : ctx.KeepsScope) {depth : Nat} :
    ∀ vs : List Value, KeepsScope (indexNodes ctx depth vs)
  | [] => by
    simp only [indexNodes]
    exact .pure _
  | v :: rest => by
    simp only [indexNodes]
    exact (value_keepsScope hctx v).bind fun _ =>
      (indexNodes_keepsScope hctx rest).bind fun _ => .pure _

lemma call_keepsScope (hctx : ctx.KeepsScope) {formal : Option Allocation} {depth : Nat} :
    ∀ c : Call, KeepsScope (call ctx formal depth c)
  | ⟨callee, args, allocation⟩ => by
    simp only [call]
    refine (KeepsScope.checkDepth depth).bind fun _ => (KeepsScope.ofExcept _).bind fun f => ?_
    split_ifs
    · exact .shape_bind _
    rcases hmissing : (f.formals.drop args.length).find? (!·.hasDefault) with _ | missing <;>
      simp only [hmissing]
    · refine (KeepsScope.allocated allocation).bind fun a => ?_
      rcases f.allocation with _ | target
      · exact .shape _
      · exact (KeepsScope.reserve a.library).bind fun place =>
          (actualNodes_keepsScope hctx args f.formals).bind fun _ =>
            (omittedNodes_keepsScope hctx _).bind fun _ =>
              (KeepsScope.fill a.library place _).bind fun _ => .pure a
    · exact .shape_bind _

lemma actualNodes_keepsScope (hctx : ctx.KeepsScope) {callee : String} {depth : Nat} :
    ∀ (args : List Value) (formals : List Formal),
      KeepsScope (actualNodes ctx callee depth args formals)
  | [], _ => by
    simp only [actualNodes]
    exact .pure _
  | _ :: _, [] => by
    simp only [actualNodes]
    exact .pure _
  | ⟨kind, allocation⟩ :: args, formal :: formals => by
    cases kind with
    | block b =>
      simp only [actualNodes]
      split_ifs
      · rcases formal.allocation with _ | a
        · exact .shape _
        · exact (KeepsScope.inBlock (blockNodes_keepsOuterScope hctx b)).bind fun _ =>
            (actualNodes_keepsScope hctx args formals).bind fun _ => .pure _
      · exact .shape _
    | _ =>
      simp only [actualNodes]
      split_ifs
      · exact .shape _
      · exact (value_keepsScope hctx _).bind fun _ =>
          (actualNodes_keepsScope hctx args formals).bind fun _ => .pure _

lemma blockNodes_keepsOuterScope (hctx : ctx.KeepsScope) {tag : String} {formal : Option Allocation}
    {depth : Nat} : ∀ b : Block, KeepsOuterScope (blockNodes ctx tag formal depth b)
  | ⟨locals, statements⟩ => by
    simp only [blockNodes]
    exact (localNodes_keepsOuterScope hctx locals).bind fun _ =>
      (statementNodes_keepsScope hctx statements).outer.bind fun _ =>
        (KeepsScope.pure _).outer

lemma localNodes_keepsOuterScope (hctx : ctx.KeepsScope) {depth : Nat} :
    ∀ ds : List VariableDef, KeepsOuterScope (localNodes ctx depth ds)
  | [] => by
    simp only [localNodes]
    exact (KeepsScope.pure _).outer
  | d :: rest => by
    simp only [localNodes]
    exact (variableDef_keepsScope hctx d).outer.bind fun a =>
      (KeepsOuterScope.addLocal d.name a).bind fun _ =>
        (localNodes_keepsOuterScope hctx rest).bind fun _ => (KeepsScope.pure _).outer

lemma statementNodes_keepsScope (hctx : ctx.KeepsScope) {tag : String} {formal : Option Allocation}
    {depth : Nat} : ∀ cs : List Call, KeepsScope (statementNodes ctx tag formal depth cs)
  | [] => by
    simp only [statementNodes]
    exact .pure _
  | c :: rest => by
    simp only [statementNodes]
    exact (call_keepsScope hctx c).bind fun _ =>
      (statementNodes_keepsScope hctx rest).bind fun _ => .pure _

lemma variableDef_keepsScope (hctx : ctx.KeepsScope) {depth : Nat} :
    ∀ d : VariableDef, KeepsScope (variableDef ctx depth d)
  | ⟨attributes, ty, name, v, allocation⟩ => by
    simp only [variableDef]
    exact (KeepsScope.allocated allocation).bind fun a => (KeepsScope.validate _ _ _ _).bind fun _ =>
      (KeepsScope.reserve a.library).bind fun place => (typeNode_keepsScope _ ty).bind fun _ =>
        (value_keepsScope hctx v).bind fun _ =>
          (KeepsScope.fill a.library place _).bind fun _ => .pure a

end

/-- Default values are made in a scope of their own. -/
lemma omittedDefault_keepsScope (symbols : Symbols) (budget : Nat) (formal : Formal) (v : Value) :
    KeepsScope (omittedDefault symbols budget formal v) := by
  rw [omittedDefault]
  refine (KeepsScope.allocated v.allocation).bind fun a => (KeepsScope.begin a).bind fun fresh => ?_
  cases fresh
  · exact .pure a
  · cases budget with
    | zero => exact fun _ => rfl
    | succ budget => exact (KeepsScope.inScope {} _).bind fun _ => .pure a

/-- Lowering an expression leaves the names in scope as it found them. Whatever the state, the depth
and the defaults that may still be made, the open blocks, the parameters and the locals of the
definition are the same behind a value, a call and a variable as in front of them, whether lowering
them succeeds or fails somewhere inside. So a local of a block is not seen outside of it: in front
of the block and behind it each name means the same. -/
theorem scope_after_expression (symbols : Symbols) (budget depth : Nat) (s : LowerState) :
    let ctx : Context := ⟨symbols, omittedDefault symbols budget⟩
    (∀ formal v, (after (value ctx formal depth v) s).scope = s.scope) ∧
      (∀ formal c, (after (call ctx formal depth c) s).scope = s.scope) ∧
      (∀ d, (after (variableDef ctx depth d) s).scope = s.scope) ∧
      ∀ tag formal b name,
        (after (inBlock (blockNodes ctx tag formal depth b)) s).scope.resolve symbols name =
          s.scope.resolve symbols name := by
  intro ctx
  have hctx : ctx.KeepsScope := omittedDefault_keepsScope symbols budget
  refine ⟨fun _ v => value_keepsScope hctx v s, fun _ c => call_keepsScope hctx c s,
    fun d => variableDef_keepsScope hctx d s, fun tag formal b name => ?_⟩
  rw [KeepsScope.inBlock (blockNodes_keepsOuterScope hctx b) s]

end Lower

end TriggerScript
