import TriggerScript.Proofs.Lowering.Operations
import TriggerScript.Proofs.Lowering.Pools

/-!
# What lowering is put together from

Whatever lowering does, it does by a few kinds of steps. Most steps leave the places of elements alone.
A place is reserved, the elements behind it are made, and then it is filled. Default values that are
left out are made by a computation of their own, which the rest of lowering depends on.

The main definition is `Lower.Orderly`, and the main result `Lower.all_orderly`: lowering is put
together from such steps, whatever the slots of a program and a catalog hold. So what each kind of step
keeps is kept by lowering as a whole, whether it succeeds or fails.
-/

namespace TriggerScript

/-- An error that says nothing about the input. -/
def LoweringError.IsInternal : LoweringError → Prop
  | .placeTaken _ _ => True
  | .endlessDefaults => True
  | _ => False

namespace Lower

variable {α β γ : Type} {symbols : Symbols} {s s₁ s' : LowerState} {a : α} {e : LoweringError}

/-- A computation that makes default values that are left out. -/
abbrev Omitted := Formal → Value → Lower Allocation

/-- The state that a computation leaves behind, whether it succeeds or fails. -/
def after (x : Lower α) (s : LowerState) : LowerState :=
  match x s with
  | .ok _ s' => s'
  | .error _ s' => s'

lemma after_of_ok {x : Lower α} (h : x s = .ok a s') : after x s = s' := by
  rw [after, h]

lemma after_of_error {x : Lower α} (h : x s = .error e s') : after x s = s' := by
  rw [after, h]

lemma after_bind_of_ok {x : Lower α} {f : α → Lower β} (h : x s = .ok a s₁) :
    after (x >>= f) s = after (f a) s₁ := by
  rw [after, bind_of_ok h, after]

/-- Whether a computation succeeds or fails, it leads from a state to one that is related to it. -/
def Moves (R : LowerState → LowerState → Prop) (x : Lower α) : Prop :=
  ∀ s, R s (after x s)

lemma Moves.bind {R : LowerState → LowerState → Prop} (htrans : ∀ {s s₁ s₂}, R s s₁ → R s₁ s₂ → R s s₂)
    {x : Lower α} {f : α → Lower β} (hx : Moves R x) (hf : ∀ a, Moves R (f a)) :
    Moves R (x >>= f) := by
  intro s
  have hs := hx s
  rcases hrun : x s with ⟨a, s₁⟩ | ⟨e, s₁⟩
  · rw [after_of_ok hrun] at hs
    rw [after_bind_of_ok hrun]
    exact htrans hs (hf a s₁)
  · rw [after_of_error hrun] at hs
    rw [after_of_error (bind_of_error hrun)]
    exact hs

/-- Runs a computation in the scope that `enter` makes of the one before it. Behind it there is the scope
that `leave` makes of the one before it and the one in which it ends. -/
def rescoped (enter : LexicalScope → LexicalScope)
    (leave : LexicalScope → LexicalScope → LexicalScope) (run : Lower α) : Lower α :=
  fun s =>
    match run { s with scope := enter s.scope } with
    | .ok a s' => .ok a { s' with scope := leave s.scope s'.scope }
    | .error e s' => .error e { s' with scope := leave s.scope s'.scope }

lemma inScope_eq_rescoped (scope : LexicalScope) (run : Lower α) :
    inScope scope run = rescoped (fun _ => scope) (fun before _ => before) run :=
  rfl

lemma inBlock_eq_rescoped (run : Lower α) :
    inBlock run = rescoped LexicalScope.openBlock (fun _ inside => inside.closeBlock) run :=
  rfl

lemma rescoped_of_ok {enter : LexicalScope → LexicalScope}
    {leave : LexicalScope → LexicalScope → LexicalScope} {run : Lower α}
    (h : run { s with scope := enter s.scope } = .ok a s₁) :
    rescoped enter leave run s = .ok a { s₁ with scope := leave s.scope s₁.scope } := by
  rw [rescoped, h]

lemma rescoped_of_error {enter : LexicalScope → LexicalScope}
    {leave : LexicalScope → LexicalScope → LexicalScope} {run : Lower α}
    (h : run { s with scope := enter s.scope } = .error e s₁) :
    rescoped enter leave run s = .error e { s₁ with scope := leave s.scope s₁.scope } := by
  rw [rescoped, h]

/-- Reserves a place, runs a computation and fills the place with an element for what it yields. -/
def placed (library : String) (element : α → Node) (run : Lower α) : Lower α := do
  let place ← reserve library
  let a ← run
  fill library place (element a)
  return a

/-- The state behind the reservation of a place. -/
def reserving (library : String) (s : LowerState) : LowerState :=
  { s with pools := s.pools.reserve library }

lemma reserve_eq_ok (library : String) (s : LowerState) :
    reserve library s = .ok (s.pools.nextPlace library) (reserving library s) :=
  reserve_ok_iff.2 ⟨rfl, rfl⟩

/-- A place that is not open cannot be filled, and nothing else can go wrong with it. -/
lemma fill_cases (library : String) (place : Nat) (n : Node) (s : LowerState) :
    fill library place n s = .ok () { s with pools := s.pools.fill library place n } ∨
      fill library place n s = .error (.placeTaken library place) s := by
  by_cases hopen : s.pools.isOpen library place
  · exact .inl (fill_ok_iff.2 ⟨hopen, rfl⟩)
  · right
    rw [fill, bind_of_ok (get_ok_iff.2 ⟨rfl, rfl⟩), if_neg hopen]
    rfl

lemma placed_of_ok {library : String} (element : α → Node) {run : Lower α}
    (h : run (reserving library s) = .ok a s₁)
    (hopen : s₁.pools.isOpen library (s.pools.nextPlace library)) :
    placed library element run s =
      .ok a { s₁ with
        pools := s₁.pools.fill library (s.pools.nextPlace library) (element a) } := by
  rw [placed, bind_of_ok (reserve_eq_ok library s), bind_of_ok h,
    bind_of_ok (a := ()) (fill_ok_iff.2 ⟨hopen, rfl⟩)]
  rfl

lemma placed_of_error {library : String} (element : α → Node) {run : Lower α}
    (h : run (reserving library s) = .error e s₁) : placed library element run s = .error e s₁ := by
  rw [placed, bind_of_ok (reserve_eq_ok library s), bind_of_error h]

/-- A step that leaves the places of elements alone, forgets nothing that has been begun and fails only
because of the input. -/
structure Quiet (x : Lower α) : Prop where
  places : ∀ s l, (after x s).pools.places l = s.pools.places l
  done : ∀ s, s.done ⊆ (after x s).done
  input : ∀ s e s', x s = .error e s' → ¬e.IsInternal

namespace Quiet

lemma pure (a : α) : Quiet (Pure.pure a) :=
  ⟨fun _ _ => rfl, fun _ => List.Subset.refl _, fun _ _ _ h => by cases h⟩

lemma throw (he : ¬e.IsInternal) : Quiet (throw e : Lower α) := by
  refine ⟨fun _ _ => rfl, fun _ => List.Subset.refl _, fun s e' s' h => ?_⟩
  have h' : EStateM.Result.error (α := α) e s = .error e' s' := h
  obtain ⟨rfl, -⟩ := EStateM.Result.error.inj h'
  exact he

lemma get : Quiet (MonadState.get : Lower LowerState) :=
  ⟨fun _ _ => rfl, fun _ => List.Subset.refl _, fun _ _ _ h => by cases h⟩

/-- A change of the state that leaves places and what has been begun alone. -/
lemma modify {f : LowerState → LowerState} (hplaces : ∀ s l, (f s).pools.places l = s.pools.places l)
    (hdone : ∀ s, (f s).done = s.done) : Quiet (modify f : Lower Unit) :=
  ⟨hplaces, fun s => (hdone s).symm ▸ List.Subset.refl _, fun _ _ _ h => by cases h⟩

lemma touch (library : String) : Quiet (touch library) :=
  modify (fun _ _ => Pools.places_touch) fun _ => rfl

lemma addToRoot (library : String) (item : Node) : Quiet (addToRoot library item) :=
  modify (fun _ _ => Pools.places_addToRoot) fun _ => rfl

lemma addLocal (name : String) (a : Allocation) : Quiet (addLocal name a) :=
  modify (fun _ _ => rfl) fun _ => rfl

lemma addParameter (name : String) (a : Allocation) : Quiet (addParameter name a) :=
  modify (fun _ _ => rfl) fun _ => rfl

lemma begin (a : Allocation) : Quiet (begin a) := by
  have hbegin : ∀ s, Lower.begin a s = .ok false s ∨
      Lower.begin a s = .ok true { s with done := a :: s.done } := by
    intro s
    by_cases hdone : a ∈ s.done
    · exact .inl (begin_ok_iff.2 (.inl ⟨hdone, rfl, rfl⟩))
    · exact .inr (begin_ok_iff.2 (.inr ⟨hdone, rfl, rfl⟩))
  refine ⟨fun s l => ?_, fun s => ?_, fun s e s' h => ?_⟩ <;> rcases hbegin s with hs | hs
  · rw [after_of_ok hs]
  · rw [after_of_ok hs]
  · rw [after_of_ok hs]
    exact List.Subset.refl _
  · rw [after_of_ok hs]
    exact List.subset_cons_self _ _
  · rw [hs] at h
    cases h
  · rw [hs] at h
    cases h

lemma ofExcept {x : Except LoweringError α} (hx : ∀ e, x = .error e → ¬e.IsInternal) :
    Quiet (ofExcept x) := by
  rcases x with e | a
  · exact throw (hx e rfl)
  · exact pure a

lemma shape (message : String) : Quiet (shape message : Lower α) :=
  throw id

lemma allocated (slot : Option Allocation) : Quiet (allocated slot) := by
  rcases slot with _ | a
  · exact throw id
  · exact pure a

lemma checkDepth (depth : Nat) : Quiet (checkDepth depth) := by
  rw [Lower.checkDepth]
  split_ifs
  · exact shape _
  · exact pure ()

lemma validate (flags valued : List String) (owner : String) (attributes : List Attribute) :
    Quiet (validate flags valued owner attributes) := by
  induction attributes with
  | nil => exact pure ()
  | cons a rest ih =>
    rw [Lower.validate]
    split_ifs
    · exact ih
    · exact shape _

end Quiet

/-- Computations that are put together from steps in good order: a place that is reserved is filled when
the elements behind it have been made, and places are not filled otherwise. The default values that are
left out are those of imported parameters, and they are made by what the computation depends on. -/
inductive Orderly (symbols : Symbols) : {α : Type} → (Omitted → Lower α) → Prop
  | quiet {α : Type} {x : Lower α} (hx : Quiet x) : Orderly symbols fun _ => x
  | append (library : String) (elements : List Node) :
      Orderly symbols fun _ => append library elements
  | omitted (formal : Formal) {v : Value} (hv : v ∈ symbols.externalDefaults) :
      Orderly symbols fun omitted => omitted formal v
  | bind {α β : Type} {run : Omitted → Lower α} {next : α → Omitted → Lower β}
      (hrun : Orderly symbols run) (hnext : ∀ a, Orderly symbols (next a)) :
      Orderly symbols fun omitted => run omitted >>= fun a => next a omitted
  | rescoped {α : Type} (enter : LexicalScope → LexicalScope)
      (leave : LexicalScope → LexicalScope → LexicalScope) {run : Omitted → Lower α}
      (hrun : Orderly symbols run) : Orderly symbols fun omitted => rescoped enter leave (run omitted)
  | placed {α : Type} (library : String) (element : α → Node) {run : Omitted → Lower α}
      (hrun : Orderly symbols run) : Orderly symbols fun omitted => placed library element (run omitted)

namespace Orderly

lemma pure (a : α) : Orderly symbols fun _ => Pure.pure a :=
  .quiet (.pure a)

lemma shape (message : String) : Orderly symbols fun _ => (shape message : Lower α) :=
  .quiet (.shape message)

/-- Nothing is done behind a failure. -/
lemma shape_bind (message : String) {next : α → Omitted → Lower β} :
    Orderly symbols fun omitted => Lower.shape message >>= fun a => next a omitted :=
  .quiet (.shape message)

lemma allocated (slot : Option Allocation) : Orderly symbols fun _ => allocated slot :=
  .quiet (.allocated slot)

lemma inScope (scope : LexicalScope) {run : Omitted → Lower α} (hrun : Orderly symbols run) :
    Orderly symbols fun omitted => inScope scope (run omitted) := by
  simpa only [inScope_eq_rescoped] using hrun.rescoped _ _

lemma inBlock {run : Omitted → Lower α} (hrun : Orderly symbols run) :
    Orderly symbols fun omitted => inBlock (run omitted) := by
  simpa only [inBlock_eq_rescoped] using hrun.rescoped _ _

/-- What is looked up first is known behind the lookup. -/
lemma ofExcept_bind {x : Except LoweringError α} (hx : ∀ e, x = .error e → ¬e.IsInternal)
    {next : α → Omitted → Lower β} (hnext : ∀ a, x = .ok a → Orderly symbols (next a)) :
    Orderly symbols fun omitted => ofExcept x >>= fun a => next a omitted := by
  rcases x with e | a
  · exact .quiet (.throw (hx e rfl))
  · exact hnext a rfl

/-- A place that is reserved and filled in the middle of a computation. -/
lemma place_bind (library : String) {run : Omitted → Lower α} (element : α → Node)
    {next : α → Omitted → Lower β} (hrun : Orderly symbols run)
    (hnext : ∀ a, Orderly symbols (next a)) :
    Orderly symbols fun omitted => (do
      let place ← reserve library
      let a ← run omitted
      fill library place (element a)
      next a omitted) := by
  simpa only [Lower.placed, bind_assoc, pure_bind] using (hrun.placed library element).bind hnext

/-- The elements behind a place can be made in two steps. -/
lemma place_bind₂ (library : String) {run : Omitted → Lower α} {run' : α → Omitted → Lower β}
    (element : α → β → Node) {next : α → β → Omitted → Lower γ} (hrun : Orderly symbols run)
    (hrun' : ∀ a, Orderly symbols (run' a)) (hnext : ∀ a b, Orderly symbols (next a b)) :
    Orderly symbols fun omitted => (do
      let place ← reserve library
      let a ← run omitted
      let b ← run' a omitted
      fill library place (element a b)
      next a b omitted) := by
  have hboth : Orderly symbols fun omitted => (do
      let a ← run omitted
      let b ← run' a omitted
      return (a, b)) := hrun.bind fun a => (hrun' a).bind fun b => .pure (a, b)
  simpa only [bind_assoc, pure_bind] using
    place_bind library (fun x : α × β => element x.1 x.2) hboth fun x => hnext x.1 x.2

end Orderly

lemma resolve_orderly (name : String) : Orderly symbols fun _ => resolve symbols name := by
  refine .bind (.quiet .get) fun s => .quiet (.ofExcept fun e he => ?_)
  rw [LexicalScope.resolve] at he
  split at he
  · cases he
  · split at he
    · obtain ⟨rfl⟩ := he
      exact id
    · split at he
      · cases he
      · obtain ⟨rfl⟩ := he
        exact id

lemma not_isInternal_of_callable {name : String} (h : symbols.callable name = .error e) :
    ¬e.IsInternal := by
  rw [Symbols.callable] at h
  split at h
  · cases h
  · obtain ⟨rfl⟩ := h
    exact id

lemma not_isInternal_of_preset {name : String} (h : symbols.preset name = .error e) : ¬e.IsInternal := by
  rw [Symbols.preset] at h
  split at h
  · cases h
  · obtain ⟨rfl⟩ := h
    exact id

/-! ## Values, calls and variables -/

lemma dimensionNode_orderly (index : Nat) (d : Dimension) :
    Orderly symbols fun _ => dimensionNode symbols index d := by
  rcases d with n | name
  · exact .pure _
  · exact (resolve_orderly name).bind fun _ => .pure _

lemma dimensionNodes_orderly (index : Nat) (ds : List Dimension) :
    Orderly symbols fun _ => dimensionNodes symbols index ds := by
  induction ds generalizing index with
  | nil => exact .pure _
  | cons d rest ih =>
    exact (dimensionNode_orderly index d).bind fun _ => (ih (index + 1)).bind fun _ => .pure _

lemma typeNode_orderly (tag : String) (ty : TypeRef) :
    Orderly symbols fun _ => typeNode symbols tag ty :=
  (dimensionNodes_orderly 0 ty.dims).bind fun _ => .pure _

/-- What can be left out of calls is among the default values of imported parameters. -/
lemma mem_externalDefaults_of_callable {name : String} {f : Callable}
    (hf : symbols.callable name = .ok f) {formal : Formal} (hformal : formal ∈ f.formals)
    {v : Value} (hv : formal.externalDefault = some v) : v ∈ symbols.externalDefaults := by
  rw [Symbols.callable] at hf
  rcases hlookup : symbols.callables.lookup name with _ | g <;> rw [hlookup] at hf
  · cases hf
  · obtain ⟨rfl⟩ := hf
    obtain ⟨_, _, hcallables, -⟩ := List.lookup_eq_some_iff.1 hlookup
    refine List.mem_flatMap.2 ⟨(name, f), ?_, List.mem_filterMap.2 ⟨formal, hformal, hv⟩⟩
    rw [hcallables]
    exact List.mem_append_right _ List.mem_cons_self

lemma omittedNodes_orderly {formals : List Formal}
    (h : ∀ formal ∈ formals, ∀ v, formal.externalDefault = some v → v ∈ symbols.externalDefaults) :
    Orderly symbols fun omitted => omittedNodes ⟨symbols, omitted⟩ formals := by
  induction formals with
  | nil => exact .pure _
  | cons formal rest ih =>
    obtain ⟨hformal, hrest⟩ := List.forall_mem_cons.1 h
    simp only [omittedNodes]
    rcases hv : formal.externalDefault with _ | v
    · exact ih hrest
    · exact (Orderly.omitted formal (hformal v hv)).bind fun _ => (ih hrest).bind fun _ => .pure _

mutual

lemma value_orderly {formal : Option Allocation} {depth : Nat} : ∀ v : Value,
    Orderly symbols fun omitted => value ⟨symbols, omitted⟩ formal depth v
  | ⟨kind, allocation⟩ => by
    simp only [value]
    exact .bind (.quiet (.checkDepth depth)) fun _ => (Orderly.allocated allocation).bind fun a =>
      .place_bind a.library _ (valueNodes_orderly kind) fun _ => .pure a

lemma valueNodes_orderly {depth : Nat} : ∀ kind : ValueKind,
    Orderly symbols fun omitted => valueNodes ⟨symbols, omitted⟩ depth kind
  | .literal _ => by
    simp only [valueNodes]
    exact .pure _
  | .variable name => by
    simp only [valueNodes]
    exact (resolve_orderly name).bind fun _ => .pure _
  | .presetMember preset member => by
    simp only [valueNodes]
    refine .ofExcept_bind (fun _ => not_isInternal_of_preset) fun p _ => ?_
    rcases p.member? member with _ | a
    · exact .quiet (.throw id)
    · exact .pure _
  | .arrayElement name indices => by
    simp only [valueNodes]
    exact (resolve_orderly name).bind fun _ => (indexNodes_orderly indices).bind fun _ => .pure _
  | .call c => by
    simp only [valueNodes]
    exact (call_orderly c).bind fun _ => .pure _
  | .block _ => by
    simp only [valueNodes]
    exact .shape _

lemma indexNodes_orderly {depth : Nat} : ∀ vs : List Value,
    Orderly symbols fun omitted => indexNodes ⟨symbols, omitted⟩ depth vs
  | [] => by
    simp only [indexNodes]
    exact .pure _
  | v :: rest => by
    simp only [indexNodes]
    exact (value_orderly v).bind fun _ => (indexNodes_orderly rest).bind fun _ => .pure _

lemma call_orderly {formal : Option Allocation} {depth : Nat} : ∀ c : Call,
    Orderly symbols fun omitted => call ⟨symbols, omitted⟩ formal depth c
  | ⟨callee, args, allocation⟩ => by
    simp only [call]
    refine .bind (.quiet (.checkDepth depth)) fun _ =>
      .ofExcept_bind (fun _ => not_isInternal_of_callable) fun f hf => ?_
    split_ifs
    · exact .shape_bind _
    rcases hmissing : (f.formals.drop args.length).find? (!·.hasDefault) with _ | missing <;>
      simp only [hmissing]
    · refine (Orderly.allocated allocation).bind fun a => ?_
      rcases f.allocation with _ | target
      · exact .shape _
      · exact .place_bind₂ a.library _ (actualNodes_orderly args f.formals)
          (fun _ => omittedNodes_orderly fun formal hformal v hv =>
            mem_externalDefaults_of_callable hf (List.mem_of_mem_drop hformal) hv) fun _ _ => .pure a
    · exact .shape_bind _

lemma actualNodes_orderly {callee : String} {depth : Nat} :
    ∀ (args : List Value) (formals : List Formal),
      Orderly symbols fun omitted => actualNodes ⟨symbols, omitted⟩ callee depth args formals
  | [], _ => by
    simp only [actualNodes]
    exact .pure _
  | _ :: _, [] => by
    simp only [actualNodes]
    exact .pure _
  | ⟨kind, allocation⟩ :: args, formal :: formals => by
    cases kind with
    | block b =>
      simp only [actualNodes]
      split_ifs
      · rcases formal.allocation with _ | a
        · exact .shape _
        · exact (blockNodes_orderly b).inBlock.bind fun _ =>
            (actualNodes_orderly args formals).bind fun _ => .pure _
      · exact .shape _
    | _ =>
      simp only [actualNodes]
      split_ifs
      · exact .shape _
      · exact (value_orderly _).bind fun _ => (actualNodes_orderly args formals).bind fun _ => .pure _

lemma blockNodes_orderly {tag : String} {formal : Option Allocation} {depth : Nat} : ∀ b : Block,
    Orderly symbols fun omitted => blockNodes ⟨symbols, omitted⟩ tag formal depth b
  | ⟨locals, statements⟩ => by
    simp only [blockNodes]
    exact (localNodes_orderly locals).bind fun _ =>
      (statementNodes_orderly statements).bind fun _ => .pure _

lemma localNodes_orderly {depth : Nat} : ∀ ds : List VariableDef,
    Orderly symbols fun omitted => localNodes ⟨symbols, omitted⟩ depth ds
  | [] => by
    simp only [localNodes]
    exact .pure _
  | d :: rest => by
    simp only [localNodes]
    exact (variableDef_orderly d).bind fun a => .bind (.quiet (.addLocal d.name a)) fun _ =>
      (localNodes_orderly rest).bind fun _ => .pure _

lemma statementNodes_orderly {tag : String} {formal : Option Allocation} {depth : Nat} :
    ∀ cs : List Call,
      Orderly symbols fun omitted => statementNodes ⟨symbols, omitted⟩ tag formal depth cs
  | [] => by
    simp only [statementNodes]
    exact .pure _
  | c :: rest => by
    simp only [statementNodes]
    exact (call_orderly c).bind fun _ => (statementNodes_orderly rest).bind fun _ => .pure _

lemma variableDef_orderly {depth : Nat} : ∀ d : VariableDef,
    Orderly symbols fun omitted => variableDef ⟨symbols, omitted⟩ depth d
  | ⟨attributes, ty, name, v, allocation⟩ => by
    simp only [variableDef]
    exact (Orderly.allocated allocation).bind fun a => .bind (.quiet (.validate _ _ _ _)) fun _ =>
      .place_bind₂ a.library _ (typeNode_orderly _ ty) (fun _ => value_orderly v) fun _ _ => .pure a

end

/-- What has been begun before is treated in one way, and what is begun in another. -/
lemma Orderly.begun (slot : Option Allocation) {next : Allocation → Bool → Omitted → Lower α}
    (hold : ∀ a, Orderly symbols (next a false)) (hnew : ∀ a, Orderly symbols (next a true)) :
    Orderly symbols fun omitted => (do
      let a ← Lower.allocated slot
      let fresh ← begin a
      next a fresh omitted) := by
  refine (Orderly.allocated slot).bind fun a => .bind (.quiet (.begin a)) fun fresh => ?_
  cases fresh
  · exact hold a
  · exact hnew a

/-- Makes the default value of an imported parameter unless that has been begun before, where `omitted`
makes those that are left out in it. -/
def defaultStep (symbols : Symbols) (omitted : Omitted) : Omitted :=
  fun formal v => do
    let a ← allocated v.allocation
    if ← begin a then
      let _ ← inScope {} (value ⟨symbols, omitted⟩ formal.allocation 0 v)
    return a

lemma omittedDefault_succ (symbols : Symbols) (budget : Nat) :
    omittedDefault symbols (budget + 1) = defaultStep symbols (omittedDefault symbols budget) := by
  funext formal v
  rw [omittedDefault]
  rfl

lemma defaultStep_orderly (formal : Formal) (v : Value) :
    Orderly symbols fun omitted => defaultStep symbols omitted formal v :=
  .begun v.allocation (fun a => .pure a) fun a =>
    ((value_orderly v).inScope {}).bind fun _ => .pure a

/-! ## Definitions -/

lemma defaultNodes_orderly (v? : Option Value) :
    Orderly symbols fun omitted => defaultNodes ⟨symbols, omitted⟩ v? := by
  rcases v? with _ | v
  · exact .pure _
  · exact ((value_orderly v).inScope _).bind fun _ => .pure _

lemma paramNodes_orderly (ds : List ParamDef) :
    Orderly symbols fun omitted => paramNodes ⟨symbols, omitted⟩ ds := by
  induction ds with
  | nil => exact .pure _
  | cons d rest ih =>
    exact .bind (.quiet (.validate _ _ _ _)) fun _ => (Orderly.allocated d.allocation).bind fun a =>
      .place_bind₂ a.library _ (typeNode_orderly _ d.ty) (fun _ => defaultNodes_orderly d.default)
        fun _ _ => .bind (.quiet (.addParameter d.name a)) fun _ => ih.bind fun _ => .pure _

lemma trigger_orderly (d : TriggerDef) :
    Orderly symbols fun omitted => trigger ⟨symbols, omitted⟩ d := by
  have hparts : Orderly symbols fun omitted => (do
      let event ← call ⟨symbols, omitted⟩ none 0 d.event
      let body ← blockNodes ⟨symbols, omitted⟩ "Action" none 0 d.body
      return .reference "Event" .functionCall event :: body) :=
    (call_orderly d.event).bind fun _ => (blockNodes_orderly d.body).bind fun _ => .pure _
  exact .begun d.allocation (fun _ => .pure _) fun a => .bind (.quiet (.validate _ _ _ _)) fun _ =>
    .place_bind a.library _ (hparts.inScope {}) fun _ => .pure _

lemma returnNodes_orderly (ty : TypeRef) :
    Orderly symbols fun omitted => returnNodes ⟨symbols, omitted⟩ ty := by
  simp only [returnNodes]
  split_ifs
  · exact .pure _
  · exact (typeNode_orderly _ ty).bind fun _ => .pure _

lemma function_orderly (d : FunctionDef) :
    Orderly symbols fun omitted => function ⟨symbols, omitted⟩ d := by
  have hparts : Orderly symbols fun omitted => (do
      let returns ← returnNodes ⟨symbols, omitted⟩ d.returns
      let params ← paramNodes ⟨symbols, omitted⟩ d.params
      let body ← blockNodes ⟨symbols, omitted⟩ "FunctionCall" none 0 d.body
      return returns ++ params ++ body) :=
    (returnNodes_orderly d.returns).bind fun _ => (paramNodes_orderly d.params).bind fun _ =>
      (blockNodes_orderly d.body).bind fun _ => .pure _
  exact .begun d.allocation (fun _ => .pure _) fun a => .bind (.quiet (.validate _ _ _ _)) fun _ =>
    .place_bind a.library _ (hparts.inScope {}) fun _ => .pure _

lemma memberAllocations_orderly (ms : List PresetMember) :
    Orderly symbols fun _ => memberAllocations ms := by
  induction ms with
  | nil => exact .pure _
  | cons m rest ih => exact (Orderly.allocated m.allocation).bind fun _ => ih.bind fun _ => .pure _

lemma preset_orderly (d : PresetDef) : Orderly symbols fun _ => preset d :=
  .begun d.allocation (fun _ => .pure _) fun a => .bind (.quiet (.validate _ _ _ _)) fun _ =>
    (memberAllocations_orderly d.members).bind fun _ => (Orderly.append a.library _).bind fun _ =>
      .pure _

lemma global_orderly (d : VariableDef) :
    Orderly symbols fun omitted => global ⟨symbols, omitted⟩ d :=
  .begun d.allocation (fun _ => .pure _) fun _ =>
    ((variableDef_orderly d).inScope {}).bind fun _ => .pure _

lemma definition_orderly (d : Definition) :
    Orderly symbols fun omitted => definition ⟨symbols, omitted⟩ d := by
  rcases d with d | d | d | d
  · exact preset_orderly d
  · exact global_orderly d
  · exact function_orderly d
  · exact trigger_orderly d

/-! ## Catalogs and programs -/

lemma leaf_orderly (name : String) :
    Orderly symbols fun omitted => leaf ⟨symbols, omitted⟩ name := by
  simp only [leaf]
  rcases symbols.entry? name with _ | d | (d | d) | (d | d) | (d | d)
  · exact .quiet (.throw id)
  · exact trigger_orderly d
  · exact function_orderly d
  · exact (Orderly.allocated d.allocation).bind fun _ => .pure _
  · exact preset_orderly d
  · exact .shape _
  · exact global_orderly d
  · exact (Orderly.allocated d.allocation).bind fun _ => .pure _

mutual

lemma item_orderly : ∀ i : CatalogItem, Orderly symbols fun omitted => item ⟨symbols, omitted⟩ i
  | .leaf name => by
    simp only [item]
    exact leaf_orderly name
  | .folder f => by
    simp only [item]
    exact folder_orderly f

lemma folder_orderly : ∀ f : Folder, Orderly symbols fun omitted => folder ⟨symbols, omitted⟩ f
  | ⟨_, entries, allocation⟩ => by
    simp only [folder]
    exact (Orderly.allocated allocation).bind fun a =>
      .place_bind a.library _ (items_orderly entries) fun _ => .pure _

lemma items_orderly : ∀ is : List CatalogItem,
    Orderly symbols fun omitted => items ⟨symbols, omitted⟩ is
  | [] => by
    simp only [items]
    exact .pure _
  | i :: rest => by
    simp only [items]
    exact (item_orderly i).bind fun _ => (items_orderly rest).bind fun _ => .pure _

end

lemma rootItems_orderly (library : String) (is : List CatalogItem) :
    Orderly symbols fun omitted => rootItems ⟨symbols, omitted⟩ library is := by
  induction is with
  | nil => exact .pure _
  | cons i rest ih =>
    exact (item_orderly i).bind fun node => .bind (.quiet (.addToRoot library node)) fun _ => ih

lemma catalogLibraries_orderly (ls : List CatalogLibrary) :
    Orderly symbols fun omitted => catalogLibraries ⟨symbols, omitted⟩ ls := by
  induction ls with
  | nil => exact .pure _
  | cons l rest ih =>
    exact .bind (.quiet (.touch l.name)) fun _ => (rootItems_orderly l.name l.items).bind fun _ => ih

lemma definitions_orderly (library : String) (ds : List Definition) :
    Orderly symbols fun omitted => definitions ⟨symbols, omitted⟩ library ds := by
  induction ds with
  | nil => exact .pure _
  | cons d rest ih =>
    simp only [definitions]
    refine .bind (.quiet .get) fun s => ?_
    split_ifs
    · exact (definition_orderly d).bind fun node =>
        .bind (.quiet (.addToRoot library node)) fun _ => ih
    · exact ih

lemma libraries_orderly (ls : List LibraryScope) :
    Orderly symbols fun omitted => libraries ⟨symbols, omitted⟩ ls := by
  induction ls with
  | nil => exact .pure _
  | cons l rest ih =>
    exact .bind (.quiet (.touch l.library)) fun _ =>
      (definitions_orderly l.library l.definitions).bind fun _ => ih

/-- Whatever is lowered, it is lowered in good order. -/
theorem all_orderly (p : Program) (c : Catalog) :
    Orderly symbols fun omitted => all ⟨symbols, omitted⟩ p c :=
  (catalogLibraries_orderly c.libraries).bind fun _ => libraries_orderly p.libraries

end Lower

end TriggerScript
