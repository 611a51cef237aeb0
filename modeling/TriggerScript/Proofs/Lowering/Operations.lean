import TriggerScript.Proofs.Computation
import TriggerScript.Proofs.WellFormed

/-!
# When the small steps of lowering succeed

One lemma for each step: when it succeeds, what it yields and what it leaves behind. Lookups are told
in terms of the last declaration of a name.

Inside a definition, names are looked up in a lexical scope. Whether a lookup succeeds depends on the
names in the scope only (`LexicalScope.names`).
-/

namespace TriggerScript

namespace LexicalScope

variable {scope : LexicalScope} {name : String} {a : Allocation} {b : Binding}

/-- The names that a scope declares. -/
def names (scope : LexicalScope) : Set String :=
  {name | (scope.local? name).isSome}

/-- What a name is bound to, in a scope or else as a global variable. -/
def binding? (scope : LexicalScope) (p : Program) (name : String) : Option Binding :=
  scope.local? name <|> ((p.global? name).bind (·.allocation)).map .variable

/-- The scope behind the declarations of local variables. -/
def declare (scope : LexicalScope) : List VariableDef → LexicalScope
  | [] => scope
  | d :: rest => (d.allocation.elim scope (scope.addLocal d.name)).declare rest

@[simp] lemma names_empty : names {} = ∅ := by
  ext name
  simp [names, local?]

@[simp] lemma names_openBlock (scope : LexicalScope) : scope.openBlock.names = scope.names := by
  ext name
  simp [names, local?, openBlock]

lemma names_addParameter (scope : LexicalScope) (name : String) (a : Allocation) :
    (scope.addParameter name a).names = insert name scope.names := by
  ext other
  by_cases h : other = name
  · subst h
    simp [names, local?, addParameter]
  · simp [names, local?, addParameter, h, List.lookup_cons, beq_false_of_ne h]

/-- A local of an open block is the first that its name means. -/
lemma local?_addLocal_of_block (h : scope.blocks ≠ []) (name : String) (a : Allocation)
    (other : String) :
    (scope.addLocal name a).local? other =
      if other = name then some (.variable a) else scope.local? other := by
  obtain ⟨_ | ⟨block, outer⟩, parameters, locals⟩ := scope
  · exact (h rfl).elim
  by_cases hother : other = name
  · simp [local?, addLocal, hother]
  · simp [local?, addLocal, hother, List.lookup_cons, List.findSome?_cons, beq_false_of_ne hother]

/-- A local of the definition itself is hidden by a parameter of its name. -/
lemma local?_addLocal_of_outer (h : scope.blocks = []) (name : String) (a : Allocation)
    (other : String) :
    (scope.addLocal name a).local? other =
      if other = name then some (((scope.parameters.lookup name).map .parameter).getD (.variable a))
      else scope.local? other := by
  obtain ⟨blocks, parameters, locals⟩ := scope
  obtain rfl : blocks = [] := h
  by_cases hother : other = name
  · subst hother
    rcases hparameter : parameters.lookup other with _ | b <;> simp [local?, addLocal, hparameter]
  · simp [local?, addLocal, hother, List.lookup_cons, beq_false_of_ne hother]

lemma names_addLocal (scope : LexicalScope) (name : String) (a : Allocation) :
    (scope.addLocal name a).names = insert name scope.names := by
  ext other
  rw [Set.mem_insert_iff, names, names, Set.mem_ofPred_eq, Set.mem_ofPred_eq]
  by_cases hblocks : scope.blocks = []
  · rw [local?_addLocal_of_outer hblocks]
    split_ifs with h <;> simp [h]
  · rw [local?_addLocal_of_block hblocks]
    split_ifs with h <;> simp [h]

lemma local?_addParameter (h : scope.blocks = []) (name : String) (a : Allocation) (other : String) :
    (scope.addParameter name a).local? other =
      if other = name then some (.parameter a) else scope.local? other := by
  obtain ⟨blocks, parameters, locals⟩ := scope
  obtain rfl : blocks = [] := h
  by_cases hother : other = name
  · simp [local?, addParameter, hother]
  · simp [local?, addParameter, hother, List.lookup_cons, beq_false_of_ne hother]

/-- A declaration gives no name a new meaning but the declared one. -/
lemma local?_addLocal_cases {other : String} (h : (scope.addLocal name a).local? other = some b) :
    b = .variable a ∨ scope.local? other = some b := by
  by_cases hblocks : scope.blocks = []
  · rw [local?_addLocal_of_outer hblocks] at h
    split_ifs at h with hother
    · subst hother
      rcases hparameter : scope.parameters.lookup other with _ | q
      · rw [hparameter] at h
        exact .inl (Option.some.inj h).symm
      · rw [hparameter] at h
        exact .inr (by simpa [local?, hblocks, hparameter] using h)
    · exact .inr h
  · rw [local?_addLocal_of_block hblocks] at h
    split_ifs at h
    · exact .inl (Option.some.inj h).symm
    · exact .inr h

lemma local?_addParameter_cases {other : String}
    (h : (scope.addParameter name a).local? other = some b) :
    b = .parameter a ∨ scope.local? other = some b := by
  simp only [local?, addParameter] at h ⊢
  generalize scope.blocks.findSome? (·.lookup other) = block at h ⊢
  rcases block with _ | q
  · by_cases hother : other = name
    · exact .inl (by simpa [hother, eq_comm] using h)
    · exact .inr (by simpa [List.lookup_cons, beq_false_of_ne hother] using h)
  · exact .inr h

/-- A block that is closed leaves the scope as it was when it was opened. -/
lemma closeBlock_declare_openBlock (scope : LexicalScope) (locals : List VariableDef) :
    (scope.openBlock.declare locals).closeBlock = scope := by
  have hopen : ∀ (block : List (String × Allocation)) (ds : List VariableDef),
      (({ scope with blocks := block :: scope.blocks } : LexicalScope).declare ds).closeBlock =
        scope := by
    intro block ds
    induction ds generalizing block with
    | nil => rfl
    | cons d rest ih =>
      rw [declare]
      rcases d.allocation with _ | a
      · exact ih block
      · exact ih ((d.name, a) :: block)
  exact hopen [] locals

lemma resolve_ofProgram_ok_iff {p : Program} :
    scope.resolve (Symbols.ofProgram p).1 name = .ok b ↔ scope.binding? p name = some b := by
  rw [resolve, binding?, Symbols.global?_ofProgram]
  rcases scope.local? name with _ | b'
  · rcases p.global? name with _ | g
    · simp
    · rcases hg : g.allocation with _ | a <;> simp [hg]
  · simp

lemma binds_of_binding? {p : Program} (h : scope.binding? p name = some b) :
    p.Binds scope.names name := by
  rw [binding?] at h
  rcases hlocal : scope.local? name with _ | b'
  · rcases hglobal : p.global? name with _ | g
    · simp [hlocal, hglobal] at h
    · exact .inr (by simp [hglobal])
  · exact .inl (by simp [names, hlocal])

/-- A name that is bound is bound to something if global variables have allocations. -/
lemma exists_binding?_of_binds {p : Program}
    (hglobal : ∀ {name : String} {g : Global}, p.global? name = some g → g.allocation.isSome)
    (h : p.Binds scope.names name) : ∃ b, scope.binding? p name = some b := by
  rw [binding?]
  rcases hlocal : scope.local? name with _ | b
  · rcases h with h | h
    · simp [names, hlocal] at h
    · obtain ⟨g, hg⟩ := Option.isSome_iff_exists.1 h
      obtain ⟨a, ha⟩ := Option.isSome_iff_exists.1 (hglobal hg)
      exact ⟨.variable a, by simp [hg, ha]⟩
  · exact ⟨b, rfl⟩

/-- The names behind the declarations of local variables that have allocations. -/
lemma names_declare {ds : List VariableDef} (h : ∀ d ∈ ds, d.allocation.isSome) :
    (scope.declare ds).names = TriggerScript.declare scope.names ds := by
  induction ds generalizing scope with
  | nil => rfl
  | cons d rest ih =>
    rw [List.forall_mem_cons] at h
    obtain ⟨a, ha⟩ := Option.isSome_iff_exists.1 h.1
    rw [declare, ha, Option.elim_some, ih h.2, names_addLocal, TriggerScript.declare]

end LexicalScope

namespace Lower

variable {α : Type} {s s' : LowerState} {u : Unit} {library name : String} {a : Allocation}

lemma ofExcept_ok_iff {x : Except LoweringError α} {a : α} :
    ofExcept x s = .ok a s' ↔ x = .ok a ∧ s = s' := by
  cases x <;> simp [ofExcept, pure_ok_iff, throw_ok_iff]

lemma shape_ok_iff {message : String} {a : α} : shape message s = .ok a s' ↔ False :=
  throw_ok_iff

lemma allocated_ok_iff {o : Option Allocation} : allocated o s = .ok a s' ↔ o = some a ∧ s = s' := by
  cases o <;> simp [allocated, pure_ok_iff, throw_ok_iff]

lemma reserve_ok_iff {place : Nat} :
    reserve library s = .ok place s' ↔
      s.pools.nextPlace library = place ∧ { s with pools := s.pools.reserve library } = s' := by
  simp only [reserve, bind_ok_iff, get_ok_iff, set_ok_iff, pure_ok_iff]
  constructor
  · rintro ⟨_, _, ⟨rfl, rfl⟩, _, _, rfl, rfl, rfl⟩
    exact ⟨rfl, rfl⟩
  · rintro ⟨rfl, rfl⟩
    exact ⟨s, s, ⟨rfl, rfl⟩, ⟨⟩, _, rfl, rfl, rfl⟩

lemma fill_ok_iff {place : Nat} {n : Node} :
    fill library place n s = .ok u s' ↔
      s.pools.isOpen library place ∧ { s with pools := s.pools.fill library place n } = s' := by
  simp only [fill, bind_ok_iff, get_ok_iff]
  constructor
  · rintro ⟨_, _, ⟨rfl, rfl⟩, h⟩
    split_ifs at h with hopen
    · exact ⟨hopen, set_ok_iff.1 h⟩
    · exact (throw_ok_iff.1 h).elim
  · rintro ⟨hopen, rfl⟩
    exact ⟨s, s, ⟨rfl, rfl⟩, by rw [if_pos hopen]; rfl⟩

lemma append_ok_iff {elements : List Node} :
    append library elements s = .ok u s' ↔
      { s with pools := s.pools.append library elements } = s' :=
  modify_ok_iff

lemma touch_ok_iff : touch library s = .ok u s' ↔ { s with pools := s.pools.touch library } = s' :=
  modify_ok_iff

lemma addToRoot_ok_iff {item : Node} :
    addToRoot library item s = .ok u s' ↔
      { s with pools := s.pools.addToRoot library item } = s' :=
  modify_ok_iff

lemma begin_ok_iff {b : Bool} :
    begin a s = .ok b s' ↔
      (a ∈ s.done ∧ false = b ∧ s = s') ∨
        (a ∉ s.done ∧ true = b ∧ { s with done := a :: s.done } = s') := by
  simp only [begin, bind_ok_iff, get_ok_iff]
  by_cases hdone : a ∈ s.done
  · constructor
    · rintro ⟨_, _, ⟨rfl, rfl⟩, h⟩
      rw [if_pos hdone] at h
      exact .inl ⟨hdone, pure_ok_iff.1 h⟩
    · rintro (⟨-, rfl, rfl⟩ | ⟨hnot, -⟩)
      · exact ⟨s, s, ⟨rfl, rfl⟩, by rw [if_pos hdone]; rfl⟩
      · exact absurd hdone hnot
  · constructor
    · rintro ⟨_, _, ⟨rfl, rfl⟩, h⟩
      rw [if_neg hdone] at h
      simp only [bind_ok_iff, set_ok_iff, pure_ok_iff] at h
      obtain ⟨_, _, rfl, rfl, rfl⟩ := h
      exact .inr ⟨hdone, rfl, rfl⟩
    · rintro (⟨hin, -⟩ | ⟨-, rfl, rfl⟩)
      · exact absurd hin hdone
      · exact ⟨s, s, ⟨rfl, rfl⟩, by rw [if_neg hdone]; rfl⟩

lemma inScope_ok_iff {scope : LexicalScope} {run : Lower α} {a : α} :
    inScope scope run s = .ok a s' ↔
      ∃ s₁, run { s with scope } = .ok a s₁ ∧ { s₁ with scope := s.scope } = s' := by
  rw [inScope]
  rcases run { s with scope } with ⟨b, s₁⟩ | ⟨e, s₁⟩
  · simp only [EStateM.Result.ok.injEq]
    constructor
    · rintro ⟨rfl, rfl⟩
      exact ⟨s₁, ⟨rfl, rfl⟩, rfl⟩
    · rintro ⟨_, ⟨rfl, rfl⟩, rfl⟩
      exact ⟨rfl, rfl⟩
  · simp

lemma inBlock_ok_iff {run : Lower α} {a : α} :
    inBlock run s = .ok a s' ↔
      ∃ s₁, run { s with scope := s.scope.openBlock } = .ok a s₁ ∧
        { s₁ with scope := s₁.scope.closeBlock } = s' := by
  rw [inBlock]
  rcases run { s with scope := s.scope.openBlock } with ⟨b, s₁⟩ | ⟨e, s₁⟩
  · simp only [EStateM.Result.ok.injEq]
    constructor
    · rintro ⟨rfl, rfl⟩
      exact ⟨s₁, ⟨rfl, rfl⟩, rfl⟩
    · rintro ⟨_, ⟨rfl, rfl⟩, rfl⟩
      exact ⟨rfl, rfl⟩
  · simp

lemma addLocal_ok_iff :
    addLocal name a s = .ok u s' ↔ { s with scope := s.scope.addLocal name a } = s' :=
  modify_ok_iff

lemma addParameter_ok_iff :
    addParameter name a s = .ok u s' ↔ { s with scope := s.scope.addParameter name a } = s' :=
  modify_ok_iff

lemma resolve_ok_iff {p : Program} {b : Binding} :
    resolve (Symbols.ofProgram p).1 name s = .ok b s' ↔
      s.scope.binding? p name = some b ∧ s = s' := by
  simp only [resolve, bind_ok_iff, get_ok_iff, ofExcept_ok_iff,
    LexicalScope.resolve_ofProgram_ok_iff]
  constructor
  · rintro ⟨_, _, ⟨rfl, rfl⟩, h⟩
    exact h
  · exact fun h => ⟨s, s, ⟨rfl, rfl⟩, h⟩

lemma checkDepth_ok_iff {depth : Nat} : checkDepth depth s = .ok u s' ↔ depth ≤ 256 ∧ s = s' := by
  rw [checkDepth, maxDepth]
  split_ifs with h
  · rw [shape_ok_iff]
    exact ⟨False.elim, fun hle => absurd hle.1 (Nat.not_le.2 h)⟩
  · simp [pure_ok_iff, Nat.not_lt.1 h]

/-- Attributes are accepted if each of them is allowed. -/
lemma validate_ok_iff {flags valued : List String} {owner : String} {attributes : List Attribute} :
    validate flags valued owner attributes s = .ok u s' ↔
      (∀ a ∈ attributes, a.Allowed flags valued) ∧ s = s' := by
  induction attributes with
  | nil => simp [validate, pure_ok_iff]
  | cons a rest ih =>
    rw [validate, List.forall_mem_cons]
    obtain ⟨key, _ | value⟩ := a
    · by_cases hkey : key ∈ flags
      · simp [Attribute.Allowed, hkey, ih]
      · simp [Attribute.Allowed, hkey, shape_ok_iff]
    · by_cases hkey : key = "comment" ∨ key ∈ valued
      · simp [Attribute.Allowed, hkey, ih]
      · simp [Attribute.Allowed, hkey, shape_ok_iff]

end Lower

end TriggerScript
