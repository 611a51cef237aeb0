import Mathlib.Algebra.Ring.Nat
import Mathlib.Tactic.Common
import TriggerScript.Proofs.Grammar.Termination

/-!
# The rules of a list of clauses

The alternatives of a rule of a grammar that is written as a list of clauses are read off the clauses
that describe the rule (`alternatives_eq_allHeads`). The rules that list clauses need inside have names
that no clause describes, so they have no other alternatives than those of their list
(`tails_of_split`, `exists_lists`).
-/

namespace TriggerScript.Grammar

variable {V : Type}

lemma hiddenName_inj {m n : Nat} : hiddenName m = hiddenName n ↔ m = n := by
  refine ⟨fun h => ?_, congrArg _⟩
  have htext : Text.natText m = Text.natText n := by
    simpa [hiddenName] using h
  have hdigits : Nat.toDigits 10 m = Nat.toDigits 10 n := String.ofList_injective htext
  have hvalue : ∀ n, Nat.ofDigitChars 10 (Nat.toDigits 10 n) 0 = n := fun n =>
    Nat.ofDigitChars_toDigits (by decide) (by decide)
  rw [← hvalue m, hdigits, hvalue n]

/-- Whether the name is of the form of the names of the rules that list clauses need inside. -/
def isHidden (name : String) : Bool :=
  name.toList.head? = some '%'

lemma isHidden_hiddenName (n : Nat) : isHidden (hiddenName n) := by
  simp [isHidden, hiddenName]

lemma ne_hiddenName {name : String} (h : ¬isHidden name) (n : Nat) : name ≠ hiddenName n := by
  rintro rfl
  exact h (isHidden_hiddenName n)

/-- The rules have the alternatives of the rules inside a list clause, and no others. -/
structure Tails [Phrase V] (g : Grammar V) (tail rest : String) (item : Symbol)
    (separator : Option Symbol) : Prop where
  ofTail : g.alternatives tail = [⟨tail, [item, .rule rest], Reducers.cons⟩]
  ofRest : g.alternatives rest = [⟨rest, [], Reducers.emptyList⟩,
    match separator with
    | none => ⟨rest, [.rule tail], Reducers.first⟩
    | some separator => ⟨rest, [separator, .rule tail], Reducers.second⟩]

/-- The rules have the alternatives of a list clause, and no others. -/
structure Lists [Phrase V] (g : Grammar V) (name tail rest : String) (item : Symbol)
    (separator : Option Symbol) : Prop extends Tails g tail rest item separator where
  ofName : g.alternatives name =
    [⟨name, [], Reducers.emptyList⟩, ⟨name, [.rule tail], Reducers.first⟩]

lemma alternatives_append (entry name : String) (ps qs : List (Production V)) :
    alternatives ⟨entry, ps ++ qs⟩ name =
      alternatives ⟨entry, ps⟩ name ++ alternatives ⟨entry, qs⟩ name :=
  List.filter_append ..

/-- Productions of other rules do not matter. -/
lemma alternatives_of_split {entry name : String} {ps rs : List (Production V)}
    (hps : ∀ p ∈ ps, p.name ≠ name) (hrs : ∀ p ∈ rs, p.name ≠ name) (qs : List (Production V)) :
    alternatives ⟨entry, ps ++ (qs ++ rs)⟩ name = alternatives ⟨entry, qs⟩ name := by
  have hnil : ∀ {ps : List (Production V)}, (∀ p ∈ ps, p.name ≠ name) →
      alternatives ⟨entry, ps⟩ name = [] := fun h =>
    List.filter_eq_nil_iff.2 fun p hp => by simpa using h p hp
  rw [alternatives_append, alternatives_append, hnil hps, hnil hrs, List.nil_append,
    List.append_nil]

namespace Clause

/-- The rule that the clause describes. -/
def name : Clause V → String
  | rule name _ _ => name
  | same name _ => name
  | many name _ => name
  | separated name _ _ => name

/-- What the clause lists, and what stands between. -/
def list? : Clause V → Option (Symbol × Option Symbol)
  | rule .. => none
  | same .. => none
  | many _ item => some (item, none)
  | separated _ item separator => some (item, some separator)

/-- How many rules the clauses need inside. -/
def allHidden (clauses : List (Clause V)) : Nat :=
  (clauses.map hidden).sum

/-- The names of the rules that the clauses need inside. -/
def hiddenNames (clauses : List (Clause V)) : List String :=
  (List.range' 1 (allHidden clauses)).map hiddenName

lemma hiddenName_mem_hiddenNames {clauses : List (Clause V)} {n : Nat} (hpos : 0 < n)
    (hle : n ≤ allHidden clauses) : hiddenName n ∈ hiddenNames clauses :=
  List.mem_map_of_mem (List.mem_range'_1.2 ⟨hpos, by omega⟩)

variable [Phrase V] {c : Clause V} {clauses before after : List (Clause V)} {p : Production V}
  {used : Nat} {entry name : String} {item : Symbol} {separator : Option Symbol}

lemma allProductions_append : allProductions used (before ++ after) =
    allProductions used before ++ allProductions (used + allHidden before) after := by
  induction before generalizing used with
  | nil => simp [allProductions, allHidden]
  | cons c before ih => simp [allProductions, allHidden, ih, Nat.add_assoc]

/-! ## Rules that are described by a clause -/

/-- The alternatives of the rule that the clause describes. -/
def heads (used : Nat) : Clause V → List (Production V)
  | rule name symbols reduce => [⟨name, symbols, reduce⟩]
  | same name target => [⟨name, [target], Reducers.first⟩]
  | many name _ => [⟨name, [], Reducers.emptyList⟩,
      ⟨name, [.rule (hiddenName (used + 1))], Reducers.first⟩]
  | separated name _ _ => [⟨name, [], Reducers.emptyList⟩,
      ⟨name, [.rule (hiddenName (used + 1))], Reducers.first⟩]

/-- The alternatives that the clauses give to a rule that one of them describes. -/
def allHeads (name : String) : Nat → List (Clause V) → List (Production V)
  | _, [] => []
  | used, c :: rest =>
    if c.name = name then c.heads used ++ allHeads name (used + c.hidden) rest
    else allHeads name (used + c.hidden) rest

lemma alternatives_productions (hname : ¬isHidden name) :
    alternatives ⟨entry, c.productions used⟩ name = if c.name = name then c.heads used else [] := by
  have hhidden : ∀ n, hiddenName n ≠ name := fun n => (ne_hiddenName hname n).symm
  cases c <;> simp only [alternatives, productions, listProductions, heads, Clause.name] <;>
    split_ifs with h <;> simp [h, hhidden]

/-- The alternatives of a rule that is not hidden are those that the clauses describing it give. -/
theorem alternatives_eq_allHeads (hname : ¬isHidden name) :
    alternatives ⟨entry, allProductions used clauses⟩ name = allHeads name used clauses := by
  induction clauses generalizing used with
  | nil => rfl
  | cons c rest ih =>
    rw [allProductions, alternatives_append, alternatives_productions hname, ih, allHeads]
    split_ifs
    · rfl
    · rfl

/-! ## Rules inside list clauses -/

lemma productions_of_list (h : c.list? = some (item, separator)) : c.productions used =
    listProductions c.name (hiddenName (used + 1)) (hiddenName (used + 2)) item separator := by
  cases c with
  | rule => cases h
  | same => cases h
  | many =>
    cases h
    rfl
  | separated =>
    cases h
    rfl

omit [Phrase V] in
lemma hidden_of_list (h : c.list? = some (item, separator)) : c.hidden = 2 := by
  cases c with
  | rule => cases h
  | same => cases h
  | many => rfl
  | separated => rfl

/-- A clause gives alternatives to the rule that it describes and to rules with new hidden names. -/
lemma name_of_mem_productions (hp : p ∈ c.productions used) :
    p.name = c.name ∨ ∃ n, used < n ∧ n ≤ used + c.hidden ∧ p.name = hiddenName n := by
  cases hc : c.list? with
  | none =>
    cases c with
    | rule => exact .inl (List.mem_singleton.1 hp ▸ rfl)
    | same => exact .inl (List.mem_singleton.1 hp ▸ rfl)
    | many => cases hc
    | separated => cases hc
  | some list =>
    obtain ⟨item, separator⟩ := list
    rw [productions_of_list hc] at hp
    rw [hidden_of_list hc]
    simp only [listProductions, List.mem_cons, List.not_mem_nil, or_false] at hp
    rcases hp with rfl | rfl | rfl | rfl | rfl
    · exact .inl rfl
    · exact .inl rfl
    · exact .inr ⟨used + 1, by omega, by omega, rfl⟩
    · exact .inr ⟨used + 2, by omega, by omega, rfl⟩
    · exact .inr ⟨used + 2, by omega, by omega, by cases separator <;> rfl⟩

lemma name_of_mem_allProductions (hp : p ∈ allProductions used clauses) :
    (∃ c ∈ clauses, p.name = c.name) ∨
      ∃ n, used < n ∧ n ≤ used + allHidden clauses ∧ p.name = hiddenName n := by
  induction clauses generalizing used with
  | nil => cases hp
  | cons c rest ih =>
    have hhidden : allHidden (c :: rest) = c.hidden + allHidden rest := by simp [allHidden]
    rcases List.mem_append.1 hp with hp | hp
    · rcases name_of_mem_productions hp with hname | ⟨n, hlt, hle, hname⟩
      · exact .inl ⟨c, List.mem_cons_self, hname⟩
      · exact .inr ⟨n, hlt, by omega, hname⟩
    · rcases ih hp with ⟨d, hd, hname⟩ | ⟨n, hlt, hle, hname⟩
      · exact .inl ⟨d, List.mem_cons_of_mem _ hd, hname⟩
      · exact .inr ⟨n, by omega, by omega, hname⟩

/-- Hidden names that are not yet used, or used already, do not occur. -/
lemma name_ne_hiddenName {n : Nat} (hclauses : ∀ c ∈ clauses, c.name ≠ hiddenName n)
    (hp : p ∈ allProductions used clauses) (hn : n ≤ used ∨ used + allHidden clauses < n) :
    p.name ≠ hiddenName n := by
  rcases name_of_mem_allProductions hp with ⟨c, hc, hname⟩ | ⟨m, hlt, hle, hname⟩ <;> rw [hname]
  · exact hclauses c hc
  · rw [Ne, hiddenName_inj]
    omega

/-- The rules inside a list clause. -/
theorem tails_of_split {k : Nat}
    (hnames : ∀ n, n = k + 1 ∨ n = k + 2 → ∀ d ∈ before ++ c :: after, d.name ≠ hiddenName n)
    (hlist : c.list? = some (item, separator)) (hk : used + allHidden before = k) :
    Tails ⟨entry, allProductions used (before ++ c :: after)⟩ (hiddenName (k + 1))
      (hiddenName (k + 2)) item separator := by
  subst hk
  simp only [List.forall_mem_append, List.forall_mem_cons] at hnames
  obtain ⟨hbefore₁, hc₁, hafter₁⟩ := hnames _ (.inl rfl)
  obtain ⟨hbefore₂, hc₂, hafter₂⟩ := hnames _ (.inr rfl)
  rw [allProductions_append, allProductions, hidden_of_list hlist]
  constructor
  · rw [alternatives_of_split (fun p hp => name_ne_hiddenName hbefore₁ hp (by omega))
      (fun p hp => name_ne_hiddenName hafter₁ hp (by omega)), productions_of_list hlist]
    cases separator <;> simp [alternatives, listProductions, hc₁, hiddenName_inj]
  · rw [alternatives_of_split (fun p hp => name_ne_hiddenName hbefore₂ hp (by omega))
      (fun p hp => name_ne_hiddenName hafter₂ hp (by omega)), productions_of_list hlist]
    cases separator <;> simp [alternatives, listProductions, hc₂, hiddenName_inj]

/-- A rule that is described by one clause only, a list clause, is a list, if no clause describes a rule
that is needed inside. -/
theorem exists_lists_of_notMem (hclauses : ∀ c ∈ clauses, c.name ∉ hiddenNames clauses)
    (h : (clauses.filter (·.name = name)).map list? = [some (item, separator)]) :
    ∃ tail rest, Lists ⟨entry, allProductions 0 clauses⟩ name tail rest item separator := by
  obtain ⟨c, others, hfilter, hlist, hothers⟩ := List.map_eq_cons_iff.1 h
  rw [List.map_eq_nil_iff.1 hothers] at hfilter
  obtain ⟨before, after, rfl, hbefore, hc, hafter⟩ := List.filter_eq_cons_iff.1 hfilter
  obtain rfl : c.name = name := of_decide_eq_true hc
  have hhidden : allHidden (before ++ c :: after) = allHidden before + (2 + allHidden after) := by
    simp [allHidden, hidden_of_list hlist]
  have hne : ∀ d ∈ before ++ c :: after, ∀ n, 0 < n → n ≤ allHidden before + (2 + allHidden after) →
      d.name ≠ hiddenName n := by
    rintro d hd n hpos hle hname
    rw [← hhidden] at hle
    exact hclauses d hd (hname ▸ hiddenName_mem_hiddenNames hpos hle)
  have hcne := hne c (List.mem_append_right _ List.mem_cons_self)
  refine ⟨_, _, tails_of_split ?_ hlist rfl, ?_⟩
  · rintro n (rfl | rfl) d hd
    · exact hne d hd _ (by omega) (by omega)
    · exact hne d hd _ (by omega) (by omega)
  · have hothers : ∀ {clauses : List (Clause V)} {used : Nat}, (∀ d ∈ clauses, d.name ≠ c.name) →
        used + allHidden clauses ≤ allHidden before + (2 + allHidden after) →
        ∀ p ∈ allProductions used clauses, p.name ≠ c.name := by
      intro clauses used hclauses hle p hp
      rcases name_of_mem_allProductions hp with ⟨d, hd, hname⟩ | ⟨n, hlt, hn, hname⟩ <;> rw [hname]
      · exact hclauses d hd
      · exact (hcne n (by omega) (by omega)).symm
    rw [allProductions_append, allProductions, hidden_of_list hlist,
      alternatives_of_split (hothers (fun d hd => by simpa using hbefore d hd) (by omega))
        (hothers (fun d hd => by simpa using List.filter_eq_nil_iff.1 hafter d hd) (by omega)),
      productions_of_list hlist]
    have h₁ := (hcne (allHidden before + 1) (by omega) (by omega)).symm
    have h₂ := (hcne (allHidden before + 2) (by omega) (by omega)).symm
    cases separator <;> simp [alternatives, listProductions, h₁, h₂]

/-- A rule that is described by one clause only, a list clause, is a list. -/
theorem exists_lists (hclauses : ∀ c ∈ clauses, ¬isHidden c.name)
    (h : (clauses.filter (·.name = name)).map list? = [some (item, separator)]) :
    ∃ tail rest, Lists ⟨entry, allProductions 0 clauses⟩ name tail rest item separator := by
  refine exists_lists_of_notMem (fun c hc hmem => ?_) h
  obtain ⟨n, -, hname⟩ := List.mem_map.1 hmem
  exact ne_hiddenName (hclauses c hc) n hname.symm

end Clause

/-- A grammar that has been checked is the one that was written down. -/
lemma eq_of_ofClauses [Phrase V] {g : Grammar V} {entry : String} {clauses : List (Clause V)}
    (h : ofClauses entry clauses = .ok g) : g = ⟨entry, Clause.allProductions 0 clauses⟩ := by
  unfold ofClauses check at h
  split at h
  · cases h
  · exact (Except.ok.inj h).symm

end TriggerScript.Grammar
