import TriggerScript.Proofs.Grammar.Languages

/-!
# Reducers that cannot fail

A reducer fails if one of its parts is not of the sort that it expects. What sort of value a symbol has
is said by a property that each of its values has as long as the tokens fit (`Ensures`). If the sorts of
the symbols of each production are such that its reducer succeeds (`Production.Total`), all derivations
in a stream of fitting tokens can be reduced (`reduces_of_total`). Of a grammar that is written as a list
of clauses, only the plain rules need to be looked at (`total_of_clauses`).
-/

namespace TriggerScript.Grammar

variable {V : Type} [Phrase V] {g : Grammar V} {fits : Token → Prop} {x : Symbol}
  {symbols : List Symbol} {P Q : V → Prop}

/-- The symbol has values with the property only, if the tokens fit. -/
def Ensures (g : Grammar V) (fits : Token → Prop) (x : Symbol) (P : V → Prop) : Prop :=
  ∀ ⦃ts v⦄, (∀ t ∈ ts, fits t) → Yields g [x] ts [v] → P v

/-- The values of the symbols together have the property, if the tokens fit. -/
def EnsuresAll (g : Grammar V) (fits : Token → Prop) : List Symbol → (List V → Prop) → Prop
  | [], P => P []
  | x :: symbols, P =>
    g.Ensures fits x fun v => EnsuresAll g fits symbols fun parts => P (v :: parts)

lemma EnsuresAll.nil {P : List V → Prop} (h : P []) : g.EnsuresAll fits [] P :=
  h

/-- The reducer of the production succeeds, if the tokens fit. -/
def Production.Total (g : Grammar V) (fits : Token → Prop) (p : Production V) : Prop :=
  g.EnsuresAll fits p.symbols fun parts => ∃ v, p.reduce parts = .ok v

lemma EnsuresAll.of_yields {P : List V → Prop} (h : g.EnsuresAll fits symbols P) {ts : List Token}
    {vs : List V} (hts : ∀ t ∈ ts, fits t) (hyields : Yields g symbols ts vs) : P vs := by
  induction symbols generalizing P ts vs with
  | nil =>
    obtain ⟨-, rfl⟩ := yields_nil_iff.1 hyields
    exact h
  | cons x symbols ih =>
    obtain ⟨v, vs, rfl⟩ := List.exists_cons_of_length_eq_add_one hyields.length_eq
    obtain ⟨front, back, hfront, hback, rfl⟩ := yields_cons_iff.1 hyields
    obtain ⟨htsfront, htsback⟩ := List.forall_mem_append.1 hts
    exact ih (h htsfront hfront) htsback hback

lemma Ensures.imp (h : g.Ensures fits x P) (hPQ : ∀ v, P v → Q v) : g.Ensures fits x Q :=
  fun _ _ hts hyields => hPQ _ (h hts hyields)

lemma ensures_terminal {name : String} (h : ∀ t : Token, fits t → t.name = name → P (Phrase.ofToken t)) :
    g.Ensures fits (.terminal name) P := by
  intro ts v hts hyields
  cases hyields
  exact h _ (hts _ List.mem_cons_self) rfl

/-- A rule has only values that its alternatives make. -/
lemma ensures_rule {name : String} (h : ∀ p ∈ g.alternatives name,
      g.EnsuresAll fits p.symbols fun parts => ∀ v, p.reduce parts = .ok v → P v) :
    g.Ensures fits (.rule name) P := by
  intro ts v hts hyields
  cases hyields with
  | rule hp hinner hv hnil =>
    obtain ⟨rfl, -⟩ := yields_nil_iff.1 hnil
    rw [List.append_nil] at hts
    exact (h _ hp).of_yields hts hinner v hv

/-- A rule whose reducers make values of one form has only such values. -/
lemma ensures_of_alternatives {α : Type} {f : α → V} {name : String}
    (hf : ∀ v, (∀ a, f a ≠ v) → ∀ p ∈ g.alternatives name,
      ForallParts p.symbols fun parts => p.reduce parts ≠ .ok v)
    (h : ∀ a, P (f a)) : g.Ensures fits (.rule name) P := by
  intro ts v _ hyields
  by_contra hv
  have hne : ∀ a, f a ≠ v := by
    rintro a rfl
    exact hv (h a)
  cases hyields with
  | rule hp hinner hreduce _ => exact (hf v hne _ hp).of_length hinner.length_eq hreduce

lemma Production.total_first (name : String) (x : Symbol) :
    Production.Total g fits ⟨name, [x], Reducers.first⟩ :=
  fun _ v _ _ => ⟨v, rfl⟩

lemma Production.total_emptyList (name : String) :
    Production.Total g fits ⟨name, [], Reducers.emptyList⟩ :=
  ⟨_, rfl⟩

/-! ## Derivations in a stream -/

/-- Every derivation in a stream of fitting tokens has values. -/
lemma Derives.exists_values (htotal : ∀ p ∈ g.productions, p.Total g fits) {tokens : Array Token}
    (htokens : ∀ t ∈ tokens.toList, fits t) {place stop : Nat} {d : Derivation}
    (h : Derives g tokens symbols place d stop) : ∃ vs, d.values g = .ok vs := by
  induction h with
  | done => exact ⟨[], rfl⟩
  | token _ _ _ ih =>
    obtain ⟨vs, hvs⟩ := ih
    exact ⟨_, by rw [Derivation.values, hvs]; rfl⟩
  | @rule name _ place choice p inner mid d stop hp hinner _ ihinner ihrest =>
    obtain ⟨parts, hparts⟩ := ihinner
    obtain ⟨vs, hvs⟩ := ihrest
    obtain ⟨ts, hts, hyields⟩ := hinner.yields hparts
    have hfits : ∀ t ∈ ts, fits t := by
      intro t ht
      refine htokens t (List.mem_of_mem_drop (i := place) ?_)
      rw [hts]
      exact List.mem_append_left _ ht
    have hmem : p ∈ g.productions := (List.mem_filter.1 (List.mem_of_getElem? hp)).1
    obtain ⟨v, hv⟩ := (htotal p hmem).of_yields hfits hyields
    refine ⟨v :: vs, ?_⟩
    simp only [Derivation.values, hparts, reduce, hp, hv, hvs, bind, Except.bind, pure, Except.pure]

/-- Everything met in a stream of fitting tokens can be reduced. -/
theorem reduces_of_total (htotal : ∀ p ∈ g.productions, p.Total g fits) {tokens : Array Token}
    (htokens : ∀ t ∈ tokens.toList, fits t) (c : Config) : Reduces g tokens c := by
  intro name place _ d stop hd
  exact hd.exists_values htotal htokens

/-! ## Lists -/

section Lists

variable {name tail rest : String} {item : Symbol} {separator : Option Symbol}

variable [LawfulPhrase V]

lemma toList_ofList (vs : List V) : Phrase.toList (Phrase.ofList vs : V) = .ok vs :=
  LawfulPhrase.toList_eq_ok_iff.2 rfl

/-- The rules inside a list have lists as values. -/
lemma Tails.forall₂_of_yields (h : g.Tails tail rest item separator)
    (hitem : g.Ensures fits item P) {ts : List Token} {vs : List V} (hts : ∀ t ∈ ts, fits t)
    (hyields : Yields g symbols ts vs) :
    List.Forall₂ (fun x v => x = .rule tail ∨ x = .rule rest →
      ∃ items, v = Phrase.ofList items ∧ ∀ i ∈ items, P i) symbols vs := by
  induction hyields with
  | nil => exact .nil
  | terminal _ ih => exact .cons (by simp) (ih (List.forall_mem_cons.1 hts).2)
  | @rule name p symbols inner ts parts v vs hp hinner hv _ ihinner ihrest =>
    obtain ⟨htsinner, htsrest⟩ := List.forall_mem_append.1 hts
    refine .cons ?_ (ihrest htsrest)
    have hparts := ihinner htsinner
    rintro (hname | hname) <;> obtain rfl := Symbol.rule.inj hname
    · rw [h.ofTail, List.mem_singleton] at hp
      subst hp
      obtain ⟨head, _, -, hrest, rfl⟩ := List.forall₂_cons_left_iff.1 hparts
      obtain ⟨_, _, htail, hnil, rfl⟩ := List.forall₂_cons_left_iff.1 hrest
      cases hnil
      obtain ⟨items, rfl, hitems⟩ := htail (.inr rfl)
      obtain ⟨front, back, hfront, -, rfl⟩ := yields_cons_iff.1 hinner
      have hhead : P head := hitem (List.forall_mem_append.1 htsinner).1 hfront
      simp only [Reducers.cons, toList_ofList, bind, Except.bind, pure, Except.pure] at hv
      obtain rfl := Except.ok.inj hv
      exact ⟨head :: items, rfl, List.forall_mem_cons.2 ⟨hhead, hitems⟩⟩
    · rw [h.ofRest, List.mem_pair] at hp
      rcases hp with rfl | rfl
      · obtain rfl := Except.ok.inj hv
        exact ⟨[], rfl, List.forall_mem_nil _⟩
      · cases separator with
        | none =>
          obtain ⟨head, _, hhead, hnil, rfl⟩ := List.forall₂_cons_left_iff.1 hparts
          obtain rfl := Except.ok.inj hv
          exact hhead (.inl rfl)
        | some separator =>
          obtain ⟨_, _, -, hrest, rfl⟩ := List.forall₂_cons_left_iff.1 hparts
          obtain ⟨second, _, hsecond, hnil, rfl⟩ := List.forall₂_cons_left_iff.1 hrest
          obtain rfl := Except.ok.inj hv
          exact hsecond (.inl rfl)

lemma Tails.ensures (h : g.Tails tail rest item separator) (hitem : g.Ensures fits item P)
    (hx : x = .rule tail ∨ x = .rule rest) :
    g.Ensures fits x fun v => ∃ items, v = Phrase.ofList items ∧ ∀ i ∈ items, P i := by
  intro ts v hts hyields
  have hvalues := h.forall₂_of_yields hitem hts hyields
  cases hvalues with
  | cons hv _ => exact hv hx

/-- A list has lists of the values of its items as values. -/
lemma Lists.ensures (h : g.Lists name tail rest item separator) (hitem : g.Ensures fits item P)
    (hP : ∀ items, (∀ i ∈ items, P i) → Q (Phrase.ofList items)) :
    g.Ensures fits (.rule name) Q := by
  refine ensures_rule ?_
  rw [h.ofName]
  refine List.forall_mem_cons.2 ⟨?_, List.forall_mem_singleton.2 ?_⟩
  · intro v hv
    obtain rfl := Except.ok.inj hv
    exact hP [] (List.forall_mem_nil _)
  · refine (h.toTails.ensures hitem (.inl rfl)).imp ?_
    rintro _ ⟨items, rfl, hitems⟩ v hv
    obtain rfl := Except.ok.inj hv
    exact hP items hitems

/-- A list of nodes of one kind. -/
lemma Lists.ensures_map {α : Type} {f : α → V} (h : g.Lists name tail rest item separator)
    (hitem : g.Ensures fits item (· ∈ Set.range f)) (hP : ∀ xs : List α, P (Phrase.ofList (xs.map f))) :
    g.Ensures fits (.rule name) P := by
  refine h.ensures hitem fun items hitems => ?_
  obtain ⟨xs, rfl⟩ : items ∈ Set.range (List.map f) := by
    rw [Set.range_list_map]
    exact hitems
  exact hP xs

end Lists

/-! ## Clauses -/

namespace Clause

variable {clauses : List (Clause V)} {p : Production V} {used : Nat}

lemma exists_of_mem_allProductions (hp : p ∈ allProductions used clauses) :
    ∃ before c after, clauses = before ++ c :: after ∧
      p ∈ c.productions (used + allHidden before) := by
  induction clauses generalizing used with
  | nil => cases hp
  | cons c rest ih =>
    rcases List.mem_append.1 hp with hp | hp
    · exact ⟨[], c, rest, rfl, by simpa [allHidden] using hp⟩
    · obtain ⟨before, d, after, rfl, hp'⟩ := ih hp
      exact ⟨c :: before, d, after, rfl, by simpa [allHidden, Nat.add_assoc] using hp'⟩

/-- The reducer of the clause succeeds, if the tokens fit. -/
def Total (g : Grammar V) (fits : Token → Prop) : Clause V → Prop
  | rule name symbols reduce => Production.Total g fits ⟨name, symbols, reduce⟩
  | _ => True

/-- The reducers of a grammar succeed if those of its plain rules do. -/
theorem total_of_clauses [LawfulPhrase V] {entry : String}
    (hclauses : ∀ c ∈ clauses, ¬isHidden c.name)
    (hrules : ∀ c ∈ clauses, c.Total ⟨entry, allProductions 0 clauses⟩ fits) :
    ∀ p ∈ allProductions 0 clauses,
      Production.Total ⟨entry, allProductions 0 clauses⟩ fits p := by
  intro p hp
  obtain ⟨before, c, after, rfl, hp'⟩ := exists_of_mem_allProductions hp
  cases hlist : c.list? with
  | none =>
    cases c with
    | rule name symbols reduce =>
      rw [List.mem_singleton.1 hp']
      exact hrules (rule name symbols reduce) (by simp)
    | same name target =>
      rw [List.mem_singleton.1 hp']
      exact Production.total_first name target
    | many => cases hlist
    | separated => cases hlist
  | some list =>
    obtain ⟨item, separator⟩ := list
    have htails : Tails ⟨entry, allProductions 0 (before ++ c :: after)⟩ _ _ item separator :=
      tails_of_split (fun n _ d hd => ne_hiddenName (hclauses d hd) n) hlist rfl
    rw [productions_of_list hlist] at hp'
    simp only [listProductions, List.mem_cons, List.not_mem_nil, or_false] at hp'
    rcases hp' with rfl | rfl | rfl | rfl | rfl
    · exact Production.total_emptyList _
    · exact Production.total_first _ _
    · intro _ head _ _
      refine (htails.ensures (P := fun _ => True) (fun _ _ _ _ => trivial) (.inr rfl)).imp ?_
      rintro _ ⟨items, rfl, -⟩
      exact ⟨_, except_bind_ok_iff.2 ⟨items, toList_ofList items, rfl⟩⟩
    · exact Production.total_emptyList _
    · cases separator with
      | none => exact Production.total_first _ _
      | some separator => exact fun _ _ _ _ _ v _ _ => ⟨v, rfl⟩

end Clause

end TriggerScript.Grammar
