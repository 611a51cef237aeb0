import TriggerScript.Proofs.Grammar.Languages

/-!
# Least derivations

The value that is found first is that of the parse with the least choices. In a least derivation all
parts are least derivations (`Least.append`, `Least.rule`), since a smaller one could stand in the place
of any of them. So what is read first can be followed from the entry of the grammar down to the parts
(`LeastYields`), beginning with `leastYields_of_parseAll`.
-/

namespace TriggerScript.Grammar

variable {V : Type} {g : Grammar V} {tokens : Array Token} {xs ys : List Symbol} {d e : Derivation}
  {place stop : Nat} {name : String} {ts : List Token}

/-- The derivation is one of the symbols between the places, and there is none with smaller choices. -/
structure Least (g : Grammar V) (tokens : Array Token) (xs : List Symbol) (place : Nat)
    (d : Derivation) (stop : Nat) : Prop where
  derives : Derives g tokens xs place d stop
  not_lt : ∀ {e}, Derives g tokens xs place e stop → ¬e.choices < d.choices

namespace Least

lemma append (h : Least g tokens (xs ++ ys) place d stop) :
    ∃ d₁ d₂ mid, Least g tokens xs place d₁ mid ∧ Least g tokens ys mid d₂ stop ∧
      d₁.append d₂ = d := by
  obtain ⟨d₁, d₂, mid, h₁, h₂, rfl⟩ := derives_append_iff.1 h.derives
  refine ⟨d₁, d₂, mid, ⟨h₁, fun he hlt => ?_⟩, ⟨h₂, fun he hlt => ?_⟩, rfl⟩
  · refine h.not_lt (derives_append_iff.2 ⟨_, _, _, he, h₂, rfl⟩) ?_
    rw [Derivation.choices_append, Derivation.choices_append]
    exact he.choices_lt_append h₁ hlt _ _
  · refine h.not_lt (derives_append_iff.2 ⟨_, _, _, h₁, he, rfl⟩) ?_
    rw [Derivation.choices_append, Derivation.choices_append]
    exact List.append_left_lt hlt

lemma rule (h : Least g tokens [.rule name] place d stop) : ∃ choice p inner,
    (g.alternatives name)[choice]? = some p ∧ Least g tokens p.symbols place inner stop ∧
      .rule name choice inner .done = d := by
  obtain ⟨choice, p, inner, hp, hinner, rfl⟩ := derives_rule_iff.1 h.derives
  refine ⟨choice, p, inner, hp, ⟨hinner, fun he hlt => ?_⟩, rfl⟩
  refine h.not_lt (derives_rule_iff.2 ⟨choice, p, _, hp, he, rfl⟩) ?_
  simp only [Derivation.choices, List.append_nil]
  exact .cons hlt

end Least

variable [Phrase V] {v : V} {vs : List V}

lemma Derivation.exists_values_of_append {d e : Derivation} (h : (d.append e).values g = .ok vs) :
    ∃ us ws, d.values g = .ok us ∧ e.values g = .ok ws ∧ us ++ ws = vs := by
  induction d generalizing vs with
  | done => exact ⟨[], vs, rfl, h, rfl⟩
  | token t rest ih =>
    obtain ⟨others, hothers, hvs⟩ := except_bind_ok_iff.1 h
    obtain rfl := Except.ok.inj hvs
    obtain ⟨us, ws, hus, hws, rfl⟩ := ih hothers
    exact ⟨_ :: us, ws, by simp [values, hus, bind, Except.bind, pure, Except.pure], hws, rfl⟩
  | rule name choice inner rest _ ih =>
    obtain ⟨parts, hparts, h⟩ := except_bind_ok_iff.1 h
    obtain ⟨v, hv, h⟩ := except_bind_ok_iff.1 h
    obtain ⟨others, hothers, hvs⟩ := except_bind_ok_iff.1 h
    obtain rfl := Except.ok.inj hvs
    obtain ⟨us, ws, hus, hws, rfl⟩ := ih hothers
    refine ⟨v :: us, ws, ?_, hws, rfl⟩
    simp [values, hparts, hv, hus, bind, Except.bind, pure, Except.pure]

/-- The tokens stand in the stream, and their least derivation from the symbols has these values. -/
def LeastYields (g : Grammar V) (tokens : Array Token) (xs : List Symbol) (ts : List Token)
    (vs : List V) : Prop :=
  ∃ place d stop, Least g tokens xs place d stop ∧ d.values g = .ok vs ∧
    tokens.toList.drop place = ts ++ tokens.toList.drop stop

namespace LeastYields

lemma yields (h : LeastYields g tokens xs ts vs) : Yields g xs ts vs := by
  obtain ⟨place, d, stop, hd, hvs, hts⟩ := h
  obtain ⟨ts', hts', hyields⟩ := hd.derives.yields hvs
  obtain rfl := List.append_cancel_right (hts.symm.trans hts')
  exact hyields

lemma append (h : LeastYields g tokens (xs ++ ys) ts vs) : ∃ front back us ws,
    LeastYields g tokens xs front us ∧ LeastYields g tokens ys back ws ∧ front ++ back = ts ∧
      us ++ ws = vs := by
  obtain ⟨place, d, stop, hd, hvs, hts⟩ := h
  obtain ⟨d₁, d₂, mid, h₁, h₂, rfl⟩ := hd.append
  obtain ⟨us, ws, hus, hws, rfl⟩ := Derivation.exists_values_of_append hvs
  obtain ⟨front, hfront, -⟩ := h₁.derives.yields hus
  obtain ⟨back, hback, -⟩ := h₂.derives.yields hws
  have hwhole : front ++ back ++ tokens.toList.drop stop = ts ++ tokens.toList.drop stop := by
    rw [List.append_assoc, ← hback, ← hfront, hts]
  exact ⟨front, back, us, ws, ⟨_, _, _, h₁, hus, hfront⟩, ⟨_, _, _, h₂, hws, hback⟩,
    List.append_cancel_right hwhole, rfl⟩

lemma rule (h : LeastYields g tokens [.rule name] ts [v]) : ∃ p ∈ g.alternatives name, ∃ parts,
    p.reduce parts = .ok v ∧ LeastYields g tokens p.symbols ts parts := by
  obtain ⟨place, d, stop, hd, hvs, hts⟩ := h
  obtain ⟨choice, p, inner, hp, hinner, rfl⟩ := hd.rule
  obtain ⟨parts, hparts, hvs⟩ := except_bind_ok_iff.1 hvs
  rw [reduce, hp] at hvs
  obtain ⟨v', hv', hvs⟩ := except_bind_ok_iff.1 hvs
  obtain rfl : v' = v := by simpa [Derivation.values, bind, Except.bind, pure, Except.pure] using hvs
  exact ⟨p, List.mem_of_getElem? hp, parts, hv', _, _, _, hinner, hparts, hts⟩

lemma cons {x : Symbol} (h : LeastYields g tokens (x :: xs) ts (v :: vs)) : ∃ front back,
    LeastYields g tokens [x] front [v] ∧ LeastYields g tokens xs back vs ∧ front ++ back = ts := by
  have happend : LeastYields g tokens ([x] ++ xs) ts (v :: vs) := h
  obtain ⟨front, back, us, ws, hfront, hback, hts, hvs⟩ := happend.append
  obtain ⟨u, rfl⟩ := List.length_eq_one_iff.1 hfront.yields.length_eq
  obtain ⟨rfl, rfl⟩ := List.cons.inj hvs
  exact ⟨front, back, hfront, hback, hts⟩

lemma mem_mul {x : Symbol} {l m : Language Token} (h : LeastYields g tokens (x :: xs) ts (v :: vs))
    (hl : ∀ {ts}, LeastYields g tokens [x] ts [v] → ts ∈ l)
    (hm : ∀ {ts}, LeastYields g tokens xs ts vs → ts ∈ m) : ts ∈ l * m := by
  obtain ⟨front, back, hfront, hback, rfl⟩ := h.cons
  exact Language.append_mem_mul (hl hfront) (hm hback)

section Lists

variable [LawfulPhrase V] {tail rest : String} {item : Symbol} {α : Type} {f : α → V}
  {R : α → Language Token} {as : List α}

/-- A list is empty, or its items are read. -/
lemma of_optional {name : String} (hname : g.alternatives name =
      [⟨name, [], Reducers.emptyList⟩, ⟨name, [.rule tail], Reducers.first⟩])
    (h : LeastYields g tokens [.rule name] ts [Phrase.ofList vs]) :
    (vs = [] ∧ ts = []) ∨ LeastYields g tokens [.rule tail] ts [Phrase.ofList vs] := by
  obtain ⟨p, hp, parts, hreduce, hparts⟩ := h.rule
  rw [hname] at hp
  rcases List.mem_pair.1 hp with rfl | rfl
  · obtain ⟨rfl, -⟩ := yields_nil_iff.1 hparts.yields
    exact .inl ⟨(ofList_inj.1 (Except.ok.inj hreduce)).symm, rfl⟩
  · obtain ⟨u, rfl⟩ := List.length_eq_one_iff.1 hparts.yields.length_eq
    obtain rfl := Except.ok.inj hreduce
    exact .inr hparts

/-- The items of a list are read one after the other. -/
lemma mem_prod_of_tail (h : g.Tails tail rest item none)
    (hitem : ∀ {ts a}, LeastYields g tokens [item] ts [f a] → ts ∈ R a)
    (hts : LeastYields g tokens [.rule tail] ts [Phrase.ofList (as.map f)]) :
    ts ∈ (as.map R).prod := by
  induction as generalizing ts with
  | nil =>
    have hmem : ts ∈ g.language (.rule tail) {Phrase.ofList []} := mem_language_singleton.2 hts.yields
    rw [h.language_tail_nil] at hmem
    exact absurd hmem (Language.notMem_zero _)
  | cons a as ih =>
    obtain ⟨p, hp, parts, hreduce, hparts⟩ := hts.rule
    rw [h.ofTail, List.mem_singleton] at hp
    subst hp
    obtain ⟨u, w, rfl⟩ := List.length_eq_two.1 hparts.yields.length_eq
    obtain ⟨us, hus, hlist⟩ := except_map_ok_iff.1 hreduce
    obtain ⟨rfl, rfl⟩ := List.cons.inj (ofList_inj.1 hlist)
    obtain rfl := LawfulPhrase.toList_eq_ok_iff.1 hus
    obtain ⟨front, back, hfront, hback, rfl⟩ := hparts.cons
    rw [List.map_cons, List.prod_cons]
    refine Language.append_mem_mul (hitem hfront) ?_
    rcases of_optional h.ofRest hback with ⟨hnil, rfl⟩ | hback
    · obtain rfl := List.map_eq_nil_iff.1 hnil
      exact Language.nil_mem_one
    · exact ih hback

lemma mem_prod_of_list {name : String} (h : g.Lists name tail rest item none)
    (hitem : ∀ {ts a}, LeastYields g tokens [item] ts [f a] → ts ∈ R a)
    (hts : LeastYields g tokens [.rule name] ts [Phrase.ofList (as.map f)]) :
    ts ∈ (as.map R).prod := by
  rcases of_optional h.ofName hts with ⟨hnil, rfl⟩ | hts
  · obtain rfl := List.map_eq_nil_iff.1 hnil
    exact Language.nil_mem_one
  · exact mem_prod_of_tail h.toTails hitem hts

end Lists

end LeastYields

/-- What is found first is the value of the least parse. -/
theorem leastYields_of_parseAll {tokens : List Token} {length : Nat} {others : List V}
    (h : g.parseAll tokens length = .ok (v :: others)) :
    LeastYields g (stream tokens length) [.rule g.entry] tokens [v] := by
  obtain ⟨found, hfound, hvalues⟩ := exists_found_of_parseAll h
  obtain ⟨parses, hmem, hsorted, hforall⟩ := exists_parses hfound
  rw [hvalues] at hforall
  cases hforall with
  | @cons d _ ds _ hd _ =>
    obtain ⟨b, e, hd⟩ := hd
    have hleast : Least g (stream tokens length) g.whole 0 d (stream tokens length).size := by
      refine ⟨(hmem d).1 List.mem_cons_self, fun {e} he hlt => ?_⟩
      rcases List.mem_cons.1 ((hmem e).2 he) with rfl | he
      · exact List.lt_irrefl _ hlt
      · exact List.lt_asymm hlt (List.rel_of_pairwise_cons hsorted he)
    have hwhole : LeastYields g (stream tokens length) g.whole (Token.enclose tokens length) [b, v, e] :=
      ⟨0, d, _, hleast, hd, by simp [stream]⟩
    obtain ⟨front, rest, hfront, hrest, heq⟩ := hwhole.cons
    obtain ⟨inner, back, hinner, hback, rfl⟩ := hrest.cons
    exact eq_of_enclose hfront.yields hback.yields heq ▸ hinner

end TriggerScript.Grammar
