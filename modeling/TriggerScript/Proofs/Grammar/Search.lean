import Mathlib.Data.List.Enum
import Mathlib.Tactic.Common
import TriggerScript.Proofs.Grammar.Derivations

/-!
# What the search finds

The search for matches lists all derivations of the symbols it is given, each of them once, sorted by
their choices, and with each its values (`enumerates_sequence`).
-/

namespace TriggerScript.Grammar

variable {V : Type} [Phrase V] {g : Grammar V} {tokens : Array Token}
  {expand : String → Nat → Except Error (Found V)} {s : Symbol} {symbols : List Symbol}
  {name : String} {place budget : Nat}

/-! ## The search, step by step -/

lemma matchSequence_cons_ok_iff {found : Found (List V)} :
    matchSequence tokens expand (s :: symbols) place = .ok found ↔
      ∃ heads tails, matchSymbol tokens expand s place = .ok heads ∧
        List.Forall₂ (fun head tail => ∃ f, matchSequence tokens expand symbols head.2 = .ok f ∧
          f.map (head.1 :: ·) = tail) heads.results tails ∧
        Found.concat (⟨[], heads.furthest⟩ :: tails) = found := by
  simp only [matchSequence, except_bind_ok_iff, except_mapM_ok_iff, pure, Except.pure,
    Except.ok.injEq]
  exact ⟨fun ⟨heads, hheads, tails, htails, h⟩ => ⟨heads, tails, hheads, htails, h⟩,
    fun ⟨heads, tails, hheads, htails, h⟩ => ⟨heads, hheads, tails, htails, h⟩⟩

lemma matchProduction_ok_iff {p : Production V} {found : Found V} :
    matchProduction tokens expand place p = .ok found ↔
      ∃ inner results, matchSequence tokens expand p.symbols place = .ok inner ∧
        List.Forall₂ (fun m r => p.reduce m.1 = .ok r.1 ∧ m.2 = r.2) inner.results results ∧
        ⟨results, inner.furthest⟩ = found := by
  simp only [matchProduction, except_bind_ok_iff, except_mapM_ok_iff, pure, Except.pure,
    Except.ok.injEq]
  constructor
  · rintro ⟨inner, hinner, results, hresults, h⟩
    refine ⟨inner, results, hinner, hresults.imp fun m r hr => ?_, h⟩
    split at hr
    · rename_i v hv
      obtain rfl := Except.ok.inj hr
      exact ⟨hv, rfl⟩
    · cases hr
  · rintro ⟨inner, results, hinner, hresults, h⟩
    refine ⟨inner, hinner, results, hresults.imp fun m r hr => ?_, h⟩
    simp only [hr.1, hr.2]

lemma expand_ok_iff {found : Found V} :
    g.expand tokens (budget + 1) name place = .ok found ↔
      g.alternatives name ≠ [] ∧ ∃ founds,
        List.Forall₂ (fun p f => matchProduction tokens (g.expand tokens budget) place p = .ok f)
          (g.alternatives name) founds ∧
        Found.concat founds = found := by
  rw [Grammar.expand]
  split
  · rename_i h
    simp [h]
  · rename_i h
    simp only [except_bind_ok_iff, except_mapM_ok_iff, pure, Except.pure, Except.ok.injEq, ne_eq]
    exact ⟨fun hfound => ⟨h, hfound⟩, fun hfound => hfound.2⟩

/-- What the parts of a search have found stands in the order of the parts. -/
lemma Found.results_concat {α : Type} (founds : List (Found α)) :
    (Found.concat founds).results = (founds.map (·.results)).flatten :=
  List.flatMap_def ..

/-! ## Lists of derivations -/

/-- The items are all derivations with the property, with the place behind each, sorted by their
choices; the results are their values in the same order, wrapped in lists by `f`. -/
structure Enumerates {α : Type} (g : Grammar V) (P : Derivation → Nat → Prop) (f : α → List V)
    (items : List (Derivation × Nat)) (results : List (α × Nat)) : Prop where
  sorted : items.Pairwise fun i j => i.1.choices < j.1.choices
  mem_iff : ∀ {d : Derivation} {stop : Nat}, (d, stop) ∈ items ↔ P d stop
  values : List.Forall₂ (fun i r => i.1.values g = .ok (f r.1) ∧ i.2 = r.2) items results

namespace Enumerates

variable {α β ι : Type} {P : Derivation → Nat → Prop} {f : α → List V} {f' : β → List V}
  {items : List (Derivation × Nat)} {results : List (α × Nat)} {results' : List (β × Nat)}

/-- A change of all derivations that keeps their order. -/
lemma map (h : Enumerates g P f items results) (k : Derivation → Derivation)
    (hk : ∀ {d e}, d.choices < e.choices → (k d).choices < (k e).choices)
    (hresults : List.Forall₂ (fun r r' => (∀ d : Derivation, d.values g = .ok (f r.1) →
      (k d).values g = .ok (f' r'.1)) ∧ r.2 = r'.2) results results') :
    Enumerates g (fun d stop => ∃ e, k e = d ∧ P e stop) f' (items.map (Prod.map k id))
      results' where
  sorted := List.pairwise_map.2 (h.sorted.imp hk)
  mem_iff {d stop} := by
    simp only [List.mem_map, Prod.exists, Prod.map_apply, id_eq, Prod.mk.injEq, h.mem_iff]
    constructor
    · rintro ⟨e, stop, he, rfl, rfl⟩
      exact ⟨e, rfl, he⟩
    · rintro ⟨e, rfl, he⟩
      exact ⟨e, stop, he, rfl, rfl⟩
  values := by
    rw [List.forall₂_map_left_iff]
    refine (forall₂_comp h.values hresults).imp ?_
    rintro i r' ⟨r, hitem, hresult⟩
    exact ⟨hresult.1 _ hitem.1, hitem.2.trans hresult.2⟩

/-- Lists of derivations one behind the other, each with larger choices than those before it. -/
lemma flatten {Q : ι → Derivation → Nat → Prop} {is : List ι} {parts : List (List (α × Nat))}
    (hparts : List.Forall₂ (fun i part => ∃ items, Enumerates g (Q i) f items part) is parts)
    (hsorted : is.Pairwise fun i j => ∀ {d e stop stop'}, Q i d stop → Q j e stop' →
      d.choices < e.choices) :
    ∃ items, Enumerates g (fun d stop => ∃ i ∈ is, Q i d stop) f items parts.flatten := by
  induction hparts with
  | nil => exact ⟨[], .nil, by simp, .nil⟩
  | @cons i part is parts hpart _ ih =>
    obtain ⟨items, hitems⟩ := hpart
    obtain ⟨hi, hsorted⟩ := List.pairwise_cons.1 hsorted
    obtain ⟨others, hothers⟩ := ih hsorted
    refine ⟨items ++ others, List.pairwise_append.2 ⟨hitems.sorted, hothers.sorted, ?_⟩, ?_, ?_⟩
    · rintro ⟨d, stop⟩ hd ⟨e, stop'⟩ he
      obtain ⟨j, hj, hQ⟩ := hothers.mem_iff.1 he
      exact hi j hj (hitems.mem_iff.1 hd) hQ
    · intro d stop
      simp [hitems.mem_iff, hothers.mem_iff]
    · exact List.rel_append hitems.values hothers.values

lemma of_iff (h : Enumerates g P f items results) {Q : Derivation → Nat → Prop}
    (hPQ : ∀ d stop, P d stop ↔ Q d stop) : Enumerates g Q f items results where
  sorted := h.sorted
  mem_iff := h.mem_iff.trans (hPQ _ _)
  values := h.values

/-- Each result belongs to a derivation. -/
lemma exists_of_mem_results (h : Enumerates g P f items results) {a : α} {stop : Nat}
    (ha : (a, stop) ∈ results) : ∃ d, P d stop ∧ d.values g = .ok (f a) := by
  obtain ⟨⟨d, stop'⟩, hd, hvalues, rfl⟩ := exists_of_mem_left h.values.flip ha
  exact ⟨d, h.mem_iff.1 hd, hvalues⟩

end Enumerates

/-! ## The search lists all derivations -/

lemma enumerates_terminal {found : Found V}
    (h : matchSymbol tokens expand (.terminal name) place = .ok found) :
    ∃ items, Enumerates g (Derives g tokens [.terminal name] place) (fun v => [v]) items
      found.results := by
  have hderives : ∀ {d stop}, Derives g tokens [.terminal name] place d stop ↔
      ∃ token, tokens[place]? = some token ∧ token.name = name ∧
        d = .token token .done ∧ stop = place + 1 := by
    intro d stop
    constructor
    · intro hd
      cases hd with
      | token htoken hname hrest =>
        cases hrest
        exact ⟨_, htoken, hname, rfl, rfl⟩
    · rintro ⟨token, htoken, hname, rfl, rfl⟩
      exact .token htoken hname .done
  simp only [matchSymbol] at h
  split at h
  · rename_i hnone
    obtain rfl := Except.ok.inj h
    exact ⟨[], .nil, by simp [hderives, hnone], .nil⟩
  · rename_i token htoken
    split at h
    · rename_i hname
      obtain rfl := Except.ok.inj h
      refine ⟨[(.token token .done, place + 1)], List.pairwise_singleton .., ?_, ?_⟩
      · intro d stop
        simp [hderives, htoken, hname]
      · exact .cons ⟨rfl, rfl⟩ .nil
    · rename_i hname
      obtain rfl := Except.ok.inj h
      exact ⟨[], .nil, by simp [hderives, htoken, hname], .nil⟩

/-- The derivations of a list of symbols, if those of each rule are listed. -/
lemma enumerates_sequence_of (hexpand : ∀ {name place found}, expand name place = .ok found →
      ∃ items, Enumerates g (Derives g tokens [.rule name] place) (fun v => [v]) items found.results) :
    ∀ {symbols place} {found : Found (List V)},
      matchSequence tokens expand symbols place = .ok found →
      ∃ items, Enumerates g (Derives g tokens symbols place) id items found.results := by
  intro symbols
  induction symbols with
  | nil =>
    intro place found h
    obtain rfl := Except.ok.inj h
    refine ⟨[(.done, place)], List.pairwise_singleton .., ?_, .cons ⟨rfl, rfl⟩ .nil⟩
    intro d stop
    rw [List.mem_singleton, Prod.mk.injEq]
    constructor
    · rintro ⟨rfl, rfl⟩
      exact .done
    · rintro ⟨⟩
      exact ⟨rfl, rfl⟩
  | cons s symbols ih =>
    intro place found h
    obtain ⟨heads, tails, hheads, htails, rfl⟩ := matchSequence_cons_ok_iff.1 h
    obtain ⟨items, hitems⟩ : ∃ items, Enumerates g (Derives g tokens [s] place) (fun v => [v]) items
        heads.results := by
      cases s with
      | terminal name => exact enumerates_terminal hheads
      | rule name => exact hexpand hheads
    -- behind each derivation of the first symbol stand all derivations of the others from there on
    have hparts : List.Forall₂ (fun i part => ∃ items, Enumerates g (fun d stop =>
        ∃ e, i.1.append e = d ∧ Derives g tokens symbols i.2 e stop) id items part)
        items (tails.map (·.results)) := by
      rw [List.forall₂_map_right_iff]
      refine (forall₂_comp hitems.values htails).imp ?_
      rintro ⟨d, mid⟩ _ ⟨⟨v, _⟩, ⟨hd, rfl⟩, f, hf, rfl⟩
      obtain ⟨rest, hrest⟩ := ih hf
      refine ⟨_, hrest.map d.append ?_ ?_⟩
      · intro e e' hlt
        rw [Derivation.choices_append, Derivation.choices_append]
        exact List.append_left_lt hlt
      · rw [Found.map, List.forall₂_map_right_iff, List.forall₂_same]
        exact fun r _ => ⟨fun e he => Derivation.values_append hd he, rfl⟩
    have hsorted : items.Pairwise fun i j => ∀ {d e stop stop'},
        (∃ d', i.1.append d' = d ∧ Derives g tokens symbols i.2 d' stop) →
        (∃ e', j.1.append e' = e ∧ Derives g tokens symbols j.2 e' stop') →
        d.choices < e.choices := by
      refine hitems.sorted.imp_of_mem ?_
      rintro ⟨d, mid⟩ ⟨e, mid'⟩ hd he hlt _ _ _ _ ⟨d', rfl, -⟩ ⟨e', rfl, -⟩
      rw [Derivation.choices_append, Derivation.choices_append]
      exact (hitems.mem_iff.1 hd).choices_lt_append (hitems.mem_iff.1 he) hlt _ _
    obtain ⟨all, hall⟩ := Enumerates.flatten hparts hsorted
    refine ⟨all, ?_⟩
    rw [Found.results_concat, List.map_cons, List.flatten_cons, List.nil_append]
    refine hall.of_iff fun d stop => ?_
    rw [show s :: symbols = [s] ++ symbols from rfl, derives_append_iff]
    constructor
    · rintro ⟨⟨d₁, mid⟩, hmem, d₂, rfl, h₂⟩
      exact ⟨d₁, d₂, mid, hitems.mem_iff.1 hmem, h₂, rfl⟩
    · rintro ⟨d₁, d₂, mid, h₁, h₂, rfl⟩
      exact ⟨(d₁, mid), hitems.mem_iff.2 h₁, d₂, rfl, h₂⟩

omit [Phrase V] in
lemma derives_rule_iff {d : Derivation} {stop : Nat} :
    Derives g tokens [.rule name] place d stop ↔ ∃ choice p inner,
      (g.alternatives name)[choice]? = some p ∧ Derives g tokens p.symbols place inner stop ∧
        .rule name choice inner .done = d := by
  constructor
  · intro h
    cases h with
    | rule hp hinner hrest =>
      cases hrest
      exact ⟨_, _, _, hp, hinner, rfl⟩
  · rintro ⟨choice, p, inner, hp, hinner, rfl⟩
    exact .rule hp hinner .done

/-- The value of a rule is what the alternative makes of the values of its symbols. -/
lemma values_rule {choice : Nat} {p : Production V} {inner : Derivation} {parts : List V}
    (hp : (g.alternatives name)[choice]? = some p) (hinner : inner.values g = .ok parts) :
    (Derivation.rule name choice inner .done).values g = (p.reduce parts).map fun v => [v] := by
  simp only [Derivation.values, hinner, reduce, hp, bind, Except.bind, pure, Except.pure]
  cases p.reduce parts <;> rfl

lemma enumerates_expand {found : Found V} (h : g.expand tokens budget name place = .ok found) :
    ∃ items, Enumerates g (Derives g tokens [.rule name] place) (fun v => [v]) items
      found.results := by
  induction budget generalizing name place found with
  | zero => cases h
  | succ budget ih =>
    obtain ⟨-, founds, hfounds, rfl⟩ := expand_ok_iff.1 h
    -- the alternatives are numbered, and the number is the first choice of a derivation of the rule
    have hparts : List.Forall₂ (fun (pc : Production V × Nat) part => ∃ items, Enumerates g
        (fun d stop => ∃ inner, Derivation.rule name pc.2 inner .done = d ∧
          Derives g tokens pc.1.symbols place inner stop) (fun v => [v]) items part)
        (g.alternatives name).zipIdx (founds.map (·.results)) := by
      have hzip : List.Forall₂ (fun (pc : Production V × Nat) f =>
          matchProduction tokens (g.expand tokens budget) place pc.1 = .ok f)
          (g.alternatives name).zipIdx founds := by
        rw [← List.zipIdx_map_fst 0 (g.alternatives name)] at hfounds
        exact List.forall₂_map_left_iff.1 hfounds
      rw [List.forall₂_map_right_iff]
      refine ((List.forall₂_and_left _ _).2 ⟨fun _ hpc => hpc, hzip⟩).imp ?_
      rintro ⟨p, choice⟩ f ⟨hpc, hf⟩
      obtain ⟨inner, results, hinner, hresults, rfl⟩ := matchProduction_ok_iff.1 hf
      obtain ⟨items, hitems⟩ := enumerates_sequence_of ih hinner
      have hp : (g.alternatives name)[choice]? = some p := List.mk_mem_zipIdx_iff_getElem?.1 hpc
      refine ⟨_, hitems.map (fun inner => .rule name choice inner .done) ?_ ?_⟩
      · intro d e hlt
        simpa [Derivation.choices] using hlt
      · refine hresults.imp fun m r hr => ⟨fun d hd => ?_, hr.2⟩
        rw [values_rule hp hd, id, hr.1]
        rfl
    have hsorted : (g.alternatives name).zipIdx.Pairwise fun i j => ∀ {d e stop stop'},
        (∃ inner, Derivation.rule name i.2 inner .done = d ∧
          Derives g tokens i.1.symbols place inner stop) →
        (∃ inner, Derivation.rule name j.2 inner .done = e ∧
          Derives g tokens j.1.symbols place inner stop') → d.choices < e.choices := by
      have hindex : (g.alternatives name).zipIdx.Pairwise fun i j => i.2 < j.2 := by
        rw [← List.pairwise_map, List.zipIdx_map_snd]
        exact List.pairwise_lt_range'
      refine hindex.imp ?_
      rintro i j hij _ _ _ _ ⟨_, rfl, -⟩ ⟨_, rfl, -⟩
      exact .rel hij
    obtain ⟨all, hall⟩ := Enumerates.flatten hparts hsorted
    refine ⟨all, ?_⟩
    rw [Found.results_concat]
    refine hall.of_iff fun d stop => ?_
    rw [derives_rule_iff]
    constructor
    · rintro ⟨⟨p, choice⟩, hmem, inner, rfl, hinner⟩
      exact ⟨choice, p, inner, List.mk_mem_zipIdx_iff_getElem?.1 hmem, hinner, rfl⟩
    · rintro ⟨choice, p, inner, hp, hinner, rfl⟩
      exact ⟨(p, choice), List.mk_mem_zipIdx_iff_getElem?.2 hp, inner, rfl, hinner⟩

lemma enumerates_symbol {found : Found V}
    (h : matchSymbol tokens (g.expand tokens budget) s place = .ok found) :
    ∃ items, Enumerates g (Derives g tokens [s] place) (fun v => [v]) items found.results := by
  cases s with
  | terminal name => exact enumerates_terminal h
  | rule name => exact enumerates_expand h

/-- The search lists all derivations of the symbols from a place on, each once, sorted by their
choices, with their values. -/
theorem enumerates_sequence {found : Found (List V)}
    (h : matchSequence tokens (g.expand tokens budget) symbols place = .ok found) :
    ∃ items, Enumerates g (Derives g tokens symbols place) id items found.results :=
  enumerates_sequence_of enumerates_expand h

end TriggerScript.Grammar
