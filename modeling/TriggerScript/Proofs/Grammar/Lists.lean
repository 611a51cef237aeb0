import TriggerScript.Proofs.Grammar.Budget
import TriggerScript.Proofs.Grammar.Clauses

/-!
# What a list clause matches

A rule that is described by a list clause matches the items laid end to end, with a separator between
neighbours if the clause has one (`Laid`). The search finds one match for each choice of matches for the
items and the separators, its value is the list of the values of the items, and each list comes before
those that go on behind it (`matchesAt_list`). That the search comes to an end is due to the items alone:
each of them takes a token (`Lists.ends`).
-/

namespace TriggerScript.Grammar

variable {V : Type}

/-! ## Numbered results -/

/-- The results belong, one by one, to the lists of numbers with the property, each list once and
sorted. -/
def Listed {α : Type} (P : List Nat → α → Nat → Prop) (results : List (α × Nat)) : Prop :=
  ∃ lists : List (List Nat), lists.Pairwise (· < ·) ∧ (∀ ns, ns ∈ lists ↔ ∃ a stop, P ns a stop) ∧
    List.Forall₂ (fun ns r => P ns r.1 r.2) lists results

namespace Listed

variable {α β : Type} {P Q : List Nat → α → Nat → Prop} {results : List (α × Nat)}

lemma of_iff (h : Listed P results) (hPQ : ∀ ns a stop, P ns a stop ↔ Q ns a stop) :
    Listed Q results := by
  obtain rfl : P = Q := by
    funext ns a stop
    exact propext (hPQ ns a stop)
  exact h

/-- A result in front of all others belongs to the empty list. -/
lemma cons (h : Listed P results) (hne : ∀ ns a stop, P ns a stop → ns ≠ []) (b : α) (k : Nat) :
    Listed (fun ns a stop => (ns = [] ∧ a = b ∧ stop = k) ∨ P ns a stop) ((b, k) :: results) := by
  obtain ⟨lists, hsorted, hmem, hresults⟩ := h
  refine ⟨[] :: lists, List.pairwise_cons.2 ⟨?_, hsorted⟩, ?_, .cons (.inl ⟨rfl, rfl, rfl⟩) ?_⟩
  · intro ns hns
    obtain ⟨a, stop, hP⟩ := (hmem ns).1 hns
    obtain ⟨n, rest, rfl⟩ := List.exists_cons_of_ne_nil (hne ns a stop hP)
    exact .nil
  · intro ns
    rw [List.mem_cons, hmem]
    constructor
    · rintro (rfl | ⟨a, stop, hP⟩)
      · exact ⟨b, k, .inl ⟨rfl, rfl, rfl⟩⟩
      · exact ⟨a, stop, .inr hP⟩
    · rintro ⟨a, stop, ⟨rfl, -, -⟩ | hP⟩
      · exact .inl rfl
      · exact .inr ⟨a, stop, hP⟩
  · exact hresults.imp fun _ _ hP => .inr hP

/-- What is made of each result belongs to the same list. -/
lemma relate {R : α → β → Prop} {results' : List (β × Nat)} (h : Listed P results)
    (hR : List.Forall₂ (fun r r' => R r.1 r'.1 ∧ r.2 = r'.2) results results') :
    Listed (fun ns b stop => ∃ a, P ns a stop ∧ R a b) results' := by
  obtain ⟨lists, hsorted, hmem, hresults⟩ := h
  have hboth : List.Forall₂ (fun ns r => ∃ a, P ns a r.2 ∧ R a r.1) lists results' := by
    refine (forall₂_comp hresults hR).imp ?_
    rintro ns ⟨b, _⟩ ⟨⟨a, stop⟩, hP, hab, rfl⟩
    exact ⟨a, hP, hab⟩
  refine ⟨lists, hsorted, fun ns => ?_, hboth⟩
  constructor
  · intro hns
    obtain ⟨⟨b, stop⟩, -, hP⟩ := exists_of_mem_left hboth hns
    exact ⟨b, stop, hP⟩
  · rintro ⟨b, stop, a, hP, -⟩
    exact (hmem ns).2 ⟨a, stop, hP⟩

/-- Behind each of several heads stand results of its own; the number of the head comes in front. -/
lemma flatten {R : β → List Nat → α → Nat → Prop} {heads : List β} {parts : List (List (α × Nat))}
    (h : List.Forall₂ (fun b part => Listed (R b) part) heads parts) :
    Listed (fun ns a stop => ∃ i b rest, ns = i :: rest ∧ heads[i]? = some b ∧ R b rest a stop)
      parts.flatten := by
  -- the heads are numbered from any number on
  suffices hfrom : ∀ n, Listed (fun ns a stop => ∃ i b rest, ns = (n + i) :: rest ∧
      heads[i]? = some b ∧ R b rest a stop) parts.flatten by
    simpa only [Nat.zero_add] using hfrom 0
  induction h with
  | nil => exact fun n => ⟨[], .nil, by simp, .nil⟩
  | @cons b part heads parts hpart _ ih =>
    intro n
    obtain ⟨lists, hsorted, hmem, hresults⟩ := hpart
    obtain ⟨others, hsorted', hmem', hresults'⟩ := ih (n + 1)
    have hothers : ∀ ns a stop, (∃ i c rest, ns = (n + 1 + i) :: rest ∧ heads[i]? = some c ∧
        R c rest a stop) ↔ ∃ i c rest, ns = (n + (i + 1)) :: rest ∧ (b :: heads)[i + 1]? = some c ∧
          R c rest a stop := by
      intro ns a stop
      simp only [List.getElem?_cons_succ, Nat.add_assoc, Nat.add_comm 1]
    refine ⟨lists.map (n :: ·) ++ others, List.pairwise_append.2 ⟨?_, hsorted', ?_⟩, ?_, ?_⟩
    · exact List.pairwise_map.2 (hsorted.imp fun hlt => .cons hlt)
    · intro ns hns ns' hns'
      obtain ⟨rest, -, rfl⟩ := List.mem_map.1 hns
      obtain ⟨a, stop, i, c, rest', rfl, -, -⟩ := (hmem' ns').1 hns'
      exact .rel (by omega)
    · intro ns
      rw [List.mem_append, hmem', List.mem_map]
      constructor
      · rintro (⟨rest, hrest, rfl⟩ | ⟨a, stop, hP⟩)
        · obtain ⟨a, stop, hP⟩ := (hmem rest).1 hrest
          exact ⟨a, stop, 0, b, rest, rfl, rfl, hP⟩
        · obtain ⟨i, hi⟩ := (hothers ns a stop).1 hP
          exact ⟨a, stop, i + 1, hi⟩
      · rintro ⟨a, stop, i, c, rest, rfl, hc, hP⟩
        cases i with
        | zero =>
          obtain rfl := Option.some.inj hc
          exact .inl ⟨rest, (hmem rest).2 ⟨a, stop, hP⟩, rfl⟩
        | succ i => exact .inr ⟨a, stop, (hothers _ a stop).2 ⟨i, c, rest, rfl, hc, hP⟩⟩
    · refine List.rel_append ?_ ?_
      · rw [List.forall₂_map_left_iff]
        exact hresults.imp fun rest r hP => ⟨0, b, rest, rfl, rfl, hP⟩
      · refine hresults'.imp fun ns r hP => ?_
        obtain ⟨i, hi⟩ := (hothers ns r.1 r.2).1 hP
        exact ⟨i + 1, hi⟩

end Listed

/-! ## Items laid end to end -/

variable [Phrase V]

/-- The matches of a symbol at a place, each with the place behind it. -/
def matchesAt (g : Grammar V) (tokens : Array Token) (x : Symbol) (place : Nat) :
    Except Error (List (V × Nat)) :=
  (matchSymbol tokens (g.expand tokens (g.budget tokens.size)) x place).map (·.results)

/-- The match with this number, among those of the symbol at the place, has the value and ends there. -/
def Picks (g : Grammar V) (tokens : Array Token) (x : Symbol) (place number : Nat) (v : V)
    (stop : Nat) : Prop :=
  ∃ results, g.matchesAt tokens x place = .ok results ∧ results[number]? = some (v, stop)

/-- Behind an item stand more items, each behind a separator if there is one. The numbers are those
of the matches that are chosen, from the left to the right, and the values are those of the items.
-/
inductive Continued (g : Grammar V) (tokens : Array Token) (item : Symbol) (separator : Option Symbol) :
    Nat → List Nat → List V → Nat → Prop
  | done {place} : Continued g tokens item separator place [] [] place
  | next {place i v mid ns vs stop} (hseparator : separator = none)
      (hitem : Picks g tokens item place i v mid)
      (hrest : Continued g tokens item separator mid ns vs stop) :
      Continued g tokens item separator place (i :: ns) (v :: vs) stop
  | apart {x place j w start i v mid ns vs stop} (hseparator : separator = some x)
      (hx : Picks g tokens x place j w start) (hitem : Picks g tokens item start i v mid)
      (hrest : Continued g tokens item separator mid ns vs stop) :
      Continued g tokens item separator place (j :: i :: ns) (v :: vs) stop

/-- Any number of items stand from one place to another, with separators between neighbours if there are
any. -/
inductive Laid (g : Grammar V) (tokens : Array Token) (item : Symbol) (separator : Option Symbol) :
    Nat → List Nat → List V → Nat → Prop
  | nil {place} : Laid g tokens item separator place [] [] place
  | cons {place i v mid ns vs stop} (hitem : Picks g tokens item place i v mid)
      (hrest : Continued g tokens item separator mid ns vs stop) :
      Laid g tokens item separator place (i :: ns) (v :: vs) stop

variable {g : Grammar V} {tokens : Array Token} {x item : Symbol} {symbols : List Symbol}
  {separator : Option Symbol} {name tail rest : String} {place budget : Nat}

/-- What stands behind an item is nothing, or more items, behind a separator if there is one. -/
lemma continued_iff {ns : List Nat} {vs : List V} {stop : Nat} :
    Continued g tokens item separator place ns vs stop ↔
      (ns = [] ∧ vs = [] ∧ stop = place) ∨
        match separator with
        | none => ns ≠ [] ∧ Laid g tokens item none place ns vs stop
        | some x => ∃ j w start ns', ns = j :: ns' ∧ Picks g tokens x place j w start ∧ ns' ≠ [] ∧
          Laid g tokens item (some x) start ns' vs stop := by
  constructor
  · intro h
    cases h with
    | done => exact .inl ⟨rfl, rfl, rfl⟩
    | next hseparator hitem hrest =>
      subst hseparator
      exact .inr ⟨List.cons_ne_nil _ _, .cons hitem hrest⟩
    | apart hseparator hx hitem hrest =>
      subst hseparator
      exact .inr ⟨_, _, _, _, rfl, hx, List.cons_ne_nil _ _, .cons hitem hrest⟩
  · rintro (⟨rfl, rfl, rfl⟩ | h)
    · exact .done
    cases separator with
    | none =>
      obtain ⟨hne, hlaid⟩ := h
      cases hlaid with
      | nil => exact absurd rfl hne
      | cons hitem hrest => exact .next rfl hitem hrest
    | some x =>
      obtain ⟨j, w, start, ns', rfl, hx, hne, hlaid⟩ := h
      cases hlaid with
      | nil => exact absurd rfl hne
      | cons hitem hrest => exact .apart rfl hx hitem hrest

/-! ## The search, with numbers -/

/-- The number of the match is the same with every budget that suffices. -/
lemma matchesAt_of_le {found : Found V} (hle : budget ≤ g.budget tokens.size)
    (h : matchSymbol tokens (g.expand tokens budget) x place = .ok found) :
    g.matchesAt tokens x place = .ok found.results := by
  have hbelow : Below (matchSymbol tokens (g.expand tokens budget) x place) _ :=
    below_symbol (below_expand hle) x place
  rw [matchesAt, hbelow.eq (by simp [h]), h]
  rfl

lemma exists_of_sequence_singleton {expand : String → Nat → Except Error (Found V)}
    {found : Found (List V)} (h : matchSequence tokens expand [x] place = .ok found) :
    ∃ f, matchSymbol tokens expand x place = .ok f ∧
      found.results = f.results.map fun r => ([r.1], r.2) := by
  obtain ⟨heads, tails, hheads, htails, rfl⟩ := matchSequence_cons_ok_iff.1 h
  refine ⟨heads, hheads, ?_⟩
  change tails.flatMap (·.results) = _
  clear h hheads
  generalize heads.results = results at htails ⊢
  induction htails with
  | nil => rfl
  | cons htail _ ih =>
    obtain ⟨f, hf, rfl⟩ := htail
    obtain rfl := Except.ok.inj hf
    rw [List.flatMap_cons, ih]
    rfl

lemma listed_sequence {found : Found (List V)} {P : Nat → List Nat → List V → Nat → Prop}
    (hle : budget ≤ g.budget tokens.size)
    (h : matchSequence tokens (g.expand tokens budget) (x :: symbols) place = .ok found)
    (hsymbols : ∀ {mid} {f : Found (List V)},
      matchSequence tokens (g.expand tokens budget) symbols mid = .ok f → Listed (P mid) f.results) :
    Listed (fun ns vs stop => ∃ i v mid ns' vs', ns = i :: ns' ∧ vs = v :: vs' ∧
      Picks g tokens x place i v mid ∧ P mid ns' vs' stop) found.results := by
  obtain ⟨heads, tails, hheads, htails, rfl⟩ := matchSequence_cons_ok_iff.1 h
  have hmatches := matchesAt_of_le hle hheads
  have hparts : List.Forall₂ (fun head part => Listed (fun ns vs stop => ∃ vs', P head.2 ns vs' stop ∧
      vs = head.1 :: vs') part) heads.results (tails.map (·.results)) := by
    rw [List.forall₂_map_right_iff]
    refine htails.imp ?_
    rintro ⟨v, mid⟩ _ ⟨f, hf, rfl⟩
    refine (hsymbols hf).relate ?_
    rw [Found.map, List.forall₂_map_right_iff, List.forall₂_same]
    exact fun r _ => ⟨rfl, rfl⟩
  rw [Found.results_concat, List.map_cons, List.flatten_cons, List.nil_append]
  refine (Listed.flatten hparts).of_iff fun ns vs stop => ?_
  constructor
  · rintro ⟨i, ⟨v, mid⟩, ns', rfl, hhead, vs', hP, rfl⟩
    exact ⟨i, v, mid, ns', vs', rfl, rfl, ⟨_, hmatches, hhead⟩, hP⟩
  · rintro ⟨i, v, mid, ns', vs', rfl, rfl, ⟨results, hresults, hhead⟩, hP⟩
    obtain rfl := Except.ok.inj (hmatches.symm.trans hresults)
    exact ⟨i, (v, mid), ns', rfl, hhead, vs', hP, rfl⟩

/-- The matches of one rule, if those of the rule are numbered in another way. -/
lemma listed_singleton {found : Found (List V)} {P : List Nat → V → Nat → Prop}
    (h : matchSequence tokens (g.expand tokens budget) [.rule name] place = .ok found)
    (hrule : ∀ {f : Found V}, g.expand tokens budget name place = .ok f → Listed P f.results) :
    Listed (fun ns vs stop => ∃ v, P ns v stop ∧ vs = [v]) found.results := by
  obtain ⟨f, hf, hresults⟩ := exists_of_sequence_singleton h
  refine (hrule hf).relate ?_
  rw [hresults, List.forall₂_map_right_iff, List.forall₂_same]
  exact fun r _ => ⟨rfl, rfl⟩

lemma listed_production {found : Found V} {p : Production V} {P : List Nat → List V → Nat → Prop}
    (h : matchProduction tokens (g.expand tokens budget) place p = .ok found)
    (hsymbols : ∀ {inner : Found (List V)},
      matchSequence tokens (g.expand tokens budget) p.symbols place = .ok inner →
        Listed P inner.results) :
    Listed (fun ns v stop => ∃ vs, P ns vs stop ∧ p.reduce vs = .ok v) found.results := by
  obtain ⟨inner, results, hinner, hresults, rfl⟩ := matchProduction_ok_iff.1 h
  exact (hsymbols hinner).relate hresults

/-- A rule that is the empty list or what its other alternative makes. -/
lemma listed_optional {found : Found V} {p : Production V} {P : List Nat → V → Nat → Prop}
    (halternatives : g.alternatives name = [⟨name, [], Reducers.emptyList⟩, p])
    (h : g.expand tokens (budget + 1) name place = .ok found)
    (hp : ∀ {f : Found V}, matchProduction tokens (g.expand tokens budget) place p = .ok f →
      Listed P f.results)
    (hne : ∀ ns v stop, P ns v stop → ns ≠ []) :
    Listed (fun ns v stop => (ns = [] ∧ v = Phrase.ofList [] ∧ stop = place) ∨ P ns v stop)
      found.results := by
  obtain ⟨-, founds, hfounds, rfl⟩ := expand_ok_iff.1 h
  rw [halternatives] at hfounds
  cases hfounds with
  | cons hempty hothers =>
    cases hothers with
    | cons hother hnil =>
      cases hnil
      obtain rfl := Except.ok.inj hempty
      have hresults := (hp hother).cons hne (Phrase.ofList []) place
      simpa [Found.concat] using hresults

/-! ## The rules of a list -/

/-- A rule that stands for another one has its matches. -/
lemma listed_first {found : Found V} {P : List Nat → V → Nat → Prop}
    (h : matchProduction tokens (g.expand tokens budget) place ⟨name, [.rule tail], Reducers.first⟩ =
      .ok found)
    (htail : ∀ {f : Found V}, g.expand tokens budget tail place = .ok f → Listed P f.results) :
    Listed P found.results := by
  refine (listed_production h fun hinner => listed_singleton hinner htail).of_iff fun ns v stop => ?_
  constructor
  · rintro ⟨_, ⟨u, hP, rfl⟩, hv⟩
    obtain rfl := Except.ok.inj hv
    exact hP
  · intro hP
    exact ⟨[v], ⟨v, hP, rfl⟩, rfl⟩

/-- The first of two symbols is chosen and dropped. -/
lemma listed_second {found : Found V} {P : Nat → List Nat → V → Nat → Prop}
    (hle : budget ≤ g.budget tokens.size)
    (h : matchProduction tokens (g.expand tokens budget) place ⟨name, [x, .rule tail], Reducers.second⟩ =
      .ok found)
    (htail : ∀ {mid} {f : Found V}, g.expand tokens budget tail mid = .ok f →
      Listed (P mid) f.results) :
    Listed (fun ns v stop => ∃ j w start ns', ns = j :: ns' ∧ Picks g tokens x place j w start ∧
      P start ns' v stop) found.results := by
  have hlisted := listed_production h fun hinner => listed_sequence hle hinner fun hf =>
    listed_singleton hf htail
  refine hlisted.of_iff fun ns v stop => ?_
  constructor
  · rintro ⟨_, ⟨j, w, start, ns', _, rfl, rfl, hx, u, hP, rfl⟩, hv⟩
    obtain rfl := Except.ok.inj hv
    exact ⟨j, w, start, ns', rfl, hx, hP⟩
  · rintro ⟨j, w, start, ns', rfl, hx, hP⟩
    exact ⟨[w, v], ⟨j, w, start, ns', [v], rfl, rfl, hx, v, hP, rfl⟩, rfl⟩

/-- The value is the list of the values with the property. -/
def AsList (P : List Nat → List V → Nat → Prop) (ns : List Nat) (v : V) (stop : Nat) : Prop :=
  ∃ vs, P ns vs stop ∧ v = Phrase.ofList vs

/-- At least one item. -/
def LaidSome (g : Grammar V) (tokens : Array Token) (item : Symbol) (separator : Option Symbol)
    (place : Nat) (ns : List Nat) (vs : List V) (stop : Nat) : Prop :=
  ns ≠ [] ∧ Laid g tokens item separator place ns vs stop

lemma AsList.ne_nil {ns : List Nat} {v : V} {stop : Nat}
    (h : AsList (LaidSome g tokens item separator place) ns v stop) : ns ≠ [] := by
  obtain ⟨vs, ⟨hne, -⟩, -⟩ := h
  exact hne

/-- An item is put in front of what stands behind it. -/
lemma listed_cons {found : Found V}
    (hphrase : ∀ vs : List V, Phrase.toList (Phrase.ofList vs : V) = .ok vs)
    (hle : budget ≤ g.budget tokens.size)
    (h : matchProduction tokens (g.expand tokens budget) place
        ⟨name, [item, .rule rest], Reducers.cons⟩ =
      .ok found)
    (hrest : ∀ {mid} {f : Found V}, g.expand tokens budget rest mid = .ok f →
      Listed (AsList (Continued g tokens item separator mid)) f.results) :
    Listed (AsList (LaidSome g tokens item separator place)) found.results := by
  have hcons : ∀ (v : V) (vs : List V),
      Reducers.cons [v, Phrase.ofList vs] = .ok (Phrase.ofList (v :: vs)) := by
    intro v vs
    rw [Reducers.cons, hphrase]
    rfl
  have hlisted := listed_production h fun hinner => listed_sequence hle hinner fun hf =>
    listed_singleton hf hrest
  refine hlisted.of_iff fun ns v stop => ?_
  constructor
  · rintro ⟨_, ⟨i, w, mid, ns', _, rfl, rfl, hitem, _, ⟨ws, hws, rfl⟩, rfl⟩, hv⟩
    obtain rfl := Except.ok.inj ((hcons w ws).symm.trans hv)
    exact ⟨w :: ws, ⟨List.cons_ne_nil _ _, .cons hitem hws⟩, rfl⟩
  · rintro ⟨_, ⟨hne, hlaid⟩, rfl⟩
    cases hlaid with
    | nil => exact absurd rfl hne
    | cons hitem hws =>
      exact ⟨_, ⟨_, _, _, _, _, rfl, rfl, hitem, _, ⟨_, hws, rfl⟩, rfl⟩, hcons _ _⟩

/-- The matches of the rules inside a list: a tail is one item or more, and a rest is what can stand
behind an item. -/
lemma Tails.listed (h : g.Tails tail rest item separator)
    (hphrase : ∀ vs : List V, Phrase.toList (Phrase.ofList vs : V) = .ok vs)
    (hle : budget ≤ g.budget tokens.size) :
    (∀ {place} {f : Found V}, g.expand tokens budget tail place = .ok f →
      Listed (AsList (LaidSome g tokens item separator place)) f.results) ∧
    ∀ {place} {f : Found V}, g.expand tokens budget rest place = .ok f →
      Listed (AsList (Continued g tokens item separator place)) f.results := by
  induction budget with
  | zero => exact ⟨nofun, nofun⟩
  | succ budget ih =>
    obtain ⟨ihtail, ihrest⟩ := ih (by omega)
    constructor
    · intro place f hf
      obtain ⟨-, founds, hfounds, rfl⟩ := expand_ok_iff.1 hf
      rw [h.ofTail] at hfounds
      cases hfounds with
      | cons hp hnil =>
        cases hnil
        have hlisted := listed_cons hphrase (by omega) hp ihrest
        simpa [Found.concat] using hlisted
    · intro place f hf
      cases separator with
      | none =>
        have hlisted := listed_optional h.ofRest hf (fun hp => listed_first hp ihtail)
          fun _ _ _ => AsList.ne_nil
        refine hlisted.of_iff fun ns v stop => ?_
        constructor
        · rintro (⟨rfl, rfl, rfl⟩ | ⟨vs, hvs, rfl⟩)
          · exact ⟨[], .done, rfl⟩
          · exact ⟨vs, continued_iff.2 (.inr hvs), rfl⟩
        · rintro ⟨vs, hvs, rfl⟩
          rcases continued_iff.1 hvs with ⟨rfl, rfl, rfl⟩ | hvs
          · exact .inl ⟨rfl, rfl, rfl⟩
          · exact .inr ⟨vs, hvs, rfl⟩
      | some x =>
        have hlisted := listed_optional h.ofRest hf (fun hp => listed_second (by omega) hp ihtail) (by
          rintro _ _ _ ⟨j, w, start, ns', rfl, -⟩
          exact List.cons_ne_nil _ _)
        refine hlisted.of_iff fun ns v stop => ?_
        constructor
        · rintro (⟨rfl, rfl, rfl⟩ | ⟨j, w, start, ns', rfl, hx, vs, ⟨hne, hvs⟩, rfl⟩)
          · exact ⟨[], .done, rfl⟩
          · exact ⟨vs, continued_iff.2 (.inr ⟨j, w, start, ns', rfl, hx, hne, hvs⟩), rfl⟩
        · rintro ⟨vs, hvs, rfl⟩
          rcases continued_iff.1 hvs with ⟨rfl, rfl, rfl⟩ | ⟨j, w, start, ns', rfl, hx, hne, hvs⟩
          · exact .inl ⟨rfl, rfl, rfl⟩
          · exact .inr ⟨j, w, start, ns', rfl, hx, vs, ⟨hne, hvs⟩, rfl⟩

/-- The matches of a list. -/
lemma Lists.listed (h : g.Lists name tail rest item separator)
    (hphrase : ∀ vs : List V, Phrase.toList (Phrase.ofList vs : V) = .ok vs)
    (hle : budget ≤ g.budget tokens.size) {f : Found V}
    (hf : g.expand tokens budget name place = .ok f) :
    Listed (AsList (Laid g tokens item separator place)) f.results := by
  cases budget with
  | zero => cases hf
  | succ budget =>
    have hle : budget ≤ g.budget tokens.size := by omega
    obtain ⟨htail, -⟩ := h.toTails.listed hphrase hle
    have hlisted := listed_optional h.ofName hf (fun hp => listed_first hp htail)
      fun _ _ _ => AsList.ne_nil
    refine hlisted.of_iff fun ns v stop => ?_
    constructor
    · rintro (⟨rfl, rfl, rfl⟩ | ⟨vs, ⟨-, hvs⟩, rfl⟩)
      · exact ⟨[], .nil, rfl⟩
      · exact ⟨vs, hvs, rfl⟩
    · rintro ⟨vs, hvs, rfl⟩
      cases hvs with
      | nil => exact .inl ⟨rfl, rfl, rfl⟩
      | cons hitem hrest => exact .inr ⟨_, ⟨List.cons_ne_nil _ _, .cons hitem hrest⟩, rfl⟩

/-! ## The end of the search -/

/-- A list can only be expanded for ever if an item or a separator can: each item takes a token. -/
lemma Lists.ends (h : g.Lists name tail rest item separator) (hitem : ¬g.Vanishes item)
    (hplace : place ≤ tokens.size)
    (hends : ∀ x ∈ item :: separator.toList, ∀ mid, Meets g tokens ⟨[.rule name], place⟩ x mid →
      Ends g tokens ⟨[x], mid⟩) :
    Ends g tokens ⟨[.rule name], place⟩ := by
  have hnil : ∀ mid, Ends g tokens ⟨[], mid⟩ := fun mid => .intro _ fun c hstep => nomatch hstep
  -- from tail to tail there are fewer tokens left
  have htail : ∀ left mid zs, tokens.size - mid = left → mid ≤ tokens.size →
      Reaches g tokens ⟨[.rule name], place⟩ ⟨.rule tail :: zs, mid⟩ →
      Ends g tokens ⟨[.rule tail], mid⟩ := by
    intro left
    induction left using Nat.strong_induction_on with
    | _ left ih =>
      intro mid zs hleft hmid hreach
      refine .intro _ fun c hstep => ?_
      cases hstep with
      | choose hp =>
        have hreach := hreach.tail (.choose hp)
        rw [h.ofTail, List.mem_singleton] at hp
        subst hp
        refine (hends item List.mem_cons_self mid ⟨_, hreach⟩).append fun k hk => ?_
        have hlt : mid < k := by
          obtain ⟨d, hd⟩ := reaches_nil_iff.1 hk
          by_contra hge
          exact hitem (hd.vanishes (Nat.not_lt.1 hge) item List.mem_cons_self)
        have hsize : k ≤ tokens.size := Reaches.place_le hk hmid
        have hreach : Reaches g tokens ⟨[.rule name], place⟩ ⟨.rule rest :: zs, k⟩ :=
          hreach.trans (hk.append (.rule rest :: zs))
        refine .intro _ fun c hstep => ?_
        cases hstep with
        | choose hp =>
          have hreach := hreach.tail (.choose hp)
          rw [h.ofRest, List.mem_pair] at hp
          rcases hp with rfl | rfl
          · exact hnil k
          cases separator with
          | none => exact ih (tokens.size - k) (by omega) k zs rfl hsize hreach
          | some x =>
            have hx : x ∈ item :: (some x).toList := List.mem_cons_of_mem _ List.mem_cons_self
            refine (hends x hx k ⟨_, hreach⟩).append fun k' hk' => ?_
            have hle : k ≤ k' := Reaches.le_place hk'
            exact ih (tokens.size - k') (by omega) k' zs rfl (Reaches.place_le hk' hsize)
              (hreach.trans (hk'.append (.rule tail :: zs)))
  refine .intro _ fun c hstep => ?_
  cases hstep with
  | choose hp =>
    have hreach : Reaches g tokens ⟨[.rule name], place⟩ _ := .single (.choose hp)
    rw [h.ofName, List.mem_pair] at hp
    rcases hp with rfl | rfl
    · exact hnil place
    · exact htail _ place [] rfl hplace hreach

/-- A rule that one list clause describes matches the items laid end to end, as far as the search
for items and separators comes to an end and no reducer fails. There is one match for each choice of
matches for the items and the separators; its value is the list of the values of the items. The
matches are sorted by the choices, so that each list comes before all that go on behind it. -/
theorem matchesAt_list {entry : String} {clauses : List (Clause V)}
    (hg : ofClauses entry clauses = .ok g)
    (hname : (clauses.filter (·.name = name)).map Clause.list? = [some (item, separator)])
    (hhidden : ∀ c ∈ clauses, c.name ∉ Clause.hiddenNames clauses)
    (hitem : ¬g.Vanishes item)
    (hphrase : ∀ vs : List V, Phrase.toList (Phrase.ofList vs : V) = .ok vs)
    (hplace : place ≤ tokens.size)
    (hends : ∀ x ∈ item :: separator.toList, ∀ mid, Meets g tokens ⟨[.rule name], place⟩ x mid →
      Ends g tokens ⟨[x], mid⟩)
    (hreduces : Reduces g tokens ⟨[.rule name], place⟩) :
    ∃ results lists, g.matchesAt tokens (.rule name) place = .ok results ∧
      (∀ ns, ns ∈ lists ↔ ∃ vs stop, Laid g tokens item separator place ns vs stop) ∧
      lists.Pairwise (fun ns ns' => ns < ns' ∧ ¬ns' <+: ns) ∧
      List.Forall₂ (fun ns r => ∃ vs, Laid g tokens item separator place ns vs r.2 ∧
        r.1 = Phrase.ofList vs) lists results := by
  have hclosed := closed_of_ofClauses hg
  obtain ⟨tail, rest, hlists⟩ : ∃ tail rest, g.Lists name tail rest item separator := by
    obtain rfl := eq_of_ofClauses hg
    exact Clause.exists_lists_of_notMem hhidden hname
  have hknown : g.alternatives name ≠ [] := by
    rw [hlists.ofName]
    exact List.cons_ne_nil _ _
  obtain ⟨found, hfound⟩ := exists_sequence hclosed (hlists.ends hitem hplace hends) hreduces hplace
    (by simpa using hknown)
  obtain ⟨f, hf, -⟩ := exists_of_sequence_singleton hfound
  obtain ⟨lists, hsorted, hmem, hresults⟩ := hlists.listed hphrase le_rfl hf
  refine ⟨f.results, lists, matchesAt_of_le le_rfl hf, fun ns => ?_, hsorted.imp ?_, hresults⟩
  · rw [hmem]
    constructor
    · rintro ⟨v, stop, vs, hvs, -⟩
      exact ⟨vs, stop, hvs⟩
    · rintro ⟨vs, stop, hvs⟩
      exact ⟨_, stop, vs, hvs, rfl⟩
  · intro ns ns' hlt
    refine ⟨hlt, fun hfront => ?_⟩
    exact absurd hlt (List.not_lt.2 hfront.le)

namespace Sample

/-- Items of one token or of two, with a comma or nothing between them. -/
def wordsClauses : List (Clause CatalogPhrase) :=
  [.separated "s" (.rule "i") (.rule "c"),
    .rule "i" [.terminal "x"] fun _ => .ok (.token (.text "short")),
    .rule "i" [.terminal "x", .terminal "x"] fun _ => .ok (.token (.text "long")),
    .rule "c" [] fun _ => .ok (.token .none),
    .rule "c" [.terminal ","] Reducers.first]

/-- The grammar of the clauses. -/
def words : Grammar CatalogPhrase :=
  ⟨"s", Clause.allProductions 0 wordsClauses⟩

lemma ranked_words : words.Ranked ["s", "%2", "c"] fun name =>
    if name ∈ ["i", "c"] then 0 else if name = "%1" then 1 else 2 := by
  decide

end Sample

/-- Two tokens have four lists: none of them, the first one, both one by one, and both as one item. -/
theorem matchesAt_list_sample : ∃ lists : List (List Nat), lists.length = 4 ∧
    (∀ ns, ns ∈ lists ↔ ∃ vs stop,
      Laid Sample.words Sample.pair.toArray (.rule "i") (some (.rule "c")) 0 ns vs stop) ∧
    lists.Pairwise (fun ns ns' => ns < ns' ∧ ¬ns' <+: ns) ∧
    Sample.words.matchesAt Sample.pair.toArray (.rule "s") 0 =
      .ok [(.list [], 0), (.list [.token (.text "short")], 1),
        (.list [.token (.text "short"), .token (.text "short")], 2),
        (.list [.token (.text "long")], 2)] := by
  have hends : ∀ {x mid}, Meets Sample.words Sample.pair.toArray ⟨[.rule "s"], 0⟩ x mid →
      Ends Sample.words Sample.pair.toArray ⟨[x], mid⟩ := by
    rintro x mid ⟨rest, hreach⟩
    exact ends_of_wellFounded Sample.ranked_words.wellFounded (Reaches.place_le hreach (Nat.zero_le _))
  have hitem : ¬Sample.words.Vanishes (.rule "i") := fun h =>
    absurd (Sample.ranked_words.isAmong_of_vanishes h) (by decide)
  obtain ⟨found, hfound⟩ : ∃ found, matchSequence Sample.pair.toArray
      (Sample.words.expand Sample.pair.toArray 12) [.rule "s"] 0 = .ok found :=
    ⟨_, rfl⟩
  obtain ⟨results, lists, hresults, hmem, hsorted, hvalues⟩ := matchesAt_list
    (show ofClauses "s" Sample.wordsClauses = .ok Sample.words from rfl) rfl
    (by decide) hitem (fun _ => rfl) (Nat.zero_le _) (fun x _ mid => hends)
    (Reduces.of_sequence hfound)
  have hall : Sample.words.matchesAt Sample.pair.toArray (.rule "s") 0 =
      .ok [(.list [], 0), (.list [.token (.text "short")], 1),
        (.list [.token (.text "short"), .token (.text "short")], 2),
        (.list [.token (.text "long")], 2)] := rfl
  obtain rfl := Except.ok.inj (hresults.symm.trans hall)
  exact ⟨lists, hvalues.length_eq, hmem, hsorted, hall⟩

end TriggerScript.Grammar
