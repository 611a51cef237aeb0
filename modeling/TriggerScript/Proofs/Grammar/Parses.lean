import TriggerScript.Catalog.Grammar
import TriggerScript.Proofs.Grammar.Termination

/-!
# The parses of a token stream

A parse of a token list is a derivation of the entry of the grammar between the two marks that reaches
from one end of the stream to the other. If there is no endless expansion and everything met can be
reduced, `parseAll` has one value for each parse, in the order of their choices, and it complains about
a token exactly if there is no parse (`parseAll_lists_parses`).
-/

namespace TriggerScript.Grammar

variable {V : Type}

/-- What a whole stream has to match. -/
def whole (g : Grammar V) : List Symbol :=
  [.terminal Token.beginName, .rule g.entry, .terminal Token.endName]

/-- The stream of a token list; `length` is the number of bytes of the source. -/
def stream (tokens : List Token) (length : Nat) : Array Token :=
  (Token.enclose tokens length).toArray

/-- The derivation reaches from one end of the stream to the other. -/
def IsParse (g : Grammar V) (tokens : Array Token) (d : Derivation) : Prop :=
  Derives g tokens g.whole 0 d tokens.size

lemma Closed.known_of_mem_whole {g : Grammar V} (hg : g.Closed) (name : String)
    (hname : .rule name ∈ g.whole) : g.alternatives name ≠ [] := by
  have hentry : name = g.entry := by simpa [whole] using hname
  exact hg name (hentry ▸ List.mem_cons_self)

variable [Phrase V] {g : Grammar V} {tokens : List Token} {length : Nat}

lemma Derives.length_values {tokens : Array Token} {symbols : List Symbol} {place stop : Nat}
    {d : Derivation} (h : Derives g tokens symbols place d stop) {vs : List V}
    (hvs : d.values g = .ok vs) : vs.length = symbols.length := by
  induction h generalizing vs with
  | done =>
    obtain rfl := Except.ok.inj hvs
    rfl
  | token htoken hname _ ih =>
    obtain ⟨us, hus, hvs⟩ := except_bind_ok_iff.1 hvs
    obtain rfl := Except.ok.inj hvs
    exact congrArg (· + 1) (ih hus)
  | rule hp _ _ _ ih =>
    obtain ⟨parts, -, hvs⟩ := except_bind_ok_iff.1 hvs
    obtain ⟨v, -, hvs⟩ := except_bind_ok_iff.1 hvs
    obtain ⟨us, hus, hvs⟩ := except_bind_ok_iff.1 hvs
    obtain rfl := Except.ok.inj hvs
    exact congrArg (· + 1) (ih hus)

/-- The search for the whole stream succeeds. -/
lemma exists_whole (hg : g.Closed) {tokens : Array Token} (hends : Ends g tokens ⟨g.whole, 0⟩)
    (hreduces : Reduces g tokens ⟨g.whole, 0⟩) :
    ∃ found, matchSequence tokens (g.expand tokens (g.budget tokens.size)) g.whole 0 =
      .ok found := by
  exact exists_sequence hg hends hreduces (Nat.zero_le _) hg.known_of_mem_whole

/-- The values of the matches that reach the end of the stream. -/
def wholeValues (size : Nat) (results : List (List V × Nat)) : List V :=
  results.filterMap fun (values, stop) => if stop = size then values[1]? else none

/-- What `parseAll` makes of what the search has found. -/
lemma parseAll_eq {found : Found (List V)}
    (h : matchSequence (stream tokens length)
      (g.expand (stream tokens length) (g.budget (stream tokens length).size)) g.whole 0 =
        .ok found) :
    g.parseAll tokens length =
      if (wholeValues (stream tokens length).size found.results).isEmpty then
        .error (.unexpected (found.furthest.unexpected (stream tokens length)))
      else .ok (wholeValues (stream tokens length).size found.results) := by
  unfold stream whole at h
  simp only [parseAll, h]
  rfl

/-- If the search fails, the grammar is at fault. -/
lemma parseAll_of_error {e : Error}
    (h : matchSequence (stream tokens length)
      (g.expand (stream tokens length) (g.budget (stream tokens length).size)) g.whole 0 =
        .error e) :
    g.parseAll tokens length = .error (.grammar e) := by
  unfold stream whole at h
  simp only [parseAll, h]

/-- If `parseAll` has values, the search has succeeded and found them. -/
lemma exists_found_of_parseAll {values : List V} (h : g.parseAll tokens length = .ok values) :
    ∃ found, matchSequence (stream tokens length)
      (g.expand (stream tokens length) (g.budget (stream tokens length).size)) g.whole 0 =
        .ok found ∧ wholeValues (stream tokens length).size found.results = values := by
  cases hfound : matchSequence (stream tokens length)
      (g.expand (stream tokens length) (g.budget (stream tokens length).size)) g.whole 0 with
  | error e =>
    rw [parseAll_of_error hfound] at h
    cases h
  | ok found =>
    refine ⟨found, rfl, ?_⟩
    rw [parseAll_eq hfound] at h
    split_ifs at h
    exact Except.ok.inj h

lemma ne_nil_of_parseAll {values : List V} (h : g.parseAll tokens length = .ok values) :
    values ≠ [] := by
  obtain ⟨found, hfound, rfl⟩ := exists_found_of_parseAll h
  rintro hnil
  rw [parseAll_eq hfound, hnil] at h
  cases h

/-- If the search succeeds, the grammar is not at fault: there are values, or a token is complained
about. -/
lemma parseAll_cases {found : Found (List V)}
    (h : matchSequence (stream tokens length)
      (g.expand (stream tokens length) (g.budget (stream tokens length).size)) g.whole 0 =
        .ok found) :
    (∃ v others, g.parseAll tokens length = .ok (v :: others)) ∨
      ∃ e, g.parseAll tokens length = .error (.unexpected e) := by
  rw [parseAll_eq h]
  cases wholeValues (stream tokens length).size found.results with
  | nil => exact .inr ⟨_, rfl⟩
  | cons v others => exact .inl ⟨v, others, rfl⟩

/-- The parses, sorted, and the values that belong to them. -/
lemma exists_parses {tokens : Array Token} {budget : Nat} {found : Found (List V)}
    (h : matchSequence tokens (g.expand tokens budget) g.whole 0 = .ok found) :
    ∃ parses : List Derivation, (∀ d, d ∈ parses ↔ IsParse g tokens d) ∧
      parses.Pairwise (fun d e => d.choices < e.choices) ∧
      List.Forall₂ (fun d v => ∃ b e, d.values g = .ok [b, v, e]) parses
        (wholeValues tokens.size found.results) := by
  obtain ⟨items, hitems⟩ := enumerates_sequence h
  refine ⟨items.filterMap fun i => if i.2 = tokens.size then some i.1 else none, ?_, ?_, ?_⟩
  · intro d
    rw [List.mem_filterMap, IsParse]
    constructor
    · rintro ⟨⟨e, stop⟩, hmem, he⟩
      obtain ⟨rfl, rfl⟩ : stop = tokens.size ∧ e = d := by simpa using he
      exact hitems.mem_iff.1 hmem
    · intro hd
      exact ⟨(d, tokens.size), hitems.mem_iff.2 hd, by simp⟩
  · refine List.pairwise_filterMap.2 (hitems.sorted.imp ?_)
    rintro i j hlt d hd e he
    obtain ⟨-, rfl⟩ : i.2 = tokens.size ∧ i.1 = d := by simpa using hd
    obtain ⟨-, rfl⟩ : j.2 = tokens.size ∧ j.1 = e := by simpa using he
    exact hlt
  · have hvalues := (List.forall₂_and_left _ _).2
      ⟨fun i hi => hitems.mem_iff.1 (show (i.1, i.2) ∈ items from hi), hitems.values⟩
    refine List.rel_filterMap ?_ hvalues
    rintro ⟨d, stop⟩ ⟨vs, _⟩ ⟨hd, hvs, rfl⟩
    -- each match has three values, and the second one is that of the entry
    obtain ⟨b, v, e, rfl⟩ := List.length_eq_three.1 (hd.length_values hvs)
    by_cases hstop : stop = tokens.size
    · simpa [hstop] using ⟨b, e, hvs⟩
    · simp [hstop]

/-- No value is found exactly if there is no parse. -/
lemma isEmpty_wholeValues_iff {tokens : Array Token} {budget : Nat} {found : Found (List V)}
    (h : matchSequence tokens (g.expand tokens budget) g.whole 0 = .ok found) :
    (wholeValues tokens.size found.results).isEmpty ↔ ¬∃ d, IsParse g tokens d := by
  obtain ⟨parses, hmem, -, hvalues⟩ := exists_parses h
  rw [List.isEmpty_iff, ← List.length_eq_zero_iff, ← hvalues.length_eq, List.length_eq_zero_iff,
    List.eq_nil_iff_forall_not_mem]
  simp only [hmem, not_exists]

/-- If the search succeeds and there is a parse, there are values. -/
lemma exists_cons_of_isParse {found : Found (List V)}
    (h : matchSequence (stream tokens length)
      (g.expand (stream tokens length) (g.budget (stream tokens length).size)) g.whole 0 =
        .ok found)
    (hparse : ∃ d, IsParse g (stream tokens length) d) :
    ∃ v others, g.parseAll tokens length = .ok (v :: others) := by
  have hempty : ¬(wholeValues (stream tokens length).size found.results).isEmpty := fun hempty =>
    (isEmpty_wholeValues_iff h).1 hempty hparse
  rw [parseAll_eq h, if_neg hempty]
  obtain ⟨v, others, heq⟩ := List.exists_cons_of_ne_nil (mt List.isEmpty_iff.2 hempty)
  exact ⟨v, others, by rw [heq]⟩

/-- For a checked grammar and a token list without endless expansions and failing reducers: there is a
value for each parse, namely what the parse reduces to from the bottom up, in the order of the choices
of alternatives from the left to the right; a token is complained about exactly if there is no parse. -/
theorem parseAll_lists_parses {entry : String} {clauses : List (Clause V)}
    (hg : ofClauses entry clauses = .ok g)
    (hends : Ends g (stream tokens length) ⟨g.whole, 0⟩)
    (hreduces : Reduces g (stream tokens length) ⟨g.whole, 0⟩) :
    ∃ parses : List Derivation, (∀ d, d ∈ parses ↔ IsParse g (stream tokens length) d) ∧
      parses.Pairwise (fun d e => d.choices < e.choices) ∧
      (parses ≠ [] → ∃ values, g.parseAll tokens length = .ok values ∧
        List.Forall₂ (fun d v => ∃ b e, d.values g = .ok [b, v, e]) parses values) ∧
      ((∃ e, g.parseAll tokens length = .error (.unexpected e)) ↔
        ¬∃ d, IsParse g (stream tokens length) d) := by
  obtain ⟨found, hfound⟩ := exists_whole (closed_of_ofClauses hg) hends hreduces
  obtain ⟨parses, hmem, hsorted, hvalues⟩ := exists_parses hfound
  have hempty := isEmpty_wholeValues_iff hfound
  rw [parseAll_eq hfound]
  refine ⟨parses, hmem, hsorted, fun hne => ?_, ?_⟩
  · obtain ⟨d, hd⟩ := List.exists_mem_of_ne_nil _ hne
    rw [if_neg fun h => hempty.1 h ⟨d, (hmem d).1 hd⟩]
    exact ⟨_, rfl, hvalues⟩
  · rw [← hempty]
    constructor
    · rintro ⟨e, he⟩
      by_contra h
      rw [if_neg h] at he
      cases he
    · intro h
      rw [if_pos h]
      exact ⟨_, rfl⟩

namespace Sample

/-- Two tokens, which are a pair for the entry itself and for the rule it leads to. -/
def ambiguousClauses : List (Clause CatalogPhrase) :=
  [.rule "s" [.terminal "x", .terminal "x"] fun _ => .ok (.token (.text "flat")),
    .rule "s" [.rule "p"] Reducers.first,
    .rule "p" [.terminal "x", .terminal "x"] fun _ => .ok (.token (.text "nested"))]

/-- The grammar of the clauses. -/
def ambiguous : Grammar CatalogPhrase :=
  ⟨"s", Clause.allProductions 0 ambiguousClauses⟩

/-- Two tokens behind each other. -/
def pair : List Token :=
  [⟨"x", "x", .none, 0⟩, ⟨"x", "x", .none, 2⟩]

end Sample

/-- The pair has two parses: the entry takes both tokens by its first alternative, and by its second
one through the other rule. -/
theorem parseAll_lists_parses_sample : ∃ flat nested : Derivation,
    (∀ d, IsParse Sample.ambiguous (stream Sample.pair 4) d ↔ d = flat ∨ d = nested) ∧
      flat.choices < nested.choices ∧
      Sample.ambiguous.parseAll Sample.pair 4 =
        .ok [.token (.text "flat"), .token (.text "nested")] := by
  obtain ⟨found, hfound⟩ : ∃ found, matchSequence (stream Sample.pair 4)
      (Sample.ambiguous.expand (stream Sample.pair 4) 13) Sample.ambiguous.whole 0 = .ok found :=
    ⟨_, rfl⟩
  obtain ⟨parses, hmem, hsorted, hvalues, hnone⟩ := parseAll_lists_parses
    (show ofClauses "s" Sample.ambiguousClauses = .ok Sample.ambiguous from rfl)
    (Ends.of_sequence hfound) (Reduces.of_sequence hfound)
  have hall : Sample.ambiguous.parseAll Sample.pair 4 =
      .ok [.token (.text "flat"), .token (.text "nested")] := rfl
  have hne : parses ≠ [] := by
    rintro rfl
    obtain ⟨e, he⟩ := hnone.2 fun ⟨d, hd⟩ => List.not_mem_nil ((hmem d).2 hd)
    cases he.symm.trans hall
  obtain ⟨values, hresult, hforall⟩ := hvalues hne
  obtain rfl := Except.ok.inj (hall.symm.trans hresult)
  obtain ⟨flat, nested, rfl⟩ := List.length_eq_two.1 hforall.length_eq
  refine ⟨flat, nested, fun d => ?_, ?_, hall⟩
  · rw [← hmem, List.mem_pair]
  · simpa using hsorted

end TriggerScript.Grammar
