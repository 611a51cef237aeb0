import TriggerScript.Proofs.Grammar.Clauses
import TriggerScript.Proofs.Reading

/-!
# Checked grammars know their rules

A grammar is checked once, when it is made of its clauses. The check refuses a grammar exactly if a
rule is mentioned that has no alternative, and it names such a rule (`ofClauses_ok_iff`,
`exists_of_ofClauses_error`). The rules that list clauses need inside are never missing, since the
clause gives them their alternatives (`exists_production_iff`). What the check establishes is kept
along every expansion. So the search for parses meets only rules that have alternatives, and no
parse fails for an unknown rule (`checked_grammars_know_their_rules`).
-/

namespace TriggerScript.Grammar

variable {V : Type} {g : Grammar V} {name : String}

/-! ## The check -/

lemma mem_mentioned_iff : name ∈ g.mentioned ↔
    name = g.entry ∨ ∃ p ∈ g.productions, .rule name ∈ p.symbols := by
  rw [mentioned, List.mem_cons]
  refine or_congr_right ?_
  constructor
  · intro hname
    obtain ⟨p, hp, hname⟩ := List.mem_flatMap.1 hname
    obtain ⟨s, hs, hname⟩ := List.mem_filterMap.1 hname
    cases s with
    | terminal => cases hname
    | rule =>
      obtain rfl := Option.some.inj hname
      exact ⟨p, hp, hs⟩
  · rintro ⟨p, hp, hs⟩
    exact List.mem_flatMap.2 ⟨p, hp, List.mem_filterMap.2 ⟨_, hs, rfl⟩⟩

lemma alternatives_eq_nil_iff : g.alternatives name = [] ↔ ¬∃ p ∈ g.productions, p.name = name := by
  simp [alternatives]

lemma closed_iff : g.Closed ↔ g.alternatives g.entry ≠ [] ∧
    ∀ p ∈ g.productions, ∀ name, .rule name ∈ p.symbols → g.alternatives name ≠ [] := by
  constructor
  · intro hg
    have hentry : g.alternatives g.entry ≠ [] := hg _ (mem_mentioned_iff.2 (.inl rfl))
    exact ⟨hentry, fun p hp name hname => hg.alternatives_ne_nil hp hname⟩
  · rintro ⟨hentry, hproductions⟩ name hname
    rcases mem_mentioned_iff.1 hname with rfl | ⟨p, hp, hname⟩
    · exact hentry
    · exact hproductions p hp name hname

section Clauses

variable [Phrase V] {entry : String} {clauses : List (Clause V)}

/-- The check fails because of a rule that is mentioned and has no alternative. -/
lemma exists_of_ofClauses_error {e : Error} (h : ofClauses entry clauses = .error e) :
    ∃ name ∈ mentioned ⟨entry, Clause.allProductions 0 clauses⟩,
      alternatives ⟨entry, Clause.allProductions 0 clauses⟩ name = [] ∧ e = .unknownRule name := by
  unfold ofClauses check at h
  split at h
  · rename_i name hfind
    have hundefined := List.find?_some hfind
    refine ⟨name, List.mem_of_find?_eq_some hfind, ?_, (Except.error.inj h).symm⟩
    simpa [defines, alternatives] using hundefined
  · cases h

/-- The check succeeds exactly if every rule that is mentioned has an alternative. -/
lemma ofClauses_ok_iff :
    ofClauses entry clauses = .ok g ↔ g = ⟨entry, Clause.allProductions 0 clauses⟩ ∧ g.Closed := by
  constructor
  · intro h
    exact ⟨eq_of_ofClauses h, closed_of_ofClauses h⟩
  · rintro ⟨rfl, hg⟩
    cases h : ofClauses entry clauses with
    | error e =>
      obtain ⟨name, hname, hnil, -⟩ := exists_of_ofClauses_error h
      exact absurd hnil (hg name hname)
    | ok g => rw [eq_of_ofClauses h]

end Clauses

/-! ## Rules that have alternatives -/

namespace Clause

variable [Phrase V] {c : Clause V} {clauses : List (Clause V)} {used : Nat}

/-- A clause gives alternatives to the rule that it describes and to the rules that it needs inside. -/
lemma exists_production (h : c.name = name ∨ ∃ n, used < n ∧ n ≤ used + c.hidden ∧ name = hiddenName n) :
    ∃ p ∈ c.productions used, p.name = name := by
  cases hc : c.list? with
  | none =>
    have hplain : c.hidden = 0 ∧ ∃ p ∈ c.productions used, p.name = c.name := by
      cases c with
      | rule => exact ⟨rfl, _, List.mem_cons_self, rfl⟩
      | same => exact ⟨rfl, _, List.mem_cons_self, rfl⟩
      | many => cases hc
      | separated => cases hc
    rcases h with rfl | ⟨n, hlt, hle, -⟩
    · exact hplain.2
    · omega
  | some list =>
    obtain ⟨item, separator⟩ := list
    rw [productions_of_list hc]
    rw [hidden_of_list hc] at h
    rcases h with rfl | ⟨n, hlt, hle, rfl⟩
    · exact ⟨_, List.mem_cons_self, rfl⟩
    · have hn : n = used + 1 ∨ n = used + 2 := by omega
      rcases hn with rfl | rfl
      · exact ⟨_, .tail _ (.tail _ (.head _)), rfl⟩
      · exact ⟨_, .tail _ (.tail _ (.tail _ (.head _))), rfl⟩

/-- The rules that have alternatives are those that a clause describes and those that are needed
inside. -/
lemma exists_production_iff : (∃ p ∈ allProductions used clauses, p.name = name) ↔
    name ∈ clauses.map Clause.name ∨
      ∃ n, used < n ∧ n ≤ used + allHidden clauses ∧ name = hiddenName n := by
  constructor
  · rintro ⟨p, hp, rfl⟩
    rcases name_of_mem_allProductions hp with ⟨c, hc, hname⟩ | hhidden
    · exact .inl (List.mem_map.2 ⟨c, hc, hname.symm⟩)
    · exact .inr hhidden
  · intro h
    induction clauses generalizing used with
    | nil =>
      rcases h with h | ⟨n, hlt, hle, -⟩
      · cases h
      · have hnone : allHidden ([] : List (Clause V)) = 0 := rfl
        omega
    | cons c rest ih =>
      have hhidden : allHidden (c :: rest) = c.hidden + allHidden rest := by simp [allHidden]
      -- the rule is one of this clause, or one of those behind it
      have hcases : (c.name = name ∨ ∃ n, used < n ∧ n ≤ used + c.hidden ∧ name = hiddenName n) ∨
          (name ∈ rest.map Clause.name ∨ ∃ n, used + c.hidden < n ∧
            n ≤ used + c.hidden + allHidden rest ∧ name = hiddenName n) := by
        rcases h with h | ⟨n, hlt, hle, hname⟩
        · rcases List.mem_cons.1 h with h | h
          · exact .inl (.inl h.symm)
          · exact .inr (.inl h)
        · by_cases hn : n ≤ used + c.hidden
          · exact .inl (.inr ⟨n, hlt, hn, hname⟩)
          · exact .inr (.inr ⟨n, by omega, by omega, hname⟩)
      rcases hcases with h | h
      · obtain ⟨p, hp, hname⟩ := exists_production h
        exact ⟨p, List.mem_append_left _ hp, hname⟩
      · obtain ⟨p, hp, hname⟩ := ih h
        exact ⟨p, List.mem_append_right _ hp, hname⟩

omit [Phrase V] in
lemma mem_hiddenNames_iff :
    name ∈ hiddenNames clauses ↔ ∃ n, 0 < n ∧ n ≤ 0 + allHidden clauses ∧ name = hiddenName n := by
  rw [hiddenNames, List.mem_map]
  constructor
  · rintro ⟨n, hn, rfl⟩
    obtain ⟨hpos, hlt⟩ := List.mem_range'_1.1 hn
    exact ⟨n, hpos, by omega, rfl⟩
  · rintro ⟨n, hpos, hle, rfl⟩
    exact ⟨n, List.mem_range'_1.2 ⟨hpos, by omega⟩, rfl⟩

end Clause

/-! ## Parses -/

section Parses

variable [Phrase V]

/-- The search for a whole stream never meets an unknown rule, whatever its budget. -/
lemma Closed.whole_ne_unknownRule (hg : g.Closed) (tokens : Array Token) (budget : Nat) :
    matchSequence tokens (g.expand tokens budget) g.whole 0 ≠ .error (.unknownRule name) := by
  intro h
  rcases exists_meets_of_sequence_error h with ⟨rule, he⟩ | ⟨rule, mid, hmeets, hrule⟩
  · cases he
  · rcases hrule with ⟨hnil, -⟩ | ⟨message, he, -⟩
    · exact hg.known_of_meets hg.known_of_mem_whole hmeets hnil
    · cases he

/-- Parsing fails for an unexpected token or with what the search has failed with. -/
lemma Closed.parseAll_ne_unknownRule (hg : g.Closed) (tokens : List Token) (length : Nat) :
    g.parseAll tokens length ≠ .error (.grammar (.unknownRule name)) := by
  cases hsearch : matchSequence (stream tokens length)
      (g.expand (stream tokens length) (g.budget (stream tokens length).size)) g.whole 0 with
  | error e =>
    rw [parseAll_of_error hsearch]
    rintro ⟨⟩
    exact hg.whole_ne_unknownRule _ _ hsearch
  | ok found =>
    rcases parseAll_cases hsearch with ⟨v, others, h⟩ | ⟨e, h⟩
    · exact h ▸ nofun
    · exact h ▸ nofun

/-- Taking the first value adds no such failure, as there always is a first value. -/
lemma Closed.read_ne_unknownRule (hg : g.Closed) (tokens : List Token) (length : Nat) :
    (g.read tokens length).start.1 ≠ .error (.grammar (.unknownRule name)) := by
  rw [start_read]
  cases h : g.parseAll tokens length with
  | error e =>
    intro heq
    cases e with
    | unexpected => cases heq
    | grammar e =>
      cases heq
      exact hg.parseAll_ne_unknownRule tokens length h
  | ok values =>
    cases values with
    | nil => exact absurd rfl (ne_nil_of_parseAll h)
    | cons v others => exact nofun

end Parses

/-- Only the check finds rules that are missing. A list of clauses is a grammar exactly if the entry and
every rule that is mentioned in an alternative have an alternative. If it is not, a rule is named that is
mentioned and has none; no clause describes it, and it is not one that a list clause needs inside. And if
it is, no parse of any token list fails for an unknown rule, nor does the search with any budget. -/
theorem checked_grammars_know_their_rules [Phrase V] (entry : String) (clauses : List (Clause V)) :
    let written : Grammar V := ⟨entry, Clause.allProductions 0 clauses⟩
    ((∃ g, ofClauses entry clauses = .ok g) ↔ written.alternatives entry ≠ [] ∧
      ∀ p ∈ written.productions, ∀ name, .rule name ∈ p.symbols → written.alternatives name ≠ []) ∧
    (∀ e, ofClauses entry clauses = .error e → ∃ name, e = .unknownRule name ∧
      written.alternatives name = [] ∧
      (name = entry ∨ ∃ p ∈ written.productions, .rule name ∈ p.symbols) ∧
      name ∉ clauses.map Clause.name ∧ name ∉ Clause.hiddenNames clauses) ∧
    ∀ g, ofClauses entry clauses = .ok g → ∀ tokens length name,
      g.parseAll tokens length ≠ .error (.grammar (.unknownRule name)) ∧
      (g.read tokens length).start.1 ≠ .error (.grammar (.unknownRule name)) ∧
      ∀ budget, matchSequence (stream tokens length) (g.expand (stream tokens length) budget)
        g.whole 0 ≠ .error (.unknownRule name) := by
  intro written
  refine ⟨?_, ?_, ?_⟩
  · have hclosed : written.Closed ↔ written.alternatives entry ≠ [] ∧ ∀ p ∈ written.productions,
        ∀ name, .rule name ∈ p.symbols → written.alternatives name ≠ [] := closed_iff
    rw [← hclosed]
    constructor
    · rintro ⟨g, h⟩
      obtain ⟨rfl, hg⟩ := ofClauses_ok_iff.1 h
      exact hg
    · intro hg
      exact ⟨written, ofClauses_ok_iff.2 ⟨rfl, hg⟩⟩
  · intro e h
    obtain ⟨name, hmentioned, hnil, rfl⟩ := exists_of_ofClauses_error h
    have hmissing := alternatives_eq_nil_iff.1 hnil
    rw [Clause.exists_production_iff, ← Clause.mem_hiddenNames_iff, not_or] at hmissing
    exact ⟨name, rfl, hnil, mem_mentioned_iff.1 hmentioned, hmissing⟩
  · intro g h tokens length name
    have hg : g.Closed := closed_of_ofClauses h
    exact ⟨hg.parseAll_ne_unknownRule tokens length, hg.read_ne_unknownRule tokens length,
      hg.whole_ne_unknownRule _⟩

/-- A list of tokens. -/
def tokenList : List (Clause CatalogPhrase) :=
  [.many "s" (.terminal "x")]

/-- A list of rules that no clause describes. -/
def unknownList : List (Clause CatalogPhrase) :=
  [.many "s" (.rule "x")]

/-- The list of tokens is a grammar, and no parse fails for an unknown rule. The other list is
refused, and the rule that is named is neither the list nor one inside. -/
theorem checked_grammars_know_their_rules_sample :
    (∃ g, ofClauses "s" tokenList = .ok g ∧ ∀ tokens length name,
      g.parseAll tokens length ≠ .error (.grammar (.unknownRule name))) ∧
    ∃ name, ofClauses "s" unknownList = .error (.unknownRule name) ∧ name ∉ ["s", "%1", "%2"] := by
  obtain ⟨-, -, hparses⟩ := checked_grammars_know_their_rules "s" tokenList
  obtain ⟨-, hmissing, -⟩ := checked_grammars_know_their_rules "s" unknownList
  have hlist : ofClauses "s" tokenList = .ok ⟨"s", Clause.allProductions 0 tokenList⟩ := rfl
  have hunknown : ofClauses "s" unknownList = .error (.unknownRule "x") := rfl
  constructor
  · exact ⟨_, hlist, fun tokens length name => (hparses _ hlist tokens length name).1⟩
  · obtain ⟨name, hname, -, -, hdescribed, hinside⟩ := hmissing _ hunknown
    refine ⟨name, hname ▸ hunknown, ?_⟩
    rw [List.mem_cons, not_or]
    exact ⟨fun h => hdescribed (h ▸ List.mem_cons_self), hinside⟩

end TriggerScript.Grammar
