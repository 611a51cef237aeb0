import TriggerScript.Proofs.Grammar.Parses
import TriggerScript.Proofs.Sorted

/-!
# The token that an error reports

A search refuses a token where an expansion has matched all tokens before it and needs a token of
another name. What the search keeps of its refusals are those at the furthest place
(`records_sequence`), whatever became of the expansions that led there.

If neither the rules nor the tokens use the name of the mark at the end, the furthest refusal tells how
far the stream can be matched at all: up to that token an expansion exists, beyond it there is none, and
the names that are expected are all that some expansion needs there (`parseAll_reports_furthest`).
-/

namespace TriggerScript

namespace Grammar

/-! ## Records of refusals -/

namespace Furthest

variable {f f' : Furthest} {R S : Nat → String → Prop}

/-- The record of the refusals `R`, each of a place and a name: it has the furthest place and all names
refused there. -/
structure Records (f : Furthest) (R : Nat → String → Prop) : Prop where
  sorted : f.expected.Pairwise (· < ·)
  mem_iff : ∀ t, t ∈ f.expected ↔ ∃ k, f.index = some k ∧ R k t
  ne_nil : ∀ k, f.index = some k → f.expected ≠ []
  le : ∀ j t, R j t → ∃ k, f.index = some k ∧ j ≤ k

lemma Records.of_iff (h : f.Records R) (hRS : ∀ k t, R k t ↔ S k t) : f.Records S := by
  obtain rfl : R = S := by
    ext k t
    exact hRS k t
  exact h

lemma records_nowhere (h : ∀ k t, ¬R k t) : nowhere.Records R where
  sorted := .nil
  mem_iff t := by simp [nowhere]
  ne_nil k hk := nomatch hk
  le j t hR := absurd hR (h j t)

lemma records_refused {k : Nat} {t : String} :
    (refused k t).Records fun j u => j = k ∧ u = t where
  sorted := List.pairwise_singleton ..
  mem_iff u := by simp [refused]
  ne_nil _ _ := List.cons_ne_nil _ _
  le j u h := ⟨k, rfl, h.1.le⟩

/-- A record stays one if nothing is added at its place or beyond. -/
lemma Records.or_left (hf : f.Records R) {k : Nat} (hk : f.index = some k)
    (hS : ∀ j t, S j t → j < k) : f.Records fun k t => R k t ∨ S k t where
  sorted := hf.sorted
  mem_iff t := by
    rw [hf.mem_iff]
    constructor
    · rintro ⟨k', hk', hR⟩
      exact ⟨k', hk', .inl hR⟩
    · rintro ⟨k', hk', hR | hS'⟩
      · exact ⟨k', hk', hR⟩
      · obtain rfl := Option.some.inj (hk.symm.trans hk')
        exact absurd (hS k t hS') (Nat.lt_irrefl k)
  ne_nil := hf.ne_nil
  le j t := by
    rintro (hR | hS')
    · exact hf.le j t hR
    · exact ⟨k, hk, (hS j t hS').le⟩

/-- There is no refusal if none is recorded. -/
lemma Records.not_of_none (hf : f.Records R) (hnone : f.index = none) (k : Nat) (t : String) :
    ¬R k t := by
  intro hR
  obtain ⟨_, hk, -⟩ := hf.le k t hR
  cases hnone.symm.trans hk

/-- All refusals are at the place of the record or before it. -/
lemma Records.le_of_some (hf : f.Records R) {k j : Nat} {t : String} (hk : f.index = some k)
    (hR : R j t) : j ≤ k := by
  obtain ⟨_, hk', hle⟩ := hf.le j t hR
  obtain rfl := Option.some.inj (hk.symm.trans hk')
  exact hle

/-- Of two records the one that is further on counts, and both do if they are at the same place. -/
lemma Records.merge (hf : f.Records R) (hf' : f'.Records S) :
    (f.merge f').Records fun k t => R k t ∨ S k t := by
  rw [Furthest.merge]
  split
  · rename_i hnone
    exact hf.of_iff fun k t => ⟨.inl, fun h => h.resolve_right (hf'.not_of_none hnone k t)⟩
  · rename_i j hnone hj
    exact hf'.of_iff fun k t => ⟨.inr, fun h => h.resolve_left (hf.not_of_none hnone k t)⟩
  · rename_i i j hi hj
    split_ifs with hij hji
    · refine (hf'.or_left hj fun k t hR => ?_).of_iff fun k t => Or.comm
      exact (hf.le_of_some hi hR).trans_lt hij
    · exact hf.or_left hi fun k t hS => (hf'.le_of_some hj hS).trans_lt hji
    · obtain rfl : i = j := by omega
      refine ⟨Text.sorted_foldl_insertSorted hf.sorted, fun t => ?_, fun k hk => ?_, fun k t h => ?_⟩
      · simp only [Text.mem_foldl_insertSorted, hf.mem_iff, hf'.mem_iff, hi, hj]
        simp
      · obtain ⟨t, ht⟩ := List.exists_mem_of_ne_nil _ (hf.ne_nil i hi)
        exact List.ne_nil_of_mem (Text.mem_foldl_insertSorted.2 (.inl ht))
      · rcases h with hR | hS
        · exact ⟨i, rfl, hf.le_of_some hi hR⟩
        · exact ⟨i, rfl, hf'.le_of_some hj hS⟩

/-- The token that stands at the place of a record. -/
lemma unexpected_eq {tokens : Array Token} {k : Nat} {token : Token} (hk : f.index = some k)
    (htoken : tokens[k]? = some token) :
    f.unexpected tokens = ⟨token.offset, token.name, token.raw, f.expected⟩ := by
  obtain ⟨hlt, -⟩ := Array.getElem?_eq_some_iff.1 htoken
  have hmin : min k (tokens.size - 1) = k := by omega
  simp only [unexpected, hk, Option.getD_some, hmin, htoken]

end Furthest

variable {V : Type} [Phrase V] {g : Grammar V} {tokens : Array Token} {symbols rest : List Symbol}
  {place budget k : Nat} {t : String} {c c' : Config}

/-- The record of several searches has the refusals of all of them. -/
lemma records_foldl {α ι : Type} {R : Nat → String → Prop} {S : ι → Nat → String → Prop}
    {is : List ι} {founds : List (Found α)}
    (h : List.Forall₂ (fun i f => f.furthest.Records (S i)) is founds) {furthest : Furthest}
    (hfurthest : furthest.Records R) :
    (founds.foldl (fun furthest f => furthest.merge f.furthest) furthest).Records
      fun k t => R k t ∨ ∃ i ∈ is, S i k t := by
  induction h generalizing furthest R with
  | nil => exact hfurthest.of_iff (by simp)
  | cons hf _ ih =>
    refine (ih (hfurthest.merge hf)).of_iff fun k t => ?_
    simp only [List.mem_cons, exists_eq_or_imp, or_assoc]

/-! ## What the search records -/

/-- An expansion from the configuration on has matched all tokens in front of a place and needs a token
of this name there, but the one that stands there has another name. -/
def Refuses (g : Grammar V) (tokens : Array Token) (c : Config) (k : Nat) (t : String) : Prop :=
  Meets g tokens c (.terminal t) k ∧ ∃ token, tokens[k]? = some token ∧ token.name ≠ t

omit [Phrase V] in
lemma refuses_cons_iff {s : Symbol} : Refuses g tokens ⟨s :: symbols, place⟩ k t ↔
    Refuses g tokens ⟨[s], place⟩ k t ∨
      ∃ mid, Reaches g tokens ⟨[s], place⟩ ⟨[], mid⟩ ∧ Refuses g tokens ⟨symbols, mid⟩ k t := by
  constructor
  · rintro ⟨hmeets, htoken⟩
    rcases meets_cons_iff.1 hmeets with hmeets | ⟨mid, hmid, hmeets⟩
    · exact .inl ⟨hmeets, htoken⟩
    · exact .inr ⟨mid, hmid, hmeets, htoken⟩
  · rintro (⟨hmeets, htoken⟩ | ⟨mid, hmid, hmeets, htoken⟩)
    · exact ⟨meets_cons_iff.2 (.inl hmeets), htoken⟩
    · exact ⟨meets_cons_iff.2 (.inr ⟨mid, hmid, hmeets⟩), htoken⟩

/-- The matches that the search finds for a symbol end where an expansion of it can end. -/
lemma exists_result_iff {s : Symbol} {heads : Found V} {mid : Nat}
    (h : matchSymbol tokens (g.expand tokens budget) s place = .ok heads) :
    (∃ v, (v, mid) ∈ heads.results) ↔ Reaches g tokens ⟨[s], place⟩ ⟨[], mid⟩ := by
  obtain ⟨items, hitems⟩ := enumerates_symbol h
  rw [reaches_nil_iff]
  constructor
  · rintro ⟨v, hv⟩
    obtain ⟨d, hd, -⟩ := hitems.exists_of_mem_results hv
    exact ⟨d, hd⟩
  · rintro ⟨d, hd⟩
    obtain ⟨⟨v, _⟩, hv, -, rfl⟩ := exists_of_mem_left hitems.values (hitems.mem_iff.2 hd)
    exact ⟨v, hv⟩

lemma records_terminal {expand : String → Nat → Except Error (Found V)} {name : String}
    {found : Found V} (h : matchSymbol tokens expand (.terminal name) place = .ok found) :
    found.furthest.Records (Refuses g tokens ⟨[.terminal name], place⟩) := by
  have hrefuses : ∀ k t, Refuses g tokens ⟨[.terminal name], place⟩ k t ↔
      (k = place ∧ t = name) ∧ ∃ token, tokens[place]? = some token ∧ token.name ≠ name := by
    intro k t
    rw [Refuses, meets_terminal_iff, Symbol.terminal.injEq]
    constructor
    · rintro ⟨⟨rfl, rfl⟩, htoken⟩
      exact ⟨⟨rfl, rfl⟩, htoken⟩
    · rintro ⟨⟨rfl, rfl⟩, htoken⟩
      exact ⟨⟨rfl, rfl⟩, htoken⟩
  simp only [matchSymbol] at h
  split at h
  · rename_i hnone
    obtain rfl := Except.ok.inj h
    exact Furthest.records_nowhere fun k t => by simp [hrefuses, hnone]
  · rename_i token htoken
    split at h
    · rename_i hname
      obtain rfl := Except.ok.inj h
      exact Furthest.records_nowhere fun k t => by simp [hrefuses, htoken, hname]
    · rename_i hname
      obtain rfl := Except.ok.inj h
      refine Furthest.records_refused.of_iff fun k t => ?_
      rw [hrefuses]
      exact ⟨fun hkt => ⟨hkt, token, htoken, hname⟩, And.left⟩

/-- The search keeps the refusals at the furthest place at which there are any. -/
theorem records_sequence {found : Found (List V)}
    (h : matchSequence tokens (g.expand tokens budget) symbols place = .ok found) :
    found.furthest.Records (Refuses g tokens ⟨symbols, place⟩) := by
  induction budget using Nat.strong_induction_on generalizing symbols place found with
  | _ budget ihbudget =>
  induction symbols generalizing place found with
  | nil =>
    obtain rfl := Except.ok.inj h
    exact Furthest.records_nowhere fun k t hrefuses => not_meets_nil hrefuses.1
  | cons s symbols ih =>
    obtain ⟨heads, tails, hheads, htails, rfl⟩ := matchSequence_cons_ok_iff.1 h
    have hnowhere : Furthest.nowhere.Records fun _ _ => False :=
      Furthest.records_nowhere fun _ _ => id
    have hhead : heads.furthest.Records (Refuses g tokens ⟨[s], place⟩) := by
      cases s with
      | terminal name => exact records_terminal hheads
      | rule name =>
        cases budget with
        | zero => cases hheads
        | succ b =>
          obtain ⟨-, founds, hfounds, rfl⟩ := expand_ok_iff.1 hheads
          have hrecords : List.Forall₂ (fun p f => f.furthest.Records
              (Refuses g tokens ⟨Production.symbols p, place⟩)) (g.alternatives name) founds := by
            refine hfounds.imp fun p f hf => ?_
            obtain ⟨inner, results, hinner, -, rfl⟩ := matchProduction_ok_iff.1 hf
            exact ihbudget b (Nat.lt_succ_self b) hinner
          refine (records_foldl hrecords hnowhere).of_iff fun k t => ?_
          simp only [Refuses, meets_rule_iff, reduceCtorEq, false_and, false_or]
          tauto
    have htail : List.Forall₂ (fun head f => f.furthest.Records
        (Refuses g tokens ⟨symbols, Prod.snd head⟩)) heads.results tails := by
      refine htails.imp ?_
      rintro head _ ⟨f, hf, rfl⟩
      have hf : f.furthest.Records _ := ih hf
      exact hf
    refine (records_foldl htail (hnowhere.merge hhead)).of_iff fun k t => ?_
    refine Iff.trans ?_ refuses_cons_iff.symm
    simp only [false_or, ← exists_result_iff hheads, Prod.exists, ← exists_and_right]
    rw [exists_comm]

/-! ## How far a stream can be matched -/

omit [Phrase V] in
/-- Without endless expansions, every expansion leads to a configuration from which no step leads on. -/
lemma Ends.exists_stuck (h : Ends g tokens c) :
    ∃ c', Reaches g tokens c c' ∧ ∀ c'', ¬Step g tokens c' c'' := by
  induction h with
  | intro c _ ih =>
    by_cases hstep : ∃ c', Step g tokens c c'
    · obtain ⟨c', hstep⟩ := hstep
      obtain ⟨stuck, hreach, hstuck⟩ := ih c' hstep
      exact ⟨stuck, .head hstep hreach, hstuck⟩
    · exact ⟨c, .refl, fun c' hc' => hstep ⟨c', hc'⟩⟩

omit [Phrase V] in
/-- An expansion passes all places on its way. -/
lemma Reaches.exists_place (h : Reaches g tokens c c') (hc : c.place ≤ k) (hc' : k ≤ c'.place) :
    ∃ rest, Reaches g tokens c ⟨rest, k⟩ := by
  induction h with
  | refl =>
    obtain rfl : c.place = k := by omega
    exact ⟨c.remaining, .refl⟩
  | tail hreach hstep ih =>
    cases hstep with
    | @take name rest place token htoken hname =>
      rcases Nat.lt_or_ge place k with hlt | hle
      · obtain rfl : place + 1 = k := by
          have : k ≤ place + 1 := hc'
          omega
        exact ⟨rest, hreach.tail (.take htoken hname)⟩
      · exact ih hle
    | choose _ => exact ih hc'

section EndMark

variable {tokens : List Token} {length : Nat}

omit [Phrase V] in
/-- The last token of a stream, and only that one, has the name of the mark at the end. -/
lemma name_eq_endName_iff (htokens : ∀ token ∈ tokens, token.name ≠ Token.endName)
    {token : Token} (htoken : (stream tokens length)[k]? = some token) :
    token.name = Token.endName ↔ k + 1 = (stream tokens length).size := by
  have hsize : (stream tokens length).size = tokens.length + 2 := by simp [stream, Token.enclose]
  have hget : (Token.mark Token.beginName 0 :: (tokens ++ [Token.mark Token.endName length]))[k]? =
      some token := by simpa [stream, Token.enclose] using htoken
  cases k with
  | zero =>
    obtain rfl := Option.some.inj hget
    have hne : Token.beginName ≠ Token.endName := by decide
    exact ⟨fun hname => absurd hname hne, fun h => by omega⟩
  | succ k =>
    rw [List.getElem?_cons_succ] at hget
    rcases Nat.lt_or_ge k tokens.length with hlt | hle
    · rw [List.getElem?_append_left hlt] at hget
      exact ⟨fun hname => absurd hname (htokens token (List.mem_of_getElem? hget)),
        fun h => by omega⟩
    · rw [List.getElem?_append_right hle] at hget
      obtain ⟨hlt, hmark⟩ := List.getElem?_eq_some_iff.1 hget
      have hlt : k - tokens.length < 1 := hlt
      obtain rfl : Token.mark Token.endName length = token := by simpa using hmark
      exact ⟨fun _ => by omega, fun _ => rfl⟩

omit [Phrase V] in
/-- The mark at the end is matched last, and with it the last token of the stream. -/
lemma endName_of_reaches (hrules : ∀ p ∈ g.productions, .terminal Token.endName ∉ p.symbols)
    (htokens : ∀ token ∈ tokens, token.name ≠ Token.endName)
    (h : Reaches g (stream tokens length) ⟨g.whole, 0⟩ c) :
    (∃ xs, c.remaining = xs ++ [.terminal Token.endName] ∧ .terminal Token.endName ∉ xs ∧
        c.place < (stream tokens length).size) ∨
      (c.remaining = [] ∧ c.place = (stream tokens length).size) := by
  induction h with
  | refl =>
    refine .inl ⟨[.terminal Token.beginName, .rule g.entry], rfl, ?_, ?_⟩
    · have hne : Token.endName ≠ Token.beginName := by decide
      simp [hne]
    · simp [stream, Token.enclose]
  | tail _ hstep ih =>
    cases hstep with
    | @take name rest place token htoken hname =>
      rcases ih with ⟨xs, hxs, hnotin, hlt⟩ | ⟨hnil, -⟩
      · have hlast := name_eq_endName_iff htokens htoken
        cases xs with
        | nil =>
          -- the mark itself is taken
          obtain ⟨hmark, rfl⟩ := List.cons.inj hxs
          obtain rfl := Symbol.terminal.inj hmark
          exact .inr ⟨rfl, hlast.1 hname⟩
        | cons x xs =>
          obtain ⟨rfl, rfl⟩ := List.cons.inj hxs
          obtain ⟨hne, hnotin⟩ := List.ne_and_not_mem_of_not_mem_cons hnotin
          refine .inl ⟨xs, rfl, hnotin, ?_⟩
          have hnotlast : place + 1 ≠ (stream tokens length).size := by
            intro h
            exact hne (congrArg Symbol.terminal ((hlast.2 h).symm.trans hname))
          have hlt : place < (stream tokens length).size := hlt
          show place + 1 < _
          omega
      · cases hnil
    | choose hp =>
      rcases ih with ⟨xs, hxs, hnotin, hlt⟩ | ⟨hnil, -⟩
      · cases xs with
        | nil => cases hxs
        | cons x xs =>
          obtain ⟨rfl, rfl⟩ := List.cons.inj hxs
          refine .inl ⟨_ ++ xs, (List.append_assoc ..).symm, ?_, hlt⟩
          rw [List.mem_append, not_or]
          exact ⟨hrules _ (List.mem_filter.1 hp).1, fun h => hnotin (List.mem_cons_of_mem _ h)⟩
      · cases hnil

omit [Phrase V] in
/-- Without a parse, every expansion leads to a refusal at its place or further on. -/
lemma exists_refuses_of_reaches (hg : g.Closed)
    (hrules : ∀ p ∈ g.productions, .terminal Token.endName ∉ p.symbols)
    (htokens : ∀ token ∈ tokens, token.name ≠ Token.endName)
    (hends : Ends g (stream tokens length) ⟨g.whole, 0⟩)
    (hnone : ¬∃ d, IsParse g (stream tokens length) d)
    (h : Reaches g (stream tokens length) ⟨g.whole, 0⟩ c) :
    ∃ k t, c.place ≤ k ∧ Refuses g (stream tokens length) ⟨g.whole, 0⟩ k t := by
  obtain ⟨⟨remaining, k⟩, hstuck, hno⟩ := (hends.of_reaches h).exists_stuck
  have hreach := h.trans hstuck
  rcases endName_of_reaches hrules htokens hreach with ⟨xs, rfl, -, hlt⟩ | ⟨rfl, hk⟩
  · -- something remains, and the symbol in front can only be a terminal that is refused
    have hlt : k < (stream tokens length).size := hlt
    obtain ⟨x, rest, hx⟩ : ∃ x rest, xs ++ [.terminal Token.endName] = x :: rest :=
      List.exists_cons_of_ne_nil (by simp)
    rw [hx] at hreach hno
    cases x with
    | rule name =>
      obtain ⟨p, hp⟩ := List.exists_mem_of_ne_nil _
        (hg.known_of_meets hg.known_of_mem_whole ⟨rest, hreach⟩)
      exact absurd (.choose hp) (hno _)
    | terminal t =>
      refine ⟨k, t, hstuck.le_place, ⟨rest, hreach⟩, _, Array.getElem?_eq_getElem hlt, ?_⟩
      intro hname
      exact hno _ (.take (Array.getElem?_eq_getElem hlt) hname)
  · have hk : k = (stream tokens length).size := hk
    subst hk
    exact absurd (reaches_nil_iff.1 hreach) hnone

/-- The error of a stream without a parse. For a checked grammar and a token list without endless
expansions, failing reducers and uses of the mark at the end, it is about the first token up to which no
expansion matches the stream; its names are all those of which some expansion needs a token there. -/
theorem parseAll_reports_furthest {entry : String} {clauses : List (Clause V)}
    (hg : ofClauses entry clauses = .ok g)
    (hrules : ∀ p ∈ g.productions, .terminal Token.endName ∉ p.symbols)
    (htokens : ∀ token ∈ tokens, token.name ≠ Token.endName)
    (hends : Ends g (stream tokens length) ⟨g.whole, 0⟩)
    (hreduces : Reduces g (stream tokens length) ⟨g.whole, 0⟩)
    (hnone : ¬∃ d, IsParse g (stream tokens length) d) :
    ∃ k token expected, (stream tokens length)[k]? = some token ∧
      g.parseAll tokens length =
        .error (.unexpected ⟨token.offset, token.name, token.raw, expected⟩) ∧
      (∀ i < k, ∃ rest, Reaches g (stream tokens length) ⟨g.whole, 0⟩ ⟨rest, i + 1⟩) ∧
      (¬∃ rest, Reaches g (stream tokens length) ⟨g.whole, 0⟩ ⟨rest, k + 1⟩) ∧
      (∀ t, t ∈ expected ↔ Meets g (stream tokens length) ⟨g.whole, 0⟩ (.terminal t) k) ∧
      expected.Pairwise (· < ·) ∧ expected ≠ [] ∧ token.name ∉ expected := by
  have hclosed := closed_of_ofClauses hg
  have hrefuses : ∀ {c}, Reaches g (stream tokens length) ⟨g.whole, 0⟩ c →
      ∃ k t, c.place ≤ k ∧ Refuses g (stream tokens length) ⟨g.whole, 0⟩ k t :=
    exists_refuses_of_reaches hclosed hrules htokens hends hnone
  obtain ⟨found, hfound⟩ := exists_whole hclosed hends hreduces
  have hrecords := records_sequence hfound
  obtain ⟨j, u, -, hju⟩ := hrefuses .refl
  obtain ⟨k, hk, -⟩ := hrecords.le j u hju
  obtain ⟨t, ht⟩ := List.exists_mem_of_ne_nil _ (hrecords.ne_nil k hk)
  obtain ⟨_, hk', ⟨rest, hreach⟩, token, htoken, -⟩ := (hrecords.mem_iff t).1 ht
  obtain rfl := Option.some.inj (hk.symm.trans hk')
  -- an expansion that takes the token would lead to a refusal further on
  have hbeyond : ¬∃ rest, Reaches g (stream tokens length) ⟨g.whole, 0⟩ ⟨rest, k + 1⟩ := by
    rintro ⟨rest, hreach⟩
    obtain ⟨j, u, hj, hju⟩ := hrefuses hreach
    have hle := hrecords.le_of_some hk hju
    have hj : k + 1 ≤ j := hj
    omega
  have hmem : ∀ t, t ∈ found.furthest.expected ↔
      Meets g (stream tokens length) ⟨g.whole, 0⟩ (.terminal t) k := by
    intro t
    rw [hrecords.mem_iff]
    constructor
    · rintro ⟨_, hk', hmeets, -⟩
      obtain rfl := Option.some.inj (hk.symm.trans hk')
      exact hmeets
    · rintro ⟨rest, hrest⟩
      refine ⟨k, hk, ⟨rest, hrest⟩, token, htoken, fun hname => ?_⟩
      exact hbeyond ⟨rest, hrest.tail (.take htoken hname)⟩
  refine ⟨k, token, found.furthest.expected, htoken, ?_, ?_, hbeyond, hmem, hrecords.sorted,
    hrecords.ne_nil k hk, ?_⟩
  · rw [parseAll_eq hfound, if_pos ((isEmpty_wholeValues_iff hfound).2 hnone),
      Furthest.unexpected_eq hk htoken]
  · intro i hi
    exact hreach.exists_place (Nat.zero_le _) hi
  · intro hname
    obtain ⟨rest, hrest⟩ := (hmem _).1 hname
    exact hbeyond ⟨rest, hrest.tail (.take htoken rfl)⟩

end EndMark

namespace Sample

/-- One token, and behind it either of two others. -/
def forkedClauses : List (Clause CatalogPhrase) :=
  [.rule "s" [.terminal "a", .terminal "b"] fun _ => .ok (.token (.text "ab")),
    .rule "s" [.terminal "a", .terminal "c"] fun _ => .ok (.token (.text "ac"))]

/-- The grammar of the clauses. -/
def forked : Grammar CatalogPhrase :=
  ⟨"s", Clause.allProductions 0 forkedClauses⟩

/-- The second token is neither of the two. -/
def strayed : List Token :=
  [⟨"a", "a", .none, 0⟩, ⟨"d", "d", .none, 2⟩]

end Sample

/-- The stray token is reported, with the names of both tokens that some expansion needs there. -/
theorem parseAll_reports_furthest_sample :
    Sample.forked.parseAll Sample.strayed 4 = .error (.unexpected ⟨2, "d", "d", ["b", "c"]⟩) ∧
      (∀ t, t ∈ ["b", "c"] ↔
        Meets Sample.forked (stream Sample.strayed 4) ⟨Sample.forked.whole, 0⟩ (.terminal t) 2) ∧
      ¬∃ rest, Reaches Sample.forked (stream Sample.strayed 4) ⟨Sample.forked.whole, 0⟩
        ⟨rest, 3⟩ := by
  obtain ⟨found, hfound, hvalues⟩ : ∃ found, matchSequence (stream Sample.strayed 4)
      (Sample.forked.expand (stream Sample.strayed 4) 3) Sample.forked.whole 0 = .ok found ∧
        (wholeValues (stream Sample.strayed 4).size found.results).isEmpty :=
    ⟨_, rfl, rfl⟩
  have hall : Sample.forked.parseAll Sample.strayed 4 =
      .error (.unexpected ⟨2, "d", "d", ["b", "c"]⟩) := rfl
  obtain ⟨k, token, expected, htoken, hresult, -, hbeyond, hmem, -⟩ := parseAll_reports_furthest
    (show ofClauses "s" Sample.forkedClauses = .ok Sample.forked from rfl)
    (by decide) (by decide) (Ends.of_sequence hfound) (Reduces.of_sequence hfound)
    ((isEmpty_wholeValues_iff hfound).1 hvalues)
  have herror := Failure.unexpected.inj (Except.error.inj (hall.symm.trans hresult))
  have hexpected : ["b", "c"] = expected := congrArg Unexpected.expected herror
  have hoffset : (stream Sample.strayed 4)[k]?.map (·.offset) = some 2 := by
    rw [htoken]
    exact congrArg some (congrArg Unexpected.offset herror).symm
  have hk : k < 4 := (Array.getElem?_eq_some_iff.1 htoken).1
  have hplaces : ∀ k < 4, (stream Sample.strayed 4)[k]?.map (·.offset) = some 2 → k = 2 := by decide
  obtain rfl := hplaces k hk hoffset
  exact ⟨hall, fun t => hexpected ▸ hmem t, hbeyond⟩

end Grammar

end TriggerScript
