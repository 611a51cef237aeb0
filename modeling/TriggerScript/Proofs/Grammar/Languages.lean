import Mathlib.Computability.Language
import Mathlib.Order.BourbakiWitt
import Mathlib.Order.CompletePartialOrder
import TriggerScript.Proofs.Grammar.Clauses
import TriggerScript.Proofs.Grammar.Parses

/-!
# The languages of a grammar

For each symbol of a grammar and each set of values there is a language: the token lists that are
derived from the symbol and get a value from the set. The languages of rules satisfy the equations that
the productions say (`language_rule`, `Production.language_eq`), so that a grammar can be compared with
a description of its language that does not mention derivations. The value of a list is derived from the
items one after the other (`language_list`).

The values that `parseAll` finds for a token list are those in whose language it is
(`exists_mem_parseAll_iff`).
-/

namespace TriggerScript.Grammar

variable {V : Type} [Phrase V]

/-- The tokens are derived from the symbols, and the symbols have these values. -/
inductive Yields (g : Grammar V) : List Symbol → List Token → List V → Prop
  | nil : Yields g [] [] []
  | terminal {t symbols ts vs} (hrest : Yields g symbols ts vs) :
      Yields g (.terminal t.name :: symbols) (t :: ts) (Phrase.ofToken t :: vs)
  | rule {name p symbols inner ts parts v vs} (hp : p ∈ g.alternatives name)
      (hinner : Yields g p.symbols inner parts) (hv : p.reduce parts = .ok v)
      (hrest : Yields g symbols ts vs) :
      Yields g (.rule name :: symbols) (inner ++ ts) (v :: vs)

variable {g : Grammar V} {tokens : Array Token} {x : Symbol} {symbols : List Symbol} {ts : List Token}
  {v : V} {vs : List V} {d : Derivation} {place stop : Nat}

/-! ## Derivations in a stream -/

omit [Phrase V] in
lemma drop_eq_cons {token : Token} (h : tokens[place]? = some token) :
    tokens.toList.drop place = token :: tokens.toList.drop (place + 1) := by
  obtain ⟨hlt, rfl⟩ := Array.getElem?_eq_some_iff.1 h
  rw [List.drop_eq_getElem_cons (by simpa using hlt), Array.getElem_toList]

/-- What is derived at a place of a stream is what stands there. -/
lemma Derives.yields (h : Derives g tokens symbols place d stop) (hvs : d.values g = .ok vs) :
    ∃ ts, tokens.toList.drop place = ts ++ tokens.toList.drop stop ∧ Yields g symbols ts vs := by
  induction h generalizing vs with
  | done =>
    obtain rfl := Except.ok.inj hvs
    exact ⟨[], rfl, .nil⟩
  | token htoken hname _ ih =>
    obtain ⟨us, hus, hvs⟩ := except_bind_ok_iff.1 hvs
    obtain rfl := Except.ok.inj hvs
    obtain ⟨ts, hts, hyields⟩ := ih hus
    subst hname
    exact ⟨_ :: ts, by rw [drop_eq_cons htoken, hts, List.cons_append], .terminal hyields⟩
  | rule hp _ _ ihinner ihrest =>
    obtain ⟨parts, hparts, hvs⟩ := except_bind_ok_iff.1 hvs
    obtain ⟨v, hv, hvs⟩ := except_bind_ok_iff.1 hvs
    obtain ⟨us, hus, hvs⟩ := except_bind_ok_iff.1 hvs
    obtain rfl := Except.ok.inj hvs
    obtain ⟨inner, hinner, hyields⟩ := ihinner hparts
    obtain ⟨ts, hts, hyields'⟩ := ihrest hus
    rw [reduce, hp] at hv
    refine ⟨inner ++ ts, by rw [hinner, hts, List.append_assoc], ?_⟩
    exact .rule (List.mem_of_getElem? hp) hyields hv hyields'

/-- What stands at a place of a stream is derived there. -/
lemma Yields.derives (h : Yields g symbols ts vs) (hts : ts <+: tokens.toList.drop place) :
    ∃ d, Derives g tokens symbols place d (place + ts.length) ∧ d.values g = .ok vs := by
  induction h generalizing place with
  | nil => exact ⟨.done, .done, rfl⟩
  | @terminal t symbols ts vs _ ih =>
    have htoken : tokens[place]? = some t := by
      obtain ⟨rest, hrest⟩ := hts
      rw [← Array.getElem?_toList, ← List.head?_drop, ← hrest]
      rfl
    rw [drop_eq_cons htoken, List.cons_prefix_cons] at hts
    obtain ⟨d, hd, hvalues⟩ := ih hts.2
    refine ⟨.token t d, .token htoken rfl ?_, ?_⟩
    · rwa [List.length_cons, Nat.add_comm ts.length, ← Nat.add_assoc]
    · rw [Derivation.values, hvalues]
      rfl
  | @rule name p symbols inner ts parts v vs hp _ hv _ ihinner ihrest =>
    obtain ⟨rest, hrest⟩ := hts
    have hfront : inner <+: tokens.toList.drop place :=
      ⟨ts ++ rest, by rw [← hrest, List.append_assoc]⟩
    have hback : ts <+: tokens.toList.drop (place + inner.length) :=
      ⟨rest, by rw [← List.drop_drop, ← hrest, List.append_assoc, List.drop_left]⟩
    obtain ⟨e, he, hparts⟩ := ihinner hfront
    obtain ⟨d, hd, hvalues⟩ := ihrest hback
    obtain ⟨choice, hchoice⟩ := List.mem_iff_getElem?.1 hp
    refine ⟨.rule name choice e d, .rule hchoice he ?_, ?_⟩
    · rwa [List.length_append, ← Nat.add_assoc]
    · simp only [Derivation.values, hparts, reduce, hchoice, hv, hvalues, bind, Except.bind, pure,
        Except.pure]

/-! ## Languages -/

/-- The token lists that are derived from the symbol and have a value from the set. -/
def language (g : Grammar V) (x : Symbol) (values : Set V) : Language Token :=
  {ts | ∃ v ∈ values, Yields g [x] ts [v]}

/-- The token lists that are derived from the symbols one after the other and have values from the
sets. -/
def sequence (g : Grammar V) : List Symbol → List (Set V) → Language Token
  | [], [] => 1
  | x :: symbols, values :: others => g.language x values * g.sequence symbols others
  | _, _ => 0

/-- The token lists of which the alternative makes the value. -/
def Production.language (g : Grammar V) (p : Production V) (v : V) : Language Token :=
  {ts | ∃ parts, p.reduce parts = .ok v ∧ Yields g p.symbols ts parts}

lemma mem_language_singleton : ts ∈ g.language x {v} ↔ Yields g [x] ts [v] := by
  constructor
  · rintro ⟨_, rfl, h⟩
    exact h
  · intro h
    exact ⟨v, rfl, h⟩

lemma Yields.length_eq (h : Yields g symbols ts vs) : vs.length = symbols.length := by
  induction h with
  | nil => rfl
  | terminal _ ih => exact congrArg (· + 1) ih
  | rule _ _ _ _ _ ih => exact congrArg (· + 1) ih

lemma yields_nil_iff : Yields g [] ts vs ↔ ts = [] ∧ vs = [] := by
  constructor
  · intro h
    cases h
    exact ⟨rfl, rfl⟩
  · rintro ⟨rfl, rfl⟩
    exact .nil

lemma yields_cons_iff : Yields g (x :: symbols) ts (v :: vs) ↔
    ∃ front back, Yields g [x] front [v] ∧ Yields g symbols back vs ∧ front ++ back = ts := by
  constructor
  · intro h
    cases h with
    | @terminal t _ ts _ hrest => exact ⟨[t], ts, .terminal .nil, hrest, rfl⟩
    | @rule _ _ _ inner ts _ _ _ hp hinner hv hrest =>
      refine ⟨inner, ts, ?_, hrest, rfl⟩
      rw [← List.append_nil inner]
      exact .rule hp hinner hv .nil
  · rintro ⟨front, back, hfront, hback, rfl⟩
    cases hfront with
    | terminal hnil =>
      obtain ⟨rfl, -⟩ := yields_nil_iff.1 hnil
      exact .terminal hback
    | rule hp hinner hv hnil =>
      obtain ⟨rfl, -⟩ := yields_nil_iff.1 hnil
      rw [List.append_nil]
      exact .rule hp hinner hv hback

lemma mem_sequence_iff {sets : List (Set V)} : ts ∈ g.sequence symbols sets ↔
    ∃ parts, List.Forall₂ (· ∈ ·) parts sets ∧ Yields g symbols ts parts := by
  induction symbols generalizing sets ts with
  | nil =>
    cases sets with
    | nil => simp [sequence, yields_nil_iff]
    | cons values others => simp [sequence, yields_nil_iff]
  | cons x symbols ih =>
    cases sets with
    | nil =>
      refine iff_of_false (Language.notMem_zero _) ?_
      rintro ⟨parts, hparts, h⟩
      cases hparts
      cases h
    | cons values others =>
      rw [sequence, Language.mem_mul]
      constructor
      · rintro ⟨front, ⟨v, hv, hfront⟩, back, hback, rfl⟩
        obtain ⟨parts, hparts, hback⟩ := ih.1 hback
        exact ⟨v :: parts, .cons hv hparts, yields_cons_iff.2 ⟨front, back, hfront, hback, rfl⟩⟩
      · rintro ⟨_, hparts, h⟩
        cases hparts with
        | cons hv hparts =>
          obtain ⟨front, back, hfront, hback, rfl⟩ := yields_cons_iff.1 h
          exact ⟨front, ⟨_, hv, hfront⟩, back, ih.2 ⟨_, hparts, hback⟩, rfl⟩

/-- Whatever values the symbols have, they have the property. -/
@[simp]
def ForallParts : List Symbol → (List V → Prop) → Prop
  | [], P => P []
  | _ :: symbols, P => ∀ v, ForallParts symbols fun parts => P (v :: parts)

omit [Phrase V] in
lemma ForallParts.of_length {P : List V → Prop} (h : ForallParts symbols P) {parts : List V}
    (hlength : parts.length = symbols.length) : P parts := by
  induction symbols generalizing P parts with
  | nil =>
    obtain rfl := List.length_eq_zero_iff.1 hlength
    exact h
  | cons x symbols ih =>
    obtain ⟨v, parts, rfl⟩ := List.exists_cons_of_length_eq_add_one hlength
    exact ih (h v) (Nat.succ.inj hlength)

/-- The empty token list, if the condition holds. -/
def given (condition : Prop) : Language Token :=
  {ts | condition ∧ ts = []}

lemma mem_given_mul {condition : Prop} {l : Language Token} :
    ts ∈ given condition * l ↔ condition ∧ ts ∈ l := by
  rw [Language.mem_mul]
  constructor
  · rintro ⟨_, ⟨h, rfl⟩, back, hback, rfl⟩
    exact ⟨h, hback⟩
  · rintro ⟨h, hts⟩
    exact ⟨[], ⟨h, rfl⟩, ts, hts, rfl⟩

lemma given_of {condition : Prop} (h : condition) : given condition = 1 := by
  ext ts
  rw [← mul_one (given condition), mem_given_mul]
  exact and_iff_right h

lemma given_of_not {condition : Prop} (h : ¬condition) : given condition = 0 := by
  ext ts
  rw [← mul_one (given condition), mem_given_mul]
  exact iff_of_false (fun hts => h hts.1) (Language.notMem_zero _)

namespace Production

variable {p : Production V}

/-- The language of an alternative, if it is known on which condition and in which cases parts have the
value. -/
lemma language_eq_iSup (condition : Prop) {ι : Type} (sets : ι → List (Set V))
    (h : ForallParts p.symbols fun parts =>
      p.reduce parts = .ok v ↔ (∃ i, List.Forall₂ (· ∈ ·) parts (sets i)) ∧ condition) :
    p.language g v = given condition * ⨆ i, g.sequence p.symbols (sets i) := by
  ext ts
  rw [mem_given_mul, Language.mem_iSup]
  constructor
  · rintro ⟨parts, hreduce, hparts⟩
    obtain ⟨⟨i, hi⟩, hcondition⟩ := (h.of_length hparts.length_eq).1 hreduce
    exact ⟨hcondition, i, mem_sequence_iff.2 ⟨parts, hi, hparts⟩⟩
  · rintro ⟨hcondition, i, hi⟩
    obtain ⟨parts, hi, hparts⟩ := mem_sequence_iff.1 hi
    exact ⟨parts, (h.of_length hparts.length_eq).2 ⟨⟨i, hi⟩, hcondition⟩, hparts⟩

/-- The language of an alternative, if it is known on which condition which parts have the value. -/
lemma language_eq (condition : Prop) (sets : List (Set V))
    (h : ForallParts p.symbols fun parts =>
      p.reduce parts = .ok v ↔ List.Forall₂ (· ∈ ·) parts sets ∧ condition) :
    p.language g v = given condition * g.sequence p.symbols sets := by
  rw [language_eq_iSup condition (fun _ : Unit => sets) (by simpa only [exists_const] using h)]
  exact congrArg (given condition * ·) iSup_const

/-- The alternative does not make the value of any parts. -/
def Never (p : Production V) (v : V) : Prop :=
  ForallParts p.symbols fun parts => p.reduce parts ≠ .ok v

lemma language_of_never (h : p.Never v) : p.language g v = 0 := by
  ext ts
  refine iff_of_false ?_ (Language.notMem_zero _)
  rintro ⟨parts, hreduce, hparts⟩
  exact h.of_length hparts.length_eq hreduce

end Production

/-- The language of a rule is the sum of those of its alternatives. -/
lemma language_rule (name : String) :
    g.language (.rule name) {v} = ((g.alternatives name).map (·.language g v)).sum := by
  have hsum : ∀ (ts : List Token) (languages : List (Language Token)),
      ts ∈ languages.sum ↔ ∃ l ∈ languages, ts ∈ l := by
    intro ts languages
    induction languages with
    | nil => simp
    | cons l languages ih => simp [Language.mem_add, ih]
  ext ts
  rw [mem_language_singleton, hsum]
  simp only [List.mem_map, exists_exists_and_eq_and]
  constructor
  · intro h
    cases h with
    | rule hp hinner hv hnil =>
      obtain ⟨rfl, -⟩ := yields_nil_iff.1 hnil
      rw [List.append_nil]
      exact ⟨_, hp, _, hv, hinner⟩
  · rintro ⟨p, hp, parts, hv, hinner⟩
    rw [← List.append_nil ts]
    exact .rule hp hinner hv .nil

lemma sum_language_of_never {ps : List (Production V)} (h : ∀ p ∈ ps, p.Never v) :
    (ps.map (·.language g v)).sum = 0 := by
  refine List.sum_eq_zero fun l hl => ?_
  obtain ⟨p, hp, rfl⟩ := List.mem_map.1 hl
  exact Production.language_of_never (h p hp)

lemma language_rule_of_never {name : String} (h : ∀ p ∈ g.alternatives name, p.Never v) :
    g.language (.rule name) {v} = 0 := by
  rw [language_rule, sum_language_of_never h]

lemma language_rule_of_pair {name : String} {p q : Production V} (hname : g.alternatives name = [p, q]) :
    g.language (.rule name) {v} = p.language g v + q.language g v := by
  rw [language_rule, hname]
  simp

/-- The language of a value that only one alternative makes. -/
lemma language_rule_of_only {name : String} (before : List (Production V))
    {after : List (Production V)} {p : Production V}
    (hname : g.alternatives name = before ++ p :: after)
    (hothers : ∀ q ∈ before ++ after, q.Never v) :
    g.language (.rule name) {v} = p.language g v := by
  obtain ⟨hbefore, hafter⟩ := List.forall_mem_append.1 hothers
  rw [language_rule, hname, List.map_append, List.sum_append, List.map_cons, List.sum_cons,
    sum_language_of_never hbefore, sum_language_of_never hafter, zero_add, add_zero]

/-- The same, if it is known on which condition which parts have the value. -/
lemma language_rule_eq {name : String} (before : List (Production V)) {after : List (Production V)}
    {p : Production V} (hname : g.alternatives name = before ++ p :: after) (condition : Prop)
    (sets : List (Set V)) (hothers : ∀ q ∈ before ++ after, q.Never v)
    (h : ForallParts p.symbols fun parts =>
      p.reduce parts = .ok v ↔ List.Forall₂ (· ∈ ·) parts sets ∧ condition) :
    g.language (.rule name) {v} = given condition * g.sequence p.symbols sets := by
  rw [language_rule_of_only before hname hothers, Production.language_eq condition sets h]

/-- A terminal stands for one token of its name. -/
lemma mem_language_terminal {name : String} {values : Set V} :
    ts ∈ g.language (.terminal name) values ↔
      ∃ t : Token, ts = [t] ∧ t.name = name ∧ Phrase.ofToken t ∈ values := by
  constructor
  · rintro ⟨v, hv, h⟩
    cases h with
    | @terminal t _ _ _ hnil =>
      obtain ⟨rfl, -⟩ := yields_nil_iff.1 hnil
      exact ⟨t, rfl, rfl, hv⟩
  · rintro ⟨t, rfl, rfl, hv⟩
    exact ⟨_, hv, .terminal .nil⟩

/-! ## Lists -/

/-- Items with something between each two of them. -/
def separated (between : Language Token) : List (Language Token) → Language Token
  | [] => 1
  | item :: others => item * (others.map (between * ·)).prod

@[simp]
lemma separated_one (items : List (Language Token)) : separated 1 items = items.prod := by
  cases items with
  | nil => rfl
  | cons item others => simp [separated]

/-- What stands between the items of a list. -/
def between (g : Grammar V) : Option Symbol → Language Token
  | none => 1
  | some separator => g.language separator Set.univ

/-- A value that is a list can be taken apart in one way. -/
class LawfulPhrase (V : Type) [Phrase V] : Prop where
  toList_eq_ok_iff {v : V} {vs : List V} : Phrase.toList v = .ok vs ↔ v = Phrase.ofList vs

lemma ofList_inj [LawfulPhrase V] {us vs : List V} :
    (Phrase.ofList us : V) = Phrase.ofList vs ↔ us = vs := by
  constructor
  · intro h
    have hus : Phrase.toList (Phrase.ofList us : V) = .ok us := LawfulPhrase.toList_eq_ok_iff.2 rfl
    have hvs : Phrase.toList (Phrase.ofList us : V) = .ok vs := LawfulPhrase.toList_eq_ok_iff.2 h
    exact Except.ok.inj (hus.symm.trans hvs)
  · rintro rfl
    rfl

/-- An alternative that hands a value on. -/
@[simp]
lemma language_first (name : String) :
    Production.language g ⟨name, [x], Reducers.first⟩ v = g.language x {v} := by
  rw [Production.language_eq True [{v}] (by simp [Reducers.first])]
  simp [sequence, given_of]

/-- An alternative that hands the second value on. -/
@[simp]
lemma language_second (name : String) {y : Symbol} :
    Production.language g ⟨name, [x, y], Reducers.second⟩ v =
      g.language x Set.univ * g.language y {v} := by
  rw [Production.language_eq True [Set.univ, {v}] (by simp [Reducers.second])]
  simp [sequence, given_of]

@[simp]
lemma language_emptyList [LawfulPhrase V] (name : String) :
    Production.language g ⟨name, [], Reducers.emptyList⟩ (Phrase.ofList vs) = given (vs = []) := by
  rw [Production.language_eq (vs = []) [] (by simp [Reducers.emptyList, ofList_inj, eq_comm])]
  simp [sequence]

namespace Tails

variable [LawfulPhrase V] {tail rest : String} {item : Symbol} {separator : Option Symbol}

lemma language_tail_nil (h : g.Tails tail rest item separator) :
    g.language (.rule tail) {Phrase.ofList []} = 0 := by
  have hcons : Production.language g ⟨tail, [item, .rule rest], Reducers.cons⟩ (Phrase.ofList []) =
      given False * g.sequence [item, .rule rest] [] :=
    Production.language_eq False [] (by simp [Reducers.cons, except_map_ok_iff, ofList_inj])
  rw [language_rule, h.ofTail]
  simp [hcons, given_of_not]

lemma language_tail_cons (h : g.Tails tail rest item separator) :
    g.language (.rule tail) {Phrase.ofList (v :: vs)} =
      g.language item {v} * g.language (.rule rest) {Phrase.ofList vs} := by
  have hcons : Production.language g ⟨tail, [item, .rule rest], Reducers.cons⟩
      (Phrase.ofList (v :: vs)) =
      given True * g.sequence [item, .rule rest] [{v}, {Phrase.ofList vs}] :=
    Production.language_eq True _ (by
      simp [Reducers.cons, except_map_ok_iff, ofList_inj, LawfulPhrase.toList_eq_ok_iff, and_comm])
  rw [language_rule, h.ofTail]
  simp [hcons, given_of, sequence]

/-- Behind an item, each of the others has in front of it what stands between two items. -/
lemma language_rest (h : g.Tails tail rest item separator) (vs : List V) :
    g.language (.rule rest) {Phrase.ofList vs} =
      (vs.map fun v => g.between separator * g.language item {v}).prod := by
  have hrest : ∀ vs : List V, g.language (.rule rest) {Phrase.ofList vs} =
      given (vs = []) + g.between separator * g.language (.rule tail) {Phrase.ofList vs} := by
    intro vs
    rw [language_rule, h.ofRest]
    cases separator <;> simp [between]
  induction vs with
  | nil => simp [hrest, h.language_tail_nil, given_of]
  | cons v vs ih =>
    rw [hrest, h.language_tail_cons, ih]
    simp [given_of_not, mul_assoc]

end Tails

/-- The language of a list: that of its items, one after the other. -/
theorem language_list [LawfulPhrase V] {name tail rest : String} {item : Symbol}
    {separator : Option Symbol} (h : g.Lists name tail rest item separator) (vs : List V) :
    g.language (.rule name) {Phrase.ofList vs} =
      separated (g.between separator) (vs.map fun v => g.language item {v}) := by
  rw [language_rule, h.ofName]
  cases vs with
  | nil => simp [h.language_tail_nil, given_of, separated]
  | cons v vs =>
    simp [h.language_tail_cons, h.language_rest, given_of_not, separated, Function.comp_def]

/-! ## What is found -/

section Found

variable {tokens : List Token} {length : Nat}

lemma exists_isParse_iff : (∃ d, IsParse g (stream tokens length) d ∧ d.values g = .ok vs) ↔
    Yields g g.whole (Token.enclose tokens length) vs := by
  constructor
  · rintro ⟨d, hd, hvs⟩
    obtain ⟨ts, hts, hyields⟩ := Derives.yields hd hvs
    obtain rfl : Token.enclose tokens length = ts := by simpa [stream] using hts
    exact hyields
  · intro h
    have hstart : Token.enclose tokens length <+: (stream tokens length).toList.drop 0 :=
      List.prefix_refl _
    obtain ⟨d, hd, hvs⟩ := h.derives hstart
    rw [Nat.zero_add] at hd
    exact ⟨d, hd, hvs⟩

/-- Between two tokens that stand at the ends of an enclosed token list is that list. -/
lemma eq_of_enclose {a b : String} {front inner back : List Token} {u w : V}
    (hfront : Yields g [.terminal a] front [u]) (hback : Yields g [.terminal b] back [w])
    (h : front ++ (inner ++ back) = Token.enclose tokens length) : inner = tokens := by
  obtain ⟨t, rfl, -⟩ := mem_language_terminal.1 (mem_language_singleton.2 hfront)
  obtain ⟨t', rfl, -⟩ := mem_language_terminal.1 (mem_language_singleton.2 hback)
  have htokens : inner ++ [t'] = tokens ++ [Token.mark Token.endName length] := (List.cons.inj h).2
  exact (List.append_inj' htokens rfl).1

/-- The marks at both ends are matched by the marks. -/
lemma exists_yields_whole_iff (length : Nat) :
    (∃ b e, Yields g g.whole (Token.enclose tokens length) [b, v, e]) ↔
      Yields g [.rule g.entry] tokens [v] := by
  constructor
  · rintro ⟨b, e, h⟩
    obtain ⟨front, rest, hfront, hrest, heq⟩ := yields_cons_iff.1 h
    obtain ⟨inner, back, hinner, hback, rfl⟩ := yields_cons_iff.1 hrest
    exact eq_of_enclose hfront hback heq ▸ hinner
  · intro h
    have hmark : ∀ t : Token, Yields g [.terminal t.name] [t] [Phrase.ofToken t] := fun t =>
      .terminal .nil
    have hrest := yields_cons_iff.2 ⟨tokens, _, h, hmark (.mark Token.endName length), rfl⟩
    exact ⟨_, _, yields_cons_iff.2 ⟨_, _, hmark (.mark Token.beginName 0), hrest, rfl⟩⟩

/-- The values found for a token list are those in whose language it is. -/
theorem exists_mem_parseAll_iff (hg : g.Closed) (hends : Ends g (stream tokens length) ⟨g.whole, 0⟩)
    (hreduces : Reduces g (stream tokens length) ⟨g.whole, 0⟩) :
    (∃ values, g.parseAll tokens length = .ok values ∧ v ∈ values) ↔
      tokens ∈ g.language (.rule g.entry) {v} := by
  obtain ⟨found, hfound⟩ := exists_whole hg hends hreduces
  obtain ⟨parses, hmem, -, hvalues⟩ := exists_parses hfound
  rw [mem_language_singleton, ← exists_yields_whole_iff length, parseAll_eq hfound]
  simp only [← exists_isParse_iff]
  constructor
  · rintro ⟨values, hok, hv⟩
    split_ifs at hok
    obtain rfl := Except.ok.inj hok
    obtain ⟨d, hd, b, e, hde⟩ := exists_of_mem_left hvalues.flip hv
    exact ⟨b, e, d, (hmem d).1 hd, hde⟩
  · rintro ⟨b, e, d, hd, hde⟩
    obtain ⟨v', hv', b', e', hde'⟩ := exists_of_mem_left hvalues ((hmem d).2 hd)
    obtain ⟨-, rfl, -⟩ : b = b' ∧ v = v' ∧ e = e' := by simpa using hde.symm.trans hde'
    rw [if_neg (by simpa using List.ne_nil_of_mem hv')]
    exact ⟨_, rfl, hv'⟩

end Found

end TriggerScript.Grammar
