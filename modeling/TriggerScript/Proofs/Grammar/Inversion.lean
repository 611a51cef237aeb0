import TriggerScript.Proofs.Grammar.Clauses
import TriggerScript.Proofs.Grammar.Derivations

/-!
# Taking derivations apart

Whether some symbols can be derived is known from the names of the tokens, one symbol after the other
(`derivable_terminal_iff`, `derivable_rule_iff`). A list without separators is derived as its items are,
so its derivations are chains of derivations of items (`Tails.derives_iff`). Of two lists that begin at
the same place, one goes on where the other one ends, if there is only one way to derive an item
(`Chain.append_or`), and the shorter one is the smaller one (`choices_listDerivation_lt`).
-/

namespace TriggerScript.Grammar

variable {V : Type} {g : Grammar V} {tokens : Array Token} {xs ys : List Symbol} {d e : Derivation}
  {es es' : List Derivation} {place mid stop stop' : Nat} {name tail rest : String} {item : Symbol}

/-- The name of the token at a place. -/
def nameAt (tokens : Array Token) (place : Nat) : Option String :=
  tokens[place]?.map (·.name)

lemma nameAt_eq_some_iff :
    nameAt tokens place = some name ↔ ∃ t, tokens[place]? = some t ∧ t.name = name :=
  Option.map_eq_some_iff

lemma derives_nil_iff : Derives g tokens [] place d stop ↔ place = stop ∧ .done = d := by
  constructor
  · rintro ⟨⟩
    exact ⟨rfl, rfl⟩
  · rintro ⟨rfl, rfl⟩
    exact .done

lemma derives_terminal_iff : Derives g tokens (.terminal name :: xs) place d stop ↔
    ∃ t rest, (tokens[place]? = some t ∧ t.name = name) ∧
      Derives g tokens xs (place + 1) rest stop ∧ .token t rest = d := by
  constructor
  · intro h
    cases h with
    | token htoken hname hrest => exact ⟨_, _, ⟨htoken, hname⟩, hrest, rfl⟩
  · rintro ⟨t, rest, ⟨htoken, hname⟩, hrest, rfl⟩
    exact .token htoken hname hrest

/-- A rule with one alternative. -/
lemma derives_rule_iff_of_single {p : Production V} (hname : g.alternatives name = [p]) :
    Derives g tokens (.rule name :: xs) place d stop ↔ ∃ inner mid rest,
      Derives g tokens p.symbols place inner mid ∧ Derives g tokens xs mid rest stop ∧
        .rule name 0 inner rest = d := by
  constructor
  · intro h
    cases h with
    | @rule _ _ _ choice _ _ _ _ _ hp hinner hrest =>
      rw [hname] at hp
      match choice, hp with
      | 0, rfl => exact ⟨_, _, _, hinner, hrest, rfl⟩
  · rintro ⟨inner, mid, rest, hinner, hrest, rfl⟩
    exact .rule (by rw [hname]; rfl) hinner hrest

/-- A rule with two alternatives. -/
lemma derives_rule_iff_of_pair {p q : Production V} (hname : g.alternatives name = [p, q]) :
    Derives g tokens (.rule name :: xs) place d stop ↔
      (∃ inner mid rest, Derives g tokens p.symbols place inner mid ∧
        Derives g tokens xs mid rest stop ∧ .rule name 0 inner rest = d) ∨
      ∃ inner mid rest, Derives g tokens q.symbols place inner mid ∧
        Derives g tokens xs mid rest stop ∧ .rule name 1 inner rest = d := by
  constructor
  · intro h
    cases h with
    | @rule _ _ _ choice _ _ _ _ _ hp hinner hrest =>
      rw [hname] at hp
      match choice, hp with
      | 0, rfl => exact .inl ⟨_, _, _, hinner, hrest, rfl⟩
      | 1, rfl => exact .inr ⟨_, _, _, hinner, hrest, rfl⟩
  · rintro (⟨inner, mid, rest, hinner, hrest, rfl⟩ | ⟨inner, mid, rest, hinner, hrest, rfl⟩)
    · exact .rule (by rw [hname]; rfl) hinner hrest
    · exact .rule (by rw [hname]; rfl) hinner hrest

/-- There is a derivation of the symbols between the places. -/
def Derivable (g : Grammar V) (tokens : Array Token) (xs : List Symbol) (place stop : Nat) : Prop :=
  ∃ d, Derives g tokens xs place d stop

lemma derivable_nil_iff : Derivable g tokens [] place stop ↔ place = stop := by
  constructor
  · rintro ⟨d, hd⟩
    cases hd
    rfl
  · rintro rfl
    exact ⟨.done, .done⟩

lemma derivable_terminal_iff : Derivable g tokens (.terminal name :: xs) place stop ↔
    nameAt tokens place = some name ∧ Derivable g tokens xs (place + 1) stop := by
  constructor
  · rintro ⟨d, hd⟩
    cases hd with
    | token htoken hname hrest => exact ⟨by rw [nameAt, htoken, Option.map_some, hname], _, hrest⟩
  · rintro ⟨hname, d, hd⟩
    obtain ⟨t, htoken, hname⟩ := Option.map_eq_some_iff.1 hname
    exact ⟨_, .token htoken hname hd⟩

lemma derivable_rule_iff : Derivable g tokens (.rule name :: xs) place stop ↔
    ∃ p ∈ g.alternatives name, Derivable g tokens (p.symbols ++ xs) place stop := by
  constructor
  · rintro ⟨d, hd⟩
    cases hd with
    | rule hp hinner hrest =>
      exact ⟨_, List.mem_of_getElem? hp, _, derives_append_iff.2 ⟨_, _, _, hinner, hrest, rfl⟩⟩
  · rintro ⟨p, hp, d, hd⟩
    obtain ⟨d₁, d₂, mid, hinner, hrest, rfl⟩ := derives_append_iff.1 hd
    obtain ⟨choice, hchoice⟩ := List.mem_iff_getElem?.1 hp
    exact ⟨_, .rule hchoice hinner hrest⟩

/-! ## Tokens that do not occur -/

/-- Whether the symbol is another terminal or one of the rules. -/
def Symbol.isOther (name : String) (rules : List String) : Symbol → Bool
  | .terminal other => other ≠ name
  | .rule other => rules.contains other

/-- Whether the rules lead to other terminals and to each other only. -/
def lacks (g : Grammar V) (name : String) (rules : List String) : Bool :=
  rules.all fun rule => (g.alternatives rule).all fun p => p.symbols.all (·.isOther name rules)

/-- No token of the name is matched if the rules lack it. -/
lemma Derives.nameAt_ne {rules : List String} (hg : g.lacks name rules)
    (hxs : xs.all (·.isOther name rules)) (h : Derives g tokens xs place d stop) {k : Nat}
    (hplace : place ≤ k) (hstop : k < stop) : nameAt tokens k ≠ some name := by
  induction h with
  | done => omega
  | @token other xs place t d stop htoken hother _ ih =>
    rw [List.all_cons, Bool.and_eq_true] at hxs
    rcases hplace.eq_or_lt with rfl | hlt
    · simpa [nameAt, htoken, hother, Symbol.isOther] using hxs.1
    · exact ih hxs.2 hlt hstop
  | @rule rule xs place choice p inner mid d stop hp _ _ ihinner ihrest =>
    rw [List.all_cons, Bool.and_eq_true, Symbol.isOther, List.contains_iff_mem] at hxs
    rcases Nat.lt_or_ge k mid with hlt | hge
    · refine ihinner ?_ hplace hlt
      exact List.all_eq_true.1 (List.all_eq_true.1 hg rule hxs.1) p (List.mem_of_getElem? hp)
    · exact ihrest hxs.2 hge hstop

/-! ## Lists -/

section Lists

variable [Phrase V] {separator : Option Symbol}

lemma Tails.derivable_tail_iff (h : g.Tails tail rest item separator) :
    Derivable g tokens (.rule tail :: xs) place stop ↔
      Derivable g tokens (item :: .rule rest :: xs) place stop := by
  simp [derivable_rule_iff, h.ofTail]

/-- Behind an item of a list, there are no others or a separator and more of them. -/
lemma Tails.derivable_rest_iff (h : g.Tails tail rest item separator) :
    Derivable g tokens (.rule rest :: xs) place stop ↔ Derivable g tokens xs place stop ∨
      Derivable g tokens (separator.toList ++ .rule tail :: xs) place stop := by
  rw [derivable_rule_iff, h.ofRest]
  cases separator <;> simp

lemma Lists.derivable_iff (h : g.Lists name tail rest item separator) :
    Derivable g tokens (.rule name :: xs) place stop ↔ Derivable g tokens xs place stop ∨
      Derivable g tokens (item :: .rule rest :: xs) place stop := by
  rw [derivable_rule_iff, h.ofName]
  simp [h.derivable_tail_iff]

end Lists

/-- Derivations of items one after the other. -/
inductive Chain (g : Grammar V) (tokens : Array Token) (item : Symbol) :
    Nat → List Derivation → Nat → Prop
  | nil {place : Nat} : Chain g tokens item place [] place
  | cons {place mid stop : Nat} {e : Derivation} {es : List Derivation}
      (hitem : Derives g tokens [item] place e mid) (hrest : Chain g tokens item mid es stop) :
      Chain g tokens item place (e :: es) stop

/-- The derivation of a list that is made of those of its items. -/
def listDerivation (tail rest : String) : String → List Derivation → Derivation
  | name, [] => .rule name 0 .done .done
  | name, e :: es =>
    .rule name 1 (.rule tail 0 (e.append (listDerivation tail rest rest es)) .done) .done

/-- The rule is empty or hands on what another rule makes, as the rules of lists are and do. -/
def Optional (g : Grammar V) (name tail : String) : Prop :=
  ∃ p q, g.alternatives name = [p, q] ∧ p.symbols = [] ∧ q.symbols = [.rule tail]

lemma Optional.derives_iff (h : g.Optional name tail) :
    Derives g tokens [.rule name] place d stop ↔
      (place = stop ∧ .rule name 0 .done .done = d) ∨
        ∃ inner, Derives g tokens [.rule tail] place inner stop ∧ .rule name 1 inner .done = d := by
  obtain ⟨p, q, halternatives, hp, hq⟩ := h
  rw [derives_rule_iff_of_pair halternatives, hp, hq]
  simp only [derives_nil_iff]
  constructor
  · rintro (⟨_, _, _, ⟨rfl, rfl⟩, ⟨rfl, rfl⟩, rfl⟩ | ⟨inner, _, _, hinner, ⟨rfl, rfl⟩, rfl⟩)
    · exact .inl ⟨rfl, rfl⟩
    · exact .inr ⟨inner, hinner, rfl⟩
  · rintro (⟨rfl, rfl⟩ | ⟨inner, hinner, rfl⟩)
    · exact .inl ⟨_, _, _, ⟨rfl, rfl⟩, ⟨rfl, rfl⟩, rfl⟩
    · exact .inr ⟨inner, _, _, hinner, ⟨rfl, rfl⟩, rfl⟩

section Lists

variable [Phrase V]

lemma Lists.optional (h : g.Lists name tail rest item none) : g.Optional name tail :=
  ⟨_, _, h.ofName, rfl, rfl⟩

lemma Tails.optional (h : g.Tails tail rest item none) : g.Optional rest tail :=
  ⟨_, _, h.ofRest, rfl, rfl⟩

lemma Tails.derives_tail_iff (h : g.Tails tail rest item none) :
    Derives g tokens [.rule tail] place d stop ↔
      ∃ e d' mid, Derives g tokens [item] place e mid ∧ Derives g tokens [.rule rest] mid d' stop ∧
        .rule tail 0 (e.append d') .done = d := by
  rw [derives_rule_iff_of_single h.ofTail]
  simp only [derives_nil_iff]
  constructor
  · rintro ⟨inner, _, _, hinner, ⟨rfl, rfl⟩, rfl⟩
    have hparts : Derives g tokens ([item] ++ [.rule rest]) place inner _ := hinner
    obtain ⟨e, d', mid, he, hd', rfl⟩ := derives_append_iff.1 hparts
    exact ⟨e, d', mid, he, hd', rfl⟩
  · rintro ⟨e, d', mid, he, hd', rfl⟩
    exact ⟨_, _, _, derives_append_iff.2 ⟨e, d', mid, he, hd', rfl⟩, ⟨rfl, rfl⟩, rfl⟩

/-- The derivations of a list are chains of derivations of its items. -/
lemma Tails.derives_iff (h : g.Tails tail rest item none) (hname : g.Optional name tail) :
    Derives g tokens [.rule name] place d stop ↔
      ∃ es, Chain g tokens item place es stop ∧ listDerivation tail rest name es = d := by
  constructor
  · intro hd
    induction hsize : d.size using Nat.strong_induction_on generalizing name place d with
    | _ size ih =>
    rcases hname.derives_iff.1 hd with ⟨rfl, rfl⟩ | ⟨inner, hinner, rfl⟩
    · exact ⟨[], .nil, rfl⟩
    · obtain ⟨e, d', mid, he, hd', rfl⟩ := h.derives_tail_iff.1 hinner
      have hlt : d'.size < size := by
        simp only [Derivation.size, Derivation.size_append] at hsize
        omega
      obtain ⟨es, hes, rfl⟩ := ih _ hlt h.optional hd' rfl
      exact ⟨e :: es, .cons he hes, rfl⟩
  · rintro ⟨es, hes, rfl⟩
    induction hes generalizing name with
    | nil => exact hname.derives_iff.2 (.inl ⟨rfl, rfl⟩)
    | cons he _ ih =>
      exact hname.derives_iff.2 (.inr ⟨_, h.derives_tail_iff.2 ⟨_, _, _, he, ih h.optional, rfl⟩, rfl⟩)

end Lists

/-- A list that is longer comes later. -/
lemma choices_listDerivation_lt (name : String) (es : List Derivation) (e : Derivation)
    (more : List Derivation) : (listDerivation tail rest name es).choices <
      (listDerivation tail rest name (es ++ e :: more)).choices := by
  induction es generalizing name with
  | nil => exact .rel Nat.zero_lt_one
  | cons e' es ih =>
    simp only [List.cons_append, listDerivation, Derivation.choices, Derivation.choices_append,
      List.append_nil]
    exact .cons (.cons (List.append_left_lt (ih rest)))

namespace Chain

lemma append (hes : Chain g tokens item place es mid) (hes' : Chain g tokens item mid es' stop) :
    Chain g tokens item place (es ++ es') stop := by
  induction hes with
  | nil => exact hes'
  | cons hitem _ ih => exact .cons hitem (ih hes')

/-- Two chains go together as long as both go on. -/
lemma append_or (hitem : ∀ {place d stop e stop'}, Derives g tokens [item] place d stop →
      Derives g tokens [item] place e stop' → d = e ∧ stop = stop')
    (hes : Chain g tokens item place es stop) (hes' : Chain g tokens item place es' stop') :
    (∃ more, es' = es ++ more ∧ Chain g tokens item stop more stop') ∨
      ∃ more, es = es' ++ more ∧ Chain g tokens item stop' more stop := by
  induction hes generalizing es' with
  | nil => exact .inl ⟨es', rfl, hes'⟩
  | @cons place e mid es stop he hes ih =>
    cases hes' with
    | nil => exact .inr ⟨_, rfl, .cons he hes⟩
    | cons he' hes' =>
      obtain ⟨rfl, rfl⟩ := hitem he he'
      rcases ih hes' with ⟨more, rfl, hmore⟩ | ⟨more, rfl, hmore⟩
      · exact .inl ⟨more, rfl, hmore⟩
      · exact .inr ⟨more, rfl, hmore⟩

end Chain

end TriggerScript.Grammar
