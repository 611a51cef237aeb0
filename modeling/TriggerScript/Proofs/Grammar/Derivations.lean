import Mathlib.Logic.Relation
import Mathlib.Tactic.Common
import TriggerScript.Grammar.Matching
import TriggerScript.Proofs.Computation

/-!
# Derivations

How a grammar matches a part of a token stream is said here without the search that finds it, in two
ways. A `Derivation` is a tree: it has a token for each terminal and, for each rule, the number of the
alternative that is chosen and the derivation of its symbols. An expansion proceeds step by step from
the top down: it takes tokens from the stream and replaces the rule in front by the symbols of one of
its alternatives.

Derivations are put in order by the choices made in them, from the left to the right. Different
derivations of the same symbols differ in a choice, whatever may follow them (`Derives.eq_of_choices`).

The two ways agree: the expansions that have matched all symbols are those that follow a derivation
(`reaches_nil_iff`).
-/

namespace TriggerScript.Grammar

/-- How a list of symbols is derived, symbol by symbol. -/
inductive Derivation where
  /-- There are no symbols. -/
  | done
  /-- A terminal is matched by a token. -/
  | token (t : Token) (rest : Derivation)
  /-- A rule is matched by one of its alternatives, whose symbols are derived inside. -/
  | rule (name : String) (choice : Nat) (inner rest : Derivation)
deriving DecidableEq

variable {V : Type}

/-- What an alternative of a rule makes of the values of its symbols. -/
def reduce (g : Grammar V) (name : String) (choice : Nat) (parts : List V) : Except String V :=
  match (g.alternatives name)[choice]? with
  | some p => p.reduce parts
  | none => .error "no such alternative"

namespace Derivation

/-- The choices of alternatives, in the order in which they are met from the left to the right. -/
def choices : Derivation → List Nat
  | done => []
  | token _ rest => rest.choices
  | rule _ choice inner rest => choice :: (inner.choices ++ rest.choices)

/-- The values of the symbols, reduced from the bottom up. -/
def values [Phrase V] (g : Grammar V) : Derivation → Except String (List V)
  | done => .ok []
  | token t rest => do
    let others ← rest.values g
    return Phrase.ofToken t :: others
  | rule name choice inner rest => do
    let parts ← inner.values g
    let value ← g.reduce name choice parts
    let others ← rest.values g
    return value :: others

/-- How many tokens and rules there are. -/
def size : Derivation → Nat
  | done => 0
  | token _ rest => rest.size + 1
  | rule _ _ inner rest => inner.size + rest.size + 1

/-- The derivation of two lists of symbols, one behind the other. -/
def append : Derivation → Derivation → Derivation
  | done, e => e
  | token t rest, e => .token t (rest.append e)
  | rule name choice inner rest, e => .rule name choice inner (rest.append e)

lemma choices_append (d e : Derivation) : (d.append e).choices = d.choices ++ e.choices := by
  induction d with
  | done => rfl
  | token t rest ih => exact ih
  | rule name choice inner rest _ ih => simp [append, choices, ih]

lemma size_append (d e : Derivation) : (d.append e).size = d.size + e.size := by
  induction d with
  | done => exact (Nat.zero_add _).symm
  | token t rest ih =>
    simp only [append, size, ih]
    omega
  | rule name choice inner rest _ ih =>
    simp only [append, size, ih]
    omega

lemma values_append [Phrase V] {g : Grammar V} {d e : Derivation} {vs ws : List V}
    (hd : d.values g = .ok vs) (he : e.values g = .ok ws) :
    (d.append e).values g = .ok (vs ++ ws) := by
  induction d generalizing vs with
  | done =>
    obtain rfl : [] = vs := Except.ok.inj hd
    exact he
  | token t rest ih =>
    obtain ⟨us, hus, hvs⟩ := except_bind_ok_iff.1 hd
    obtain rfl : _ :: us = vs := Except.ok.inj hvs
    simp [append, values, ih hus, bind, Except.bind, pure, Except.pure]
  | rule name choice inner rest _ ih =>
    obtain ⟨parts, hparts, hd⟩ := except_bind_ok_iff.1 hd
    obtain ⟨v, hv, hd⟩ := except_bind_ok_iff.1 hd
    obtain ⟨us, hus, hvs⟩ := except_bind_ok_iff.1 hd
    obtain rfl : v :: us = vs := Except.ok.inj hvs
    simp [append, values, hparts, hv, ih hus, bind, Except.bind, pure, Except.pure]

end Derivation

/-- The derivation is one of these symbols, and its tokens stand in the stream from one place up to
another. -/
inductive Derives (g : Grammar V) (tokens : Array Token) :
    List Symbol → Nat → Derivation → Nat → Prop
  | done {place} : Derives g tokens [] place .done place
  | token {name rest place token d stop} (htoken : tokens[place]? = some token)
      (hname : token.name = name) (hrest : Derives g tokens rest (place + 1) d stop) :
      Derives g tokens (.terminal name :: rest) place (.token token d) stop
  | rule {name rest place choice p inner mid d stop} (hp : (g.alternatives name)[choice]? = some p)
      (hinner : Derives g tokens p.symbols place inner mid)
      (hrest : Derives g tokens rest mid d stop) :
      Derives g tokens (.rule name :: rest) place (.rule name choice inner d) stop

variable {g : Grammar V} {tokens : Array Token} {xs ys symbols : List Symbol} {d e : Derivation}
  {place mid stop stop' : Nat}

/-- A derivation is known from its choices, even if more choices follow: no derivation of the same
symbols goes on where another one ends. -/
lemma Derives.eq_of_choices (hd : Derives g tokens symbols place d stop)
    (he : Derives g tokens symbols place e stop') {cs cs' : List Nat}
    (h : d.choices ++ cs = e.choices ++ cs') : d = e ∧ stop = stop' ∧ cs = cs' := by
  induction hd generalizing e stop' cs cs' with
  | done =>
    cases he
    exact ⟨rfl, rfl, h⟩
  | token htoken hname hrest ih =>
    cases he with
    | token htoken' hname' hrest' =>
      obtain rfl := Option.some.inj (htoken.symm.trans htoken')
      obtain ⟨rfl, hstop, hcs⟩ := ih hrest' h
      exact ⟨rfl, hstop, hcs⟩
  | rule hp hinner hrest ihinner ihrest =>
    cases he with
    | rule hp' hinner' hrest' =>
      simp only [Derivation.choices, List.cons_append, List.cons.injEq, List.append_assoc] at h
      obtain ⟨rfl, h⟩ := h
      obtain rfl := Option.some.inj (hp.symm.trans hp')
      -- the derivation inside is settled first, and with it where the rest begins
      obtain ⟨rfl, rfl, h⟩ := ihinner hinner' h
      obtain ⟨rfl, hstop, hcs⟩ := ihrest hrest' h
      exact ⟨rfl, hstop, hcs⟩

/-- A smaller list of choices stays smaller with more choices behind both lists. -/
lemma Derives.choices_lt_append (hd : Derives g tokens symbols place d stop)
    (he : Derives g tokens symbols place e stop') (h : d.choices < e.choices) (cs cs' : List Nat) :
    d.choices ++ cs < e.choices ++ cs' := by
  -- without being the beginning of it, a list is smaller than another one because of a member
  have hlist : ∀ {as bs : List Nat}, as < bs → ¬as <+: bs → as ++ cs < bs ++ cs' := by
    intro as bs hlt
    induction hlt with
    | nil => exact fun hprefix => absurd (List.nil_prefix) hprefix
    | rel hrel => exact fun _ => .rel hrel
    | cons _ ih =>
      intro hprefix
      exact .cons (ih fun h => hprefix ((List.cons_prefix_cons.2 ⟨rfl, h⟩)))
  refine hlist h ?_
  rintro ⟨us, hus⟩
  have heq : d = e := (hd.eq_of_choices he (hus.trans (List.append_nil _).symm)).1
  exact List.lt_irrefl _ (heq ▸ h)

/-- The derivations of two lists of symbols behind each other are made of derivations of both. -/
lemma derives_append_iff : Derives g tokens (xs ++ ys) place d stop ↔
    ∃ d₁ d₂ mid, Derives g tokens xs place d₁ mid ∧ Derives g tokens ys mid d₂ stop ∧
      d₁.append d₂ = d := by
  constructor
  · intro h
    induction xs generalizing place d with
    | nil => exact ⟨.done, d, place, .done, h, rfl⟩
    | cons x xs ih =>
      cases h with
      | token htoken hname hrest =>
        obtain ⟨d₁, d₂, mid, h₁, h₂, rfl⟩ := ih hrest
        exact ⟨_, d₂, mid, .token htoken hname h₁, h₂, rfl⟩
      | rule hp hinner hrest =>
        obtain ⟨d₁, d₂, mid, h₁, h₂, rfl⟩ := ih hrest
        exact ⟨_, d₂, mid, .rule hp hinner h₁, h₂, rfl⟩
  · rintro ⟨d₁, d₂, mid, h₁, h₂, rfl⟩
    induction h₁ with
    | done => exact h₂
    | token htoken hname _ ih => exact .token htoken hname (ih h₂)
    | rule hp hinner _ _ ih => exact .rule hp hinner (ih h₂)

/-! ## Expansions from the top down -/

/-- Where an expansion stands. -/
structure Config where
  /-- The symbols that are still to be matched. -/
  remaining : List Symbol
  /-- The place in the stream in front of which all tokens are matched. -/
  place : Nat

/-- A step of an expansion. -/
inductive Step (g : Grammar V) (tokens : Array Token) : Config → Config → Prop
  /-- A terminal in front takes a token of its name. -/
  | take {name rest place token} (htoken : tokens[place]? = some token) (hname : token.name = name) :
      Step g tokens ⟨.terminal name :: rest, place⟩ ⟨rest, place + 1⟩
  /-- A rule in front is replaced by the symbols of one of its alternatives. -/
  | choose {name rest place p} (hp : p ∈ g.alternatives name) :
      Step g tokens ⟨.rule name :: rest, place⟩ ⟨p.symbols ++ rest, place⟩

/-- An expansion leads from one configuration to another. -/
abbrev Reaches (g : Grammar V) (tokens : Array Token) : Config → Config → Prop :=
  Relation.ReflTransGen (Step g tokens)

variable {c c' : Config}

/-- Symbols behind those that are expanded do not matter. -/
lemma Step.append (h : Step g tokens c c') (zs : List Symbol) :
    Step g tokens ⟨c.remaining ++ zs, c.place⟩ ⟨c'.remaining ++ zs, c'.place⟩ := by
  cases h with
  | take htoken hname => exact .take htoken hname
  | choose hp =>
    rw [List.append_assoc]
    exact .choose hp

lemma Reaches.append (h : Reaches g tokens c c') (zs : List Symbol) :
    Reaches g tokens ⟨c.remaining ++ zs, c.place⟩ ⟨c'.remaining ++ zs, c'.place⟩ :=
  h.lift (fun c => (⟨c.remaining ++ zs, c.place⟩ : Config)) fun _ _ hstep => hstep.append zs

/-- A step leads on in the first list of symbols as long as that list is not empty. -/
lemma Step.of_append (h : Step g tokens ⟨xs ++ ys, place⟩ c) (hxs : xs ≠ []) :
    ∃ xs', c.remaining = xs' ++ ys ∧ Step g tokens ⟨xs, place⟩ ⟨xs', c.place⟩ := by
  cases xs with
  | nil => exact absurd rfl hxs
  | cons x xs =>
    cases h with
    | take htoken hname => exact ⟨xs, rfl, .take htoken hname⟩
    | choose hp => exact ⟨_, (List.append_assoc ..).symm, .choose hp⟩

/-- An expansion of two lists of symbols is still in the first one, or it has matched that one. -/
lemma reaches_append (h : Reaches g tokens ⟨xs ++ ys, place⟩ c) :
    (∃ xs', c.remaining = xs' ++ ys ∧ Reaches g tokens ⟨xs, place⟩ ⟨xs', c.place⟩) ∨
      ∃ mid, Reaches g tokens ⟨xs, place⟩ ⟨[], mid⟩ ∧ Reaches g tokens ⟨ys, mid⟩ c := by
  induction h with
  | refl => exact .inl ⟨xs, rfl, .refl⟩
  | @tail b c _ hstep ih =>
    rcases ih with ⟨xs', hb, hxs'⟩ | ⟨mid, hxs, hys⟩
    · obtain ⟨remaining, k⟩ := b
      obtain rfl : remaining = xs' ++ ys := hb
      by_cases hnil : xs' = []
      · subst hnil
        exact .inr ⟨k, hxs', .single hstep⟩
      · obtain ⟨xs'', hc, hstep'⟩ := hstep.of_append hnil
        exact .inl ⟨xs'', hc, hxs'.tail hstep'⟩
    · exact .inr ⟨mid, hxs, hys.tail hstep⟩

/-- An expansion can follow any derivation. -/
lemma Derives.reaches (h : Derives g tokens symbols place d stop) :
    Reaches g tokens ⟨symbols, place⟩ ⟨[], stop⟩ := by
  induction h with
  | done => exact .refl
  | token htoken hname _ ih => exact .head (.take htoken hname) ih
  | rule hp _ _ ihinner ihrest =>
    refine .head (.choose (List.mem_of_getElem? hp)) ?_
    exact (Reaches.append ihinner _).trans ihrest

/-- The expansions that have matched all symbols are those that follow a derivation. -/
theorem reaches_nil_iff : Reaches g tokens ⟨symbols, place⟩ ⟨[], stop⟩ ↔
    ∃ d, Derives g tokens symbols place d stop := by
  refine ⟨fun h => ?_, fun ⟨d, hd⟩ => hd.reaches⟩
  -- along the expansion backwards, each step puts a token or a chosen alternative in front
  suffices hconfig : ∀ c, Reaches g tokens c ⟨[], stop⟩ →
      ∃ d, Derives g tokens c.remaining c.place d stop from hconfig _ h
  intro c hc
  induction hc using Relation.ReflTransGen.head_induction_on with
  | refl => exact ⟨.done, .done⟩
  | head hstep _ ih =>
    obtain ⟨d, hd⟩ := ih
    cases hstep with
    | take htoken hname => exact ⟨_, .token htoken hname hd⟩
    | choose hp =>
      obtain ⟨d₁, d₂, mid, h₁, h₂, rfl⟩ := derives_append_iff.1 hd
      obtain ⟨choice, hchoice⟩ := List.mem_iff_getElem?.1 hp
      exact ⟨_, .rule hchoice h₁ h₂⟩

/-! ## The symbols that an expansion meets -/

/-- An expansion from the configuration on has matched all tokens in front of a place and has the symbol
to match next. -/
def Meets (g : Grammar V) (tokens : Array Token) (c : Config) (x : Symbol) (place : Nat) : Prop :=
  ∃ rest, Reaches g tokens c ⟨x :: rest, place⟩

variable {x : Symbol} {name : String} {k : Nat}

/-- Nothing follows on a configuration without symbols. -/
lemma eq_of_reaches_nil (h : Reaches g tokens ⟨[], place⟩ c) : c = ⟨[], place⟩ := by
  rcases Relation.ReflTransGen.cases_head h with h | ⟨c', hstep, -⟩
  · exact h.symm
  · cases hstep

lemma not_meets_nil : ¬Meets g tokens ⟨[], place⟩ x k := by
  rintro ⟨rest, h⟩
  cases eq_of_reaches_nil h

lemma meets_terminal_iff :
    Meets g tokens ⟨[.terminal name], place⟩ x k ↔ x = .terminal name ∧ k = place := by
  constructor
  · rintro ⟨rest, h⟩
    rcases Relation.ReflTransGen.cases_head h with h | ⟨c', hstep, h⟩
    · cases h
      exact ⟨rfl, rfl⟩
    · cases hstep
      exact absurd ⟨rest, h⟩ not_meets_nil
  · rintro ⟨rfl, rfl⟩
    exact ⟨[], .refl⟩

/-- Expanding a rule meets the rule itself and what its alternatives meet. -/
lemma meets_rule_iff : Meets g tokens ⟨[.rule name], place⟩ x k ↔
    (x = .rule name ∧ k = place) ∨
      ∃ p ∈ g.alternatives name, Meets g tokens ⟨p.symbols, place⟩ x k := by
  constructor
  · rintro ⟨rest, h⟩
    rcases Relation.ReflTransGen.cases_head h with h | ⟨c', hstep, h⟩
    · cases h
      exact .inl ⟨rfl, rfl⟩
    · cases hstep with
      | choose hp =>
        rw [List.append_nil] at h
        exact .inr ⟨_, hp, rest, h⟩
  · rintro (⟨rfl, rfl⟩ | ⟨p, hp, rest, h⟩)
    · exact ⟨[], .refl⟩
    · refine ⟨rest, .head (.choose hp) ?_⟩
      rwa [List.append_nil]

/-- Expanding a list of symbols meets what the first symbol meets and, behind each of its matches, what
the others meet. -/
lemma meets_cons_iff {s : Symbol} : Meets g tokens ⟨s :: symbols, place⟩ x k ↔
    Meets g tokens ⟨[s], place⟩ x k ∨
      ∃ mid, Reaches g tokens ⟨[s], place⟩ ⟨[], mid⟩ ∧ Meets g tokens ⟨symbols, mid⟩ x k := by
  constructor
  · rintro ⟨rest, h⟩
    have hreach : Reaches g tokens ⟨[s] ++ symbols, place⟩ ⟨x :: rest, k⟩ := h
    rcases reaches_append hreach with ⟨xs', hrest, hxs'⟩ | ⟨mid, hmid, h⟩
    · cases xs' with
      | nil =>
        obtain rfl : x :: rest = symbols := hrest
        exact .inr ⟨k, hxs', rest, .refl⟩
      | cons y ys =>
        obtain ⟨rfl, -⟩ := List.cons.inj hrest
        exact .inl ⟨ys, hxs'⟩
    · exact .inr ⟨mid, hmid, rest, h⟩
  · rintro (⟨rest, h⟩ | ⟨mid, hmid, rest, h⟩)
    · exact ⟨rest ++ symbols, h.append symbols⟩
    · exact ⟨rest, (Reaches.append hmid symbols).trans h⟩

end TriggerScript.Grammar
