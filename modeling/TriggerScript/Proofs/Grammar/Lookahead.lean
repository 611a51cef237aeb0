import Mathlib.Data.Nat.Count
import Mathlib.Data.Set.Card
import TriggerScript.Proofs.Grammar.LeftRecursion
import TriggerScript.Proofs.Grammar.Parses

/-!
# Looking ahead

How a grammar matches a stream can often be told from the names of the next few tokens. This is checked
with a table that says of each rule what its tokens can begin with and which words of token names must
not stand behind it (`Lookahead`):

* if the table covers the productions, what is derived from some symbols begins as the table says
  (`Lookahead.exists_beginning`),
* two alternatives of a rule are kept apart if their tokens begin differently, after common symbols
  have been taken away from both and rules in front have been expanded (`Lookahead.apart`).

If all alternatives of all rules are kept apart, derivations are unique. Some lists of symbols can be
exempted from the check. If each of them has two derivations at marked places and one at all others,
the derivations of any symbols are counted by the marks (`Lookahead.counted`).
-/

namespace TriggerScript.Grammar

variable {V : Type} {g : Grammar V} {tokens : Array Token} {xs ys : List Symbol} {d e : Derivation}
  {place mid stop stop' : Nat} {name : String} {w v : List String} {bars : List (List String)}

/-- What the tokens of some symbols begin with. -/
structure Beginning where
  /-- The names of the first tokens. -/
  word : List String
  /-- Whether these are all tokens. -/
  whole : Bool
deriving DecidableEq

/-- What is known in advance of the rules of a grammar. -/
structure Lookahead where
  /-- What the tokens of a rule can begin with. -/
  beginnings : String → List Beginning
  /-- The words of token names that must not stand behind a rule. -/
  bars : String → List (List String)
  /-- The rules that are looked at. -/
  rules : List String

/-- These are all tokens. -/
def Beginning.all (word : List String) : Beginning :=
  ⟨word, true⟩

/-- These are the first tokens, and there may be more. -/
def Beginning.first (word : List String) : Beginning :=
  ⟨word, false⟩

/-- A table that is written in rows, each for several rules. -/
def Lookahead.ofRows (beginnings : List (List String × List Beginning))
    (bars : List (List String × List (List String))) (rules : List String) : Lookahead where
  beginnings name := (beginnings.find? (·.1.contains name)).elim [] Prod.snd
  bars name := (bars.find? (·.1.contains name)).elim [] Prod.snd
  rules

/-! ## The tokens ahead -/

/-- The names of the tokens from a place on. -/
def ahead (tokens : Array Token) (place : Nat) : List String :=
  (tokens.toList.drop place).map (·.name)

/-- None of the words stands at the place. -/
def Clear (tokens : Array Token) (bars : List (List String)) (place : Nat) : Prop :=
  ∀ w ∈ bars, ¬w <+: ahead tokens place

lemma clear_nil : Clear tokens [] place :=
  List.forall_mem_nil _

lemma ahead_eq_cons {t : Token} (h : tokens[place]? = some t) :
    ahead tokens place = t.name :: ahead tokens (place + 1) := by
  obtain ⟨hlt, rfl⟩ := Array.getElem?_eq_some_iff.1 h
  rw [ahead, List.drop_eq_getElem_cons (by simpa using hlt), List.map_cons, Array.getElem_toList]
  rfl

lemma ahead_add (n : Nat) : ahead tokens (place + n) = (ahead tokens place).drop n := by
  rw [ahead, ahead, ← List.map_drop, List.drop_drop]

/-- The tokens between the places begin as it is said. -/
def Beginning.Stands (b : Beginning) (tokens : Array Token) (place stop : Nat) : Prop :=
  b.word <+: ahead tokens place ∧ (b.whole → stop = place + b.word.length)

namespace Beginning

/-- The beginning with a word in front of it. -/
def behind (w : List String) (b : Beginning) : Beginning :=
  ⟨w ++ b.word, b.whole⟩

/-- Whether the first beginning is at least as vague as the second one. -/
def covers (b c : Beginning) : Bool :=
  b = c || !b.whole && b.word.isPrefixOf c.word

lemma Stands.behind {b : Beginning} (hw : w <+: ahead tokens place)
    (hb : b.Stands tokens (place + w.length) stop) : (b.behind w).Stands tokens place stop := by
  obtain ⟨rest, hrest⟩ := hw
  refine ⟨?_, fun hwhole => ?_⟩
  · have hb := hb.1
    rw [ahead_add, ← hrest, List.drop_left] at hb
    rw [← hrest]
    exact (List.prefix_append_right_inj w).2 hb
  · rw [hb.2 hwhole, Beginning.behind, List.length_append, Nat.add_assoc]

lemma Stands.of_covers {b c : Beginning} (h : b.covers c) (hc : c.Stands tokens place stop) :
    b.Stands tokens place stop := by
  simp only [covers, Bool.or_eq_true, decide_eq_true_eq, Bool.and_eq_true, Bool.not_eq_true',
    List.isPrefixOf_iff_prefix] at h
  rcases h with rfl | ⟨hwhole, hword⟩
  · exact hc
  · exact ⟨hword.trans hc.1, fun h => by simp [hwhole] at h⟩

/-- Whether tokens that begin with a word, and behind which, if this is all, none of the bars stands,
cannot begin with another word. -/
def avoids (bars : List (List String)) (whole : Bool) : List String → List String → Bool
  | a :: w, b :: v => a ≠ b || avoids bars whole w v
  | [], v => whole && bars.any (·.isPrefixOf v)
  | _ :: _, [] => false

lemma not_prefix_of_avoids {whole : Bool} {names : List String} (h : avoids bars whole w v)
    (hw : w <+: names) (hwhole : whole → ∀ bar ∈ bars, ¬bar <+: names.drop w.length) :
    ¬v <+: names := by
  induction w, v using avoids.induct generalizing names with
  | case1 a w b v ih =>
    rintro ⟨rest, rfl⟩
    obtain ⟨rfl, hw'⟩ := List.cons_prefix_cons.1 hw
    have h' : avoids bars whole w v := by simpa [avoids] using h
    exact ih h' hw' hwhole (List.prefix_append v rest)
  | case2 v =>
    simp only [avoids, Bool.and_eq_true, List.any_eq_true, List.isPrefixOf_iff_prefix] at h
    obtain ⟨hall, bar, hbar, hv⟩ := h
    exact fun hprefix => hwhole hall bar hbar (hv.trans hprefix)
  | case3 a w => simp [avoids] at h

lemma Stands.not_prefix {b : Beginning} (h : b.Stands tokens place stop) (hstop : Clear tokens bars stop)
    (hv : avoids bars b.whole b.word v) : ¬v <+: ahead tokens place := by
  refine not_prefix_of_avoids hv h.1 fun hwhole bar hbar => ?_
  rw [← ahead_add, ← h.2 hwhole]
  exact hstop bar hbar

end Beginning

open Beginning (avoids)

namespace Lookahead

variable (l : Lookahead)

/-! ## What symbols begin with -/

/-- What the tokens of the symbols can begin with, as far as the first `depth` tokens, if it is known
of the rules. -/
def beginningsOf (beginnings : String → List Beginning) : Nat → List Symbol → List Beginning
  | 0, _ => [⟨[], false⟩]
  | _ + 1, [] => [⟨[], true⟩]
  | depth + 1, .terminal name :: xs => (beginningsOf beginnings depth xs).map (.behind [name])
  | depth + 1, .rule name :: xs => (beginnings name).flatMap fun b =>
      if b.whole then
        (beginningsOf beginnings (depth + 1 - b.word.length) xs).map (.behind b.word)
      else [b]

/-- How many tokens are looked at. -/
def depth : Nat := 3

/-- What the tokens of the symbols can begin with. -/
def firsts (xs : List Symbol) : List Beginning :=
  beginningsOf l.beginnings depth xs

/-- The table says of each rule what the tokens of its alternatives begin with. -/
def covers (g : Grammar V) : Bool :=
  g.productions.all fun p => (l.firsts p.symbols).all fun b => (l.beginnings p.name).any (·.covers b)

variable {l}

lemma exists_beginning (hl : l.covers g) (h : Derives g tokens xs place d stop) (depth : Nat) :
    ∃ b ∈ beginningsOf l.beginnings depth xs, b.Stands tokens place stop := by
  induction h generalizing depth with
  | done =>
    cases depth with
    | zero => exact ⟨⟨[], false⟩, List.mem_singleton_self _, List.nil_prefix, nofun⟩
    | succ depth => exact ⟨⟨[], true⟩, List.mem_singleton_self _, List.nil_prefix, fun _ => rfl⟩
  | @token name rest place t d stop htoken hname _ ih =>
    cases depth with
    | zero => exact ⟨⟨[], false⟩, List.mem_singleton_self _, List.nil_prefix, nofun⟩
    | succ depth =>
      obtain ⟨b, hb, hstands⟩ := ih depth
      refine ⟨_, List.mem_map_of_mem hb, .behind ?_ hstands⟩
      rw [ahead_eq_cons htoken, hname]
      exact List.cons_prefix_cons.2 ⟨rfl, List.nil_prefix⟩
  | @rule name rest place choice p inner mid d stop hp _ _ ihinner ihrest =>
    cases depth with
    | zero => exact ⟨⟨[], false⟩, List.mem_singleton_self _, List.nil_prefix, nofun⟩
    | succ depth =>
      obtain ⟨c, hc, hcstands⟩ := ihinner Lookahead.depth
      obtain ⟨hmem, hname⟩ := List.mem_filter.1 (List.mem_of_getElem? hp)
      obtain ⟨b, hb, hcovers⟩ :=
        List.any_eq_true.1 (List.all_eq_true.1 (List.all_eq_true.1 hl p hmem) c hc)
      rw [of_decide_eq_true hname] at hb
      have hstands := hcstands.of_covers hcovers
      by_cases hwhole : b.whole
      · obtain rfl := hstands.2 hwhole
        obtain ⟨b', hb', hstands'⟩ := ihrest (depth + 1 - b.word.length)
        refine ⟨b'.behind b.word, List.mem_flatMap.2 ⟨b, hb, ?_⟩, .behind hstands.1 hstands'⟩
        rw [if_pos hwhole]
        exact List.mem_map_of_mem hb'
      · refine ⟨b, List.mem_flatMap.2 ⟨b, hb, ?_⟩, hstands.1, fun h => absurd h hwhole⟩
        rw [if_neg hwhole]
        exact List.mem_singleton_self b

variable (l)

/-! ## Alternatives that are kept apart -/

/-- Whether behind the rule, in front of the symbols, none of its bars can stand. -/
def guards (bars : List (List String)) (name : String) (xs : List Symbol) : Bool :=
  (l.firsts xs).all fun b => (l.bars name).all (avoids bars b.whole b.word)

/-- Whether the tokens of two lists of symbols begin differently. -/
def clash (bars : List (List String)) (xs ys : List Symbol) : Bool :=
  (l.firsts xs).all fun b => (l.firsts ys).all fun c =>
    avoids bars b.whole b.word c.word || avoids bars c.whole c.word b.word

/-- Whether no tokens can be those of both lists of symbols, if none of the bars stands behind them:
they begin differently, or they do so behind a common symbol, or with a rule in front expanded. -/
def apart (g : Grammar V) (bars : List (List String)) : Nat → List Symbol → List Symbol → Bool
  | 0, _, _ => false
  | fuel + 1, xs, ys => l.clash bars xs ys ||
    (match xs, ys with
      | .terminal a :: xs, .terminal b :: ys => a = b && apart g bars fuel xs ys
      | .rule a :: xs, .rule b :: ys => a = b && l.rules.contains a && l.guards bars a xs &&
          l.guards bars a ys && apart g bars fuel xs ys
      | _, _ => false) ||
    (match xs with
      | .rule a :: xs => (g.alternatives a).all fun p => apart g bars fuel (p.symbols ++ xs) ys
      | _ => false) ||
    (match ys with
      | .rule b :: ys => (g.alternatives b).all fun p => apart g bars fuel xs (p.symbols ++ ys)
      | _ => false)

variable {l}

lemma clear_of_guards (hl : l.covers g) (h : Derives g tokens xs place d stop)
    (hstop : Clear tokens bars stop) (hguards : l.guards bars name xs) :
    Clear tokens (l.bars name) place := by
  intro v hv
  obtain ⟨b, hb, hstands⟩ := exists_beginning hl h depth
  exact hstands.not_prefix hstop (List.all_eq_true.1 (List.all_eq_true.1 hguards b hb) v hv)

lemma not_both_of_clash (hl : l.covers g) (hd : Derives g tokens xs place d stop)
    (hstop : Clear tokens bars stop) (he : Derives g tokens ys place e stop')
    (hstop' : Clear tokens bars stop') : ¬l.clash bars xs ys := by
  intro h
  obtain ⟨b, hb, hbstands⟩ := exists_beginning hl hd depth
  obtain ⟨c, hc, hcstands⟩ := exists_beginning hl he depth
  rcases Bool.or_eq_true_iff.1 (List.all_eq_true.1 (List.all_eq_true.1 h b hb) c hc) with h | h
  · exact hbstands.not_prefix hstop h hcstands.1
  · exact hcstands.not_prefix hstop' h hbstands.1

/-- Derivations of the rules that are looked at end at the same place, as far as those of a size are
concerned. -/
def StopsAgree (l : Lookahead) (g : Grammar V) (tokens : Array Token) (size : Nat) : Prop :=
  ∀ {name place d stop e stop'}, name ∈ l.rules → d.size ≤ size →
    Derives g tokens [.rule name] place d stop → Clear tokens (l.bars name) stop →
    Derives g tokens [.rule name] place e stop' → Clear tokens (l.bars name) stop' → stop' = stop

/-- A rule in front can be expanded. -/
lemma exists_of_derives_rule (h : Derives g tokens (.rule name :: xs) place d stop) :
    ∃ p ∈ g.alternatives name, ∃ e : Derivation, e.size ≤ d.size ∧
      Derives g tokens (p.symbols ++ xs) place e stop := by
  cases h with
  | rule hp hinner hrest =>
    refine ⟨_, List.mem_of_getElem? hp, _, ?_, derives_append_iff.2 ⟨_, _, _, hinner, hrest, rfl⟩⟩
    rw [Derivation.size_append, Derivation.size]
    omega

/-- What is kept apart has no tokens in common. -/
theorem not_both_of_apart (hl : l.covers g) {size fuel : Nat} (hagree : l.StopsAgree g tokens size)
    (h : l.apart g bars fuel xs ys) (hsize : d.size ≤ size) (hd : Derives g tokens xs place d stop)
    (hstop : Clear tokens bars stop) (he : Derives g tokens ys place e stop')
    (hstop' : Clear tokens bars stop') : False := by
  induction fuel generalizing xs ys d e place with
  | zero => cases h
  | succ fuel ih =>
    simp only [apart, Bool.or_eq_true] at h
    rcases h with ((h | h) | h) | h
    · exact not_both_of_clash hl hd hstop he hstop' h
    · split at h
      · obtain ⟨-, h⟩ := Bool.and_eq_true_iff.1 h
        cases hd with
        | token _ _ hd =>
          rw [Derivation.size] at hsize
          cases he with
          | token _ _ he => exact ih h (by omega) hd he
      · rename_i a xs b ys
        simp only [Bool.and_eq_true, decide_eq_true_eq, List.contains_iff_mem] at h
        obtain ⟨⟨⟨⟨rfl, hrule⟩, hguards⟩, hguards'⟩, h⟩ := h
        cases hd with
        | rule hp hinner hd =>
          rw [Derivation.size] at hsize
          cases he with
          | rule hp' hinner' he =>
            -- the common rule ends at the same place in both derivations
            have hclear := clear_of_guards hl hd hstop hguards
            have hclear' := clear_of_guards hl he hstop' hguards'
            obtain rfl := hagree hrule (by simp only [Derivation.size]; omega)
              (.rule hp hinner .done) hclear (.rule hp' hinner' .done) hclear'
            exact ih h (by omega) hd he
      · cases h
    · split at h
      · rename_i a xs
        obtain ⟨p, hp, d', hsize', hd'⟩ := exists_of_derives_rule hd
        exact ih (List.all_eq_true.1 h p hp) (hsize'.trans hsize) hd' he
      · cases h
    · split at h
      · rename_i b ys
        obtain ⟨p, hp, e', -, he'⟩ := exists_of_derives_rule he
        exact ih (List.all_eq_true.1 h p hp) hsize hd he'
      · cases h

/-! ## Counting derivations -/

variable (l) in
/-- Whether the symbols are matched one after the other as the table says: none of its bars can stand
behind a rule, and the terminals are plain ones. The last symbols may be a list that is exempted. -/
def orderly (exempt : List (List Symbol)) (plain : String → Bool) (bars : List (List String)) :
    List Symbol → Bool
  | [] => true
  | .terminal name :: xs => exempt.contains (.terminal name :: xs) ||
      plain name && orderly exempt plain bars xs
  | .rule name :: xs => exempt.contains (.rule name :: xs) ||
      l.rules.contains name && l.guards bars name xs && orderly exempt plain bars xs

variable (l) in
/-- Whether the alternatives of the rules are orderly and kept apart. -/
def checks (g : Grammar V) (exempt : List (List Symbol)) (plain : String → Bool) : Bool :=
  l.rules.all fun name => (g.alternatives name).zipIdx.all fun p =>
    l.orderly exempt plain (l.bars name) p.1.symbols &&
      (g.alternatives name).zipIdx.all fun q =>
        p.2 = q.2 || l.apart g (l.bars name) 9 p.1.symbols q.1.symbols

end Lookahead

/-- All derivations of the symbols from one place on reach to the same stop, as far as none of the bars
stands behind them, and there are two for each marked place in between. -/
structure Counted (g : Grammar V) (tokens : Array Token) (mark : Nat → Bool)
    (bars : List (List String)) (xs : List Symbol) (place stop : Nat) : Prop where
  stop_eq : ∀ {e stop'}, Derives g tokens xs place e stop' → Clear tokens bars stop' → stop' = stop
  encard_eq : {e | Derives g tokens xs place e stop}.encard =
    2 ^ (Nat.count (mark ·) stop - Nat.count (mark ·) place)

namespace Counted

variable {mark : Nat → Bool}

lemma of_nil (h : Counted g tokens mark [] xs place stop) :
    Counted g tokens mark bars xs place stop where
  stop_eq he _ := h.stop_eq he clear_nil
  encard_eq := h.encard_eq

lemma done : Counted g tokens mark bars [] place place where
  stop_eq he _ := by
    cases he
    rfl
  encard_eq := by
    have hset : {e | Derives g tokens [] place e place} = {.done} := by
      ext e
      constructor
      · rintro ⟨⟩
        rfl
      · rintro rfl
        exact .done
    rw [hset, Set.encard_singleton, Nat.sub_self, pow_zero]

lemma token {t : Token} (htoken : tokens[place]? = some t) (hmark : mark place = false)
    (h : Counted g tokens mark bars xs (place + 1) stop) :
    Counted g tokens mark bars (.terminal t.name :: xs) place stop where
  stop_eq he hstop := by
    cases he with
    | token _ _ he => exact h.stop_eq he hstop
  encard_eq := by
    have hset : {e | Derives g tokens (.terminal t.name :: xs) place e stop} =
        Derivation.token t '' {e | Derives g tokens xs (place + 1) e stop} := by
      ext e
      constructor
      · intro he
        cases he with
        | token htoken' _ he =>
          obtain rfl := Option.some.inj (htoken.symm.trans htoken')
          exact ⟨_, he, rfl⟩
      · rintro ⟨e, he, rfl⟩
        exact .token htoken rfl he
    rw [hset, Set.InjOn.encard_image (fun _ _ _ _ h => (Derivation.token.inj h).2), h.encard_eq,
      Nat.count_succ, hmark]
    rfl

/-- A rule with one alternative that matches: any derivation of its symbols can stand in front of any
of the symbols behind it. -/
lemma rule {choice : Nat} {p : Production V} {inside : List (List String)}
    (hp : (g.alternatives name)[choice]? = some p)
    (hinner : Counted g tokens mark inside p.symbols place mid) (hmid : place ≤ mid)
    (hrest : Counted g tokens mark bars xs mid stop) (hstop : mid ≤ stop)
    (hclear : Clear tokens bars stop)
    (hothers : ∀ {choice' p' e mid' e' stop'}, (g.alternatives name)[choice']? = some p' →
      Derives g tokens p'.symbols place e mid' → Derives g tokens xs mid' e' stop' →
      Clear tokens bars stop' → choice' = choice ∧ Clear tokens inside mid') :
    Counted g tokens mark bars (.rule name :: xs) place stop := by
  have hparts : ∀ {e stop'}, Derives g tokens (.rule name :: xs) place e stop' →
      Clear tokens bars stop' → ∃ e₁ e₂, Derives g tokens p.symbols place e₁ mid ∧
        Derives g tokens xs mid e₂ stop' ∧ .rule name choice e₁ e₂ = e := by
    intro e stop' he hstop'
    cases he with
    | rule hp' hinner' hrest' =>
      obtain ⟨rfl, hclear'⟩ := hothers hp' hinner' hrest' hstop'
      obtain rfl := Option.some.inj (hp.symm.trans hp')
      obtain rfl := hinner.stop_eq hinner' hclear'
      exact ⟨_, _, hinner', hrest', rfl⟩
  refine ⟨fun he hstop' => ?_, ?_⟩
  · obtain ⟨e₁, e₂, -, he₂, -⟩ := hparts he hstop'
    exact hrest.stop_eq he₂ hstop'
  · have hset : {e | Derives g tokens (.rule name :: xs) place e stop} =
        (fun parts => .rule name choice parts.1 parts.2) ''
          ({e | Derives g tokens p.symbols place e mid} ×ˢ {e | Derives g tokens xs mid e stop}) := by
      ext e
      constructor
      · intro he
        obtain ⟨e₁, e₂, he₁, he₂, rfl⟩ := hparts he hclear
        exact ⟨(e₁, e₂), ⟨he₁, he₂⟩, rfl⟩
      · rintro ⟨⟨e₁, e₂⟩, ⟨he₁, he₂⟩, rfl⟩
        exact .rule hp he₁ he₂
    have hinj : Function.Injective fun parts : Derivation × Derivation =>
        Derivation.rule name choice parts.1 parts.2 := by
      rintro ⟨e₁, e₂⟩ ⟨e₁', e₂'⟩ h
      simpa using h
    have hcount := Nat.count_monotone (mark ·) hmid
    have hcount' := Nat.count_monotone (mark ·) hstop
    rw [hset, hinj.encard_image, Set.encard_prod, hinner.encard_eq, hrest.encard_eq, ← pow_add]
    congr 1
    omega

/-- Without marks there is one derivation. -/
lemma eq_of_derives (h : Counted g tokens (fun _ => false) bars xs place stop)
    (hd : Derives g tokens xs place d stop) (he : Derives g tokens xs place e stop) : d = e := by
  have hone := h.encard_eq
  simp only [Bool.false_eq_true, Nat.count_false, Nat.sub_self, pow_zero] at hone
  obtain ⟨f, hf⟩ := Set.encard_eq_one.1 hone
  have hmem : ∀ {e}, Derives g tokens xs place e stop → e = f := fun he =>
    Set.mem_singleton_iff.1 (hf ▸ he)
  rw [hmem hd, hmem he]

end Counted

namespace Lookahead

variable {l : Lookahead} {mark : Nat → Bool} {exempt : List (List Symbol)} {plain : String → Bool}

lemma guards_nil (name : String) : l.guards (l.bars name) name [] := by
  simp only [guards, firsts, depth, beginningsOf, List.all_cons, List.all_nil, Bool.and_true,
    List.all_eq_true, avoids, Bool.true_and, List.any_eq_true, List.isPrefixOf_iff_prefix]
  exact fun bar hbar => ⟨bar, hbar, List.prefix_rfl⟩

/-- The derivations of orderly symbols are counted by the marks, if those of the exempted lists of
symbols are. -/
theorem counted (hl : l.covers g) (hchecks : l.checks g exempt plain)
    (hmark : ∀ {place t}, tokens[place]? = some t → plain t.name → mark place = false)
    (hexempt : ∀ xs ∈ exempt, ∀ {place d stop}, Derives g tokens xs place d stop →
      Counted g tokens mark [] xs place stop)
    (hxs : l.orderly exempt plain bars xs) (hd : Derives g tokens xs place d stop)
    (hstop : Clear tokens bars stop) : Counted g tokens mark bars xs place stop := by
  induction hsize : d.size using Nat.strong_induction_on generalizing xs bars place d stop with
  | _ size ih =>
  cases hd with
  | done => exact .done
  | @token name xs _ t d _ htoken hname hrest =>
    subst hname
    rw [orderly, Bool.or_eq_true, Bool.and_eq_true, List.contains_iff_mem] at hxs
    rcases hxs with hmem | ⟨hplain, hxs⟩
    · exact (hexempt _ hmem (.token htoken rfl hrest)).of_nil
    · rw [Derivation.size] at hsize
      exact .token htoken (hmark htoken hplain) (ih _ (by omega) hxs hrest hstop rfl)
  | @rule name xs _ choice p inner mid d _ hp hinner hrest =>
    simp only [orderly, Bool.or_eq_true, Bool.and_eq_true, List.contains_iff_mem] at hxs
    rcases hxs with hmem | ⟨⟨hname, hguards⟩, hxs⟩
    · exact (hexempt _ hmem (.rule hp hinner hrest)).of_nil
    rw [Derivation.size] at hsize
    have hagree : l.StopsAgree g tokens inner.size := by
      intro name place d stop e stop' hname hle hd hstop he hstop'
      have horderly : l.orderly exempt plain (l.bars name) [.rule name] := by
        simp [orderly, hname, guards_nil]
      exact (ih d.size (by omega) horderly hd hstop rfl).stop_eq he hstop'
    have halternatives := List.all_eq_true.1 hchecks name hname
    have hpair := List.all_eq_true.1 halternatives (p, choice) (List.mk_mem_zipIdx_iff_getElem?.2 hp)
    obtain ⟨hsymbols, hapart⟩ := Bool.and_eq_true_iff.1 hpair
    have hmid : Clear tokens (l.bars name) mid := clear_of_guards hl hrest hstop hguards
    refine .rule hp (ih _ (by omega) hsymbols hinner hmid rfl) hinner.place_le_stop
      (ih _ (by omega) hxs hrest hstop rfl) hrest.place_le_stop hstop ?_
    intro choice' p' e mid' e' stop' hp' he he' hstop'
    have hmid' : Clear tokens (l.bars name) mid' := clear_of_guards hl he' hstop' hguards
    refine ⟨?_, hmid'⟩
    by_contra hne
    have hapart' := List.all_eq_true.1 hapart (p', choice') (List.mk_mem_zipIdx_iff_getElem?.2 hp')
    rcases Bool.or_eq_true_iff.1 hapart' with heq | hapart'
    · exact hne (of_decide_eq_true heq).symm
    · exact not_both_of_apart hl hagree hapart' le_rfl hinner hmid he hmid'

end Lookahead

/-! ## Counting parses -/

/-- There is a value for each parse. -/
theorem encard_isParse [Phrase V] {tokens : List Token} {length : Nat} {values : List V}
    (h : g.parseAll tokens length = .ok values) :
    {d | IsParse g (stream tokens length) d}.encard = values.length := by
  obtain ⟨found, hfound, rfl⟩ := exists_found_of_parseAll h
  obtain ⟨parses, hmem, hsorted, hvalues⟩ := exists_parses hfound
  have hnodup : parses.Nodup := hsorted.imp fun hlt => by
    rintro rfl
    exact List.lt_irrefl _ hlt
  have hset : {d | IsParse g (stream tokens length) d} = parses.toFinset := by
    ext d
    simp [hmem]
  rw [hset, Set.encard_coe_eq_coe_finsetCard, List.toFinset_card_of_nodup hnodup, hvalues.length_eq]

/-- The number of values is known from the marks. -/
theorem Lookahead.length_of_parseAll [Phrase V] {l : Lookahead} {mark : Nat → Bool}
    {exempt : List (List Symbol)} {plain : String → Bool} {tokens : List Token} {length : Nat}
    {values : List V} (hl : l.covers g) (hchecks : l.checks g exempt plain)
    (hmark : ∀ {place t}, (stream tokens length)[place]? = some t → plain t.name →
      mark place = false)
    (hexempt : ∀ xs ∈ exempt, ∀ {place d stop}, Derives g (stream tokens length) xs place d stop →
      Counted g (stream tokens length) mark [] xs place stop)
    (hwhole : l.orderly exempt plain [] g.whole) (h : g.parseAll tokens length = .ok values) :
    values.length = 2 ^ Nat.count (mark ·) (stream tokens length).size := by
  have hencard := encard_isParse h
  obtain ⟨d, hd⟩ : {d | IsParse g (stream tokens length) d}.Nonempty := by
    rw [← Set.encard_ne_zero, hencard]
    simpa using ne_nil_of_parseAll h
  have hcounted := (counted hl hchecks hmark hexempt hwhole hd clear_nil).encard_eq
  rw [Nat.count_zero, Nat.sub_zero] at hcounted
  exact_mod_cast hencard.symm.trans hcounted

end TriggerScript.Grammar
