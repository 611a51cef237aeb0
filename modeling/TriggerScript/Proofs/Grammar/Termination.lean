import Mathlib.Data.Finset.Prod
import Mathlib.Data.Finset.Dedup
import Mathlib.Order.Basic
import TriggerScript.Proofs.Grammar.Search

/-!
# When the search comes to an end

Whether the search comes to an end is a matter of the expansions alone. If there is no endless
expansion, no rule comes back to itself at the same place, so that fewer rules lie inside each other
than the budget allows (`sequence_ne_endless`). If, besides, every derivation of a rule that is met can
be reduced, the search succeeds (`exists_sequence`). Both conditions are also necessary
(`Ends.of_sequence`, `Reduces.of_sequence`).
-/

namespace TriggerScript.Grammar

variable {V : Type} {g : Grammar V} {tokens : Array Token} {symbols xs ys rest : List Symbol}
  {name : String} {place mid budget : Nat} {c c' c₀ : Config}

/-- There is no endless expansion from the configuration on. -/
def Ends (g : Grammar V) (tokens : Array Token) (c : Config) : Prop :=
  Acc (Function.swap (Step g tokens)) c

/-- Every derivation of a rule that an expansion from the configuration on meets can be reduced. -/
def Reduces [Phrase V] (g : Grammar V) (tokens : Array Token) (c : Config) : Prop :=
  ∀ {name place}, Meets g tokens c (.rule name) place →
    ∀ {d stop}, Derives g tokens [.rule name] place d stop → ∃ vs, d.values g = .ok vs

/-- Every rule that is mentioned has an alternative. -/
def Closed (g : Grammar V) : Prop :=
  ∀ name ∈ g.mentioned, g.alternatives name ≠ []

/-- The grammar of a list of clauses has been checked. -/
lemma closed_of_ofClauses [Phrase V] {entry : String} {clauses : List (Clause V)}
    (h : ofClauses entry clauses = .ok g) : g.Closed := by
  unfold ofClauses check at h
  split at h
  · cases h
  · rename_i hnone
    obtain rfl := Except.ok.inj h
    intro name hname
    have hdefines := List.find?_eq_none.1 hnone name hname
    simpa [defines, alternatives] using hdefines

lemma Closed.alternatives_ne_nil (hg : g.Closed) {p : Production V} (hp : p ∈ g.productions)
    (hname : .rule name ∈ p.symbols) : g.alternatives name ≠ [] := by
  refine hg name (List.mem_cons_of_mem _ ?_)
  exact List.mem_flatMap.2 ⟨p, hp, List.mem_filterMap.2 ⟨_, hname, rfl⟩⟩

/-- Rules that are known stay known along an expansion. -/
lemma Closed.known_of_meets (hg : g.Closed)
    (hknown : ∀ name, .rule name ∈ c.remaining → g.alternatives name ≠ [])
    (hmeets : Meets g tokens c (.rule name) mid) : g.alternatives name ≠ [] := by
  obtain ⟨rest, hreach⟩ := hmeets
  suffices hall : ∀ c', Reaches g tokens c c' →
      ∀ name, .rule name ∈ c'.remaining → g.alternatives name ≠ [] from
    hall _ hreach name List.mem_cons_self
  intro c' hreach
  induction hreach with
  | refl => exact hknown
  | tail _ hstep ih =>
    intro name hname
    cases hstep with
    | take _ _ => exact ih name (List.mem_cons_of_mem _ hname)
    | choose hp =>
      rcases List.mem_append.1 hname with hname | hname
      · exact hg.alternatives_ne_nil (List.mem_filter.1 hp).1 hname
      · exact ih name (List.mem_cons_of_mem _ hname)

/-! ## Endless expansions -/

lemma Ends.of_reaches (h : Ends g tokens c) (hreach : Reaches g tokens c c') : Ends g tokens c' := by
  induction hreach with
  | refl => exact h
  | tail _ hstep ih => exact ih.inv hstep

/-- A rule that comes back to itself at the same place can be expanded for ever. -/
lemma not_ends_of_loop
    (hloop : Relation.TransGen (Step g tokens) ⟨[.rule name], place⟩ ⟨.rule name :: xs, place⟩) :
    ¬Ends g tokens ⟨.rule name :: rest, place⟩ := by
  intro h
  have hacc : ∀ c, Acc (Relation.TransGen (Function.swap (Step g tokens))) c →
      ∀ rest, c ≠ ⟨.rule name :: rest, place⟩ := by
    intro c hc
    induction hc with
    | intro c _ ih =>
      rintro rest rfl
      -- behind the rule that has come back there stand more symbols each time
      have hagain := hloop.lift (fun c => (⟨c.remaining ++ rest, c.place⟩ : Config))
        fun _ _ hstep => hstep.append rest
      exact ih _ (Relation.transGen_swap.2 hagain) (xs ++ rest) rfl
  exact hacc _ h.transGen rest rfl

lemma Reaches.place_le (h : Reaches g tokens c c') (hc : c.place ≤ tokens.size) :
    c'.place ≤ tokens.size := by
  induction h with
  | refl => exact hc
  | tail _ hstep ih =>
    cases hstep with
    | take htoken _ =>
      obtain ⟨hlt, -⟩ := Array.getElem?_eq_some_iff.1 htoken
      exact hlt
    | choose _ => exact ih

lemma Reaches.le_place (h : Reaches g tokens c c') : c.place ≤ c'.place := by
  induction h with
  | refl => exact le_rfl
  | tail _ hstep ih =>
    cases hstep with
    | take _ _ => exact ih.trans (Nat.le_succ _)
    | choose _ => exact ih

/-- The pairs of a rule and a place at which it can be met. -/
def calls (g : Grammar V) (size : Nat) : Finset (String × Nat) :=
  (g.productions.map (·.name)).toFinset ×ˢ Finset.range (size + 1)

lemma card_calls_lt (size : Nat) : (g.calls size).card < g.budget size := by
  have hnames : (g.productions.map (·.name)).toFinset.card ≤ g.productions.length :=
    (List.toFinset_card_le _).trans_eq (List.length_map _)
  have hcard : (g.calls size).card ≤ g.productions.length * (size + 1) := by
    rw [calls, Finset.card_product, Finset.card_range]
    exact Nat.mul_le_mul_right _ hnames
  exact Nat.lt_succ_of_le hcard

lemma mem_calls (hname : g.alternatives name ≠ []) {size : Nat} (hplace : place ≤ size) :
    (name, place) ∈ g.calls size := by
  obtain ⟨p, hp⟩ := List.exists_mem_of_ne_nil _ hname
  obtain ⟨hp, hpname⟩ := List.mem_filter.1 hp
  refine Finset.mem_product.2 ⟨?_, Finset.mem_range.2 (Nat.lt_succ_of_le hplace)⟩
  exact List.mem_toFinset.2 (List.mem_map.2 ⟨p, hp, of_decide_eq_true hpname⟩)

variable [Phrase V]

/-! ## Searches that fail -/

lemma matchSymbol_terminal_ne_error {expand : String → Nat → Except Error (Found V)} {e : Error} :
    matchSymbol tokens expand (.terminal name) place ≠ .error e := by
  intro h
  simp only [matchSymbol] at h
  split at h
  · cases h
  · split at h <;> cases h

/-- If the search for a list of symbols fails, it has met a rule for which it fails. -/
lemma exists_rule_of_sequence_error {e : Error}
    (h : matchSequence tokens (g.expand tokens budget) symbols place = .error e) :
    ∃ front name back mid, symbols = front ++ .rule name :: back ∧
      Reaches g tokens ⟨front, place⟩ ⟨[], mid⟩ ∧ g.expand tokens budget name mid = .error e := by
  induction symbols generalizing place with
  | nil => cases h
  | cons s symbols ih =>
    rcases except_bind_error_iff.1 h with hhead | ⟨heads, hheads, h⟩
    · cases s with
      | terminal name => exact absurd hhead matchSymbol_terminal_ne_error
      | rule name => exact ⟨[], name, symbols, place, rfl, .refl, hhead⟩
    · rcases except_bind_error_iff.1 h with h | ⟨tails, -, h⟩
      · obtain ⟨⟨v, mid⟩, hmem, h⟩ := exists_of_except_mapM_error h
        rcases except_bind_error_iff.1 h with h | ⟨f, -, h⟩
        · obtain ⟨items, hitems⟩ := enumerates_symbol hheads
          obtain ⟨d, hd, -⟩ := hitems.exists_of_mem_results hmem
          obtain ⟨front, name, back, mid', rfl, hfront, hname⟩ := ih h
          exact ⟨s :: front, name, back, mid', rfl, (hd.reaches.append front).trans hfront, hname⟩
        · cases h
      · cases h

/-- The search for a rule fails because the rule is unknown, because the search for an alternative
fails or because a derivation cannot be reduced. -/
lemma expand_error_cases {e : Error} (h : g.expand tokens (budget + 1) name place = .error e) :
    (g.alternatives name = [] ∧ e = .unknownRule name) ∨
      (∃ p ∈ g.alternatives name,
        matchSequence tokens (g.expand tokens budget) p.symbols place = .error e) ∨
      ∃ message, e = .reduce name message ∧
        ∃ d stop, Derives g tokens [.rule name] place d stop ∧ d.values g = .error message := by
  rw [Grammar.expand] at h
  split at h
  · rename_i hnil
    exact .inl ⟨hnil, (Except.error.inj h).symm⟩
  · rcases except_bind_error_iff.1 h with h | ⟨founds, -, h⟩
    · obtain ⟨p, hp, h⟩ := exists_of_except_mapM_error h
      rcases except_bind_error_iff.1 h with h | ⟨inner, hinner, h⟩
      · exact .inr (.inl ⟨p, hp, h⟩)
      · rcases except_bind_error_iff.1 h with h | ⟨results, -, h⟩
        · obtain ⟨⟨vs, stop⟩, hmem, h⟩ := exists_of_except_mapM_error h
          obtain ⟨items, hitems⟩ := enumerates_sequence hinner
          obtain ⟨d, hd, hvalues⟩ := hitems.exists_of_mem_results hmem
          obtain ⟨choice, hchoice⟩ := List.mem_iff_getElem?.1 hp
          have hname : p.name = name := of_decide_eq_true (List.mem_filter.1 hp).2
          dsimp only at h
          split at h
          · cases h
          · rename_i message hreduce
            obtain rfl := Except.error.inj h
            refine .inr (.inr ⟨message, hname ▸ rfl, _, stop, .rule hchoice hd .done, ?_⟩)
            rw [values_rule hchoice hvalues, id, hreduce]
            rfl
        · cases h
    · cases h

/-- The search does not run out of its budget if there is no endless expansion. `visited` has the
calls in which the search is at the moment; each of them leads to where the search stands. -/
lemma sequence_ne_endless_of_visited (hends : Ends g tokens c₀)
    (visited : Finset (String × Nat)) (hvisited : visited ⊆ g.calls tokens.size)
    (hbudget : (g.calls tokens.size).card ≤ visited.card + budget)
    (hknown : ∀ {name place}, Meets g tokens c₀ (.rule name) place → g.alternatives name ≠ [])
    (hreach : Reaches g tokens c₀ ⟨symbols ++ rest, place⟩) (hplace : place ≤ tokens.size)
    (hcalls : ∀ call ∈ visited, ∃ zs,
      Relation.TransGen (Step g tokens) ⟨[.rule call.1], call.2⟩ ⟨symbols ++ zs, place⟩)
    (rule : String) :
    matchSequence tokens (g.expand tokens budget) symbols place ≠ .error (.endless rule) := by
  intro h
  induction budget using Nat.strong_induction_on generalizing visited symbols rest place with
  | _ budget ih =>
    obtain ⟨front, name, back, mid, rfl, hfront, hname⟩ := exists_rule_of_sequence_error h
    have hmid : Reaches g tokens c₀ ⟨.rule name :: (back ++ rest), mid⟩ := by
      rw [List.append_assoc] at hreach
      exact hreach.trans (hfront.append _)
    have hcalls' : ∀ call ∈ visited, ∃ zs,
        Relation.TransGen (Step g tokens) ⟨[.rule call.1], call.2⟩ ⟨.rule name :: zs, mid⟩ := by
      intro call hcall
      obtain ⟨zs, hzs⟩ := hcalls call hcall
      rw [List.append_assoc] at hzs
      exact ⟨back ++ zs, hzs.trans_left (hfront.append _)⟩
    -- the search is not in this call already, so there is budget left for it
    have hnew : (name, mid) ∉ visited := by
      intro hmem
      obtain ⟨zs, hzs⟩ := hcalls' _ hmem
      exact not_ends_of_loop hzs (hends.of_reaches hmid)
    have hsubset : insert (name, mid) visited ⊆ g.calls tokens.size :=
      Finset.insert_subset (mem_calls (hknown ⟨_, hmid⟩) (hfront.place_le hplace)) hvisited
    have hcard := Finset.card_le_card hsubset
    have hinsert := Finset.card_insert_of_notMem hnew
    obtain ⟨b, rfl⟩ : ∃ b, budget = b + 1 := ⟨budget - 1, by omega⟩
    rcases expand_error_cases hname with ⟨-, he⟩ | ⟨p, hp, hinner⟩ | ⟨_, he, -⟩
    · cases he
    · refine ih b (Nat.lt_succ_self b) (insert (name, mid) visited) hsubset (by omega)
        (hmid.tail (.choose hp)) (hfront.place_le hplace) ?_ hinner
      intro call hcall
      rcases Finset.mem_insert.1 hcall with rfl | hcall
      · exact ⟨[], .single (.choose hp)⟩
      · obtain ⟨zs, hzs⟩ := hcalls' call hcall
        exact ⟨zs, hzs.tail (.choose hp)⟩
    · cases he

/-- The budget suffices if there is no endless expansion. -/
lemma sequence_ne_endless (hends : Ends g tokens ⟨symbols, place⟩) (hplace : place ≤ tokens.size)
    (hknown : ∀ {name mid}, Meets g tokens ⟨symbols, place⟩ (.rule name) mid →
      g.alternatives name ≠ []) (rule : String) :
    matchSequence tokens (g.expand tokens (g.budget tokens.size)) symbols place ≠
      .error (.endless rule) := by
  have hcard := g.card_calls_lt tokens.size
  have hstart : Reaches g tokens ⟨symbols, place⟩ ⟨symbols ++ [], place⟩ := by
    rw [List.append_nil]
  exact sequence_ne_endless_of_visited hends ∅ (Finset.empty_subset _)
    (by rw [Finset.card_empty]; omega) hknown hstart hplace (by simp) rule

/-- An error other than that of the budget is one of a rule that an expansion meets. -/
lemma exists_meets_of_sequence_error {e : Error}
    (h : matchSequence tokens (g.expand tokens budget) symbols place = .error e) :
    (∃ rule, e = .endless rule) ∨ ∃ name mid, Meets g tokens ⟨symbols, place⟩ (.rule name) mid ∧
      ((g.alternatives name = [] ∧ e = .unknownRule name) ∨ ∃ message, e = .reduce name message ∧
        ∃ d stop, Derives g tokens [.rule name] mid d stop ∧ d.values g = .error message) := by
  induction budget generalizing symbols place with
  | zero =>
    obtain ⟨_, name, _, _, -, -, hname⟩ := exists_rule_of_sequence_error h
    exact .inl ⟨name, (Except.error.inj hname).symm⟩
  | succ budget ih =>
    obtain ⟨front, name, back, mid, rfl, hfront, hname⟩ := exists_rule_of_sequence_error h
    have hmid : Reaches g tokens ⟨front ++ .rule name :: back, place⟩ ⟨.rule name :: back, mid⟩ :=
      hfront.append _
    rcases expand_error_cases hname with hunknown | ⟨p, hp, hinner⟩ | hreduce
    · exact .inr ⟨name, mid, ⟨_, hmid⟩, .inl hunknown⟩
    · refine (ih hinner).imp_right ?_
      rintro ⟨inner, k, ⟨zs, hzs⟩, he⟩
      exact ⟨inner, k, ⟨zs ++ back, (hmid.tail (.choose hp)).trans (hzs.append back)⟩, he⟩
    · exact .inr ⟨name, mid, ⟨_, hmid⟩, .inr hreduce⟩

/-- The search succeeds if there is no endless expansion and everything met can be reduced. -/
lemma exists_sequence (hg : g.Closed) (hends : Ends g tokens ⟨symbols, place⟩)
    (hreduces : Reduces g tokens ⟨symbols, place⟩) (hplace : place ≤ tokens.size)
    (hsymbols : ∀ name, .rule name ∈ symbols → g.alternatives name ≠ []) :
    ∃ found, matchSequence tokens (g.expand tokens (g.budget tokens.size)) symbols place =
      .ok found := by
  cases h : matchSequence tokens (g.expand tokens (g.budget tokens.size)) symbols place with
  | ok found => exact ⟨found, rfl⟩
  | error e =>
    have hknown : ∀ {name mid}, Meets g tokens ⟨symbols, place⟩ (.rule name) mid →
        g.alternatives name ≠ [] := fun hmeets => hg.known_of_meets hsymbols hmeets
    rcases exists_meets_of_sequence_error h with ⟨rule, rfl⟩ |
      ⟨name, mid, hmeets, ⟨hnil, -⟩ | ⟨message, -, d, stop, hd, hvalues⟩⟩
    · exact absurd h (sequence_ne_endless hends hplace hknown rule)
    · exact absurd hnil (hknown hmeets)
    · obtain ⟨vs, hvs⟩ := hreduces hmeets hd
      cases hvalues.symm.trans hvs

/-! ## Searches that have come to an end -/

/-- Behind each match of the first symbol, the search for the others has come to an end. -/
lemma exists_tail {s : Symbol} {found : Found (List V)}
    (h : matchSequence tokens (g.expand tokens budget) (s :: symbols) place = .ok found)
    (hmid : Reaches g tokens ⟨[s], place⟩ ⟨[], mid⟩) :
    ∃ f, matchSequence tokens (g.expand tokens budget) symbols mid = .ok f := by
  obtain ⟨heads, tails, hheads, htails, -⟩ := matchSequence_cons_ok_iff.1 h
  obtain ⟨items, hitems⟩ := enumerates_symbol hheads
  obtain ⟨d, hd⟩ := reaches_nil_iff.1 hmid
  obtain ⟨⟨v, _⟩, hhead, -, rfl⟩ := exists_of_mem_left hitems.values (hitems.mem_iff.2 hd)
  obtain ⟨_, -, f, hf, -⟩ := exists_of_mem_left htails hhead
  exact ⟨f, hf⟩

/-- The search for each alternative of a rule has come to an end. -/
lemma exists_inner {found : Found V} (h : g.expand tokens (budget + 1) name place = .ok found)
    {p : Production V} (hp : p ∈ g.alternatives name) :
    ∃ inner, matchSequence tokens (g.expand tokens budget) p.symbols place = .ok inner := by
  obtain ⟨-, founds, hfounds, -⟩ := expand_ok_iff.1 h
  obtain ⟨f, -, hf⟩ := exists_of_mem_left hfounds hp
  obtain ⟨inner, _, hinner, -⟩ := matchProduction_ok_iff.1 hf
  exact ⟨inner, hinner⟩

omit [Phrase V] in
/-- Two lists of symbols are expanded one after the other. -/
lemma Ends.append (h : Ends g tokens ⟨xs, place⟩)
    (hys : ∀ mid, Reaches g tokens ⟨xs, place⟩ ⟨[], mid⟩ → Ends g tokens ⟨ys, mid⟩) :
    Ends g tokens ⟨xs ++ ys, place⟩ := by
  have hacc : ∀ c, Ends g tokens c →
      (∀ mid, Reaches g tokens c ⟨[], mid⟩ → Ends g tokens ⟨ys, mid⟩) →
      Ends g tokens ⟨c.remaining ++ ys, c.place⟩ := by
    intro c hc
    induction hc with
    | intro c _ ih =>
      intro hys
      obtain ⟨xs, place⟩ := c
      by_cases hxs : xs = []
      · subst hxs
        exact hys place .refl
      · refine .intro _ fun c' hstep => ?_
        obtain ⟨remaining, place'⟩ := c'
        obtain ⟨xs', rfl, hstep'⟩ := Step.of_append hstep hxs
        exact ih _ hstep' fun mid hmid => hys mid (.head hstep' hmid)
  exact hacc _ h hys

/-- If the search comes to an end, so do all expansions. -/
lemma Ends.of_sequence {found : Found (List V)}
    (h : matchSequence tokens (g.expand tokens budget) symbols place = .ok found) :
    Ends g tokens ⟨symbols, place⟩ := by
  induction budget using Nat.strong_induction_on generalizing symbols place found with
  | _ budget ihbudget =>
  induction symbols generalizing place found with
  | nil => exact .intro _ fun c hstep => nomatch hstep
  | cons s symbols ih =>
    obtain ⟨heads, tails, hheads, -⟩ := matchSequence_cons_ok_iff.1 h
    have hhead : Ends g tokens ⟨[s], place⟩ := by
      refine .intro _ fun c hstep => ?_
      cases hstep with
      | take _ _ => exact .intro _ fun c hstep => nomatch hstep
      | choose hp =>
        cases budget with
        | zero => cases hheads
        | succ b =>
          obtain ⟨inner, hinner⟩ := exists_inner hheads hp
          rw [List.append_nil]
          exact ihbudget b (Nat.lt_succ_self b) hinner
    refine hhead.append fun mid hmid => ?_
    obtain ⟨f, hf⟩ := exists_tail h hmid
    exact ih hf

/-- If the search comes to an end, so does the one for each rule that an expansion meets. -/
lemma exists_expand_of_meets {found : Found (List V)}
    (h : matchSequence tokens (g.expand tokens budget) symbols place = .ok found)
    (hmeets : Meets g tokens ⟨symbols, place⟩ (.rule name) mid) :
    ∃ b f, g.expand tokens b name mid = .ok f := by
  induction budget using Nat.strong_induction_on generalizing symbols place found with
  | _ budget ihbudget =>
  induction symbols generalizing place found with
  | nil => exact absurd hmeets not_meets_nil
  | cons s symbols ih =>
    rcases meets_cons_iff.1 hmeets with hmeets | ⟨mid', hmid', hmeets⟩
    · obtain ⟨heads, tails, hheads, -⟩ := matchSequence_cons_ok_iff.1 h
      cases s with
      | terminal _ => cases (meets_terminal_iff.1 hmeets).1
      | rule _ =>
        rcases meets_rule_iff.1 hmeets with ⟨hname, rfl⟩ | ⟨p, hp, hmeets⟩
        · obtain rfl := Symbol.rule.inj hname
          exact ⟨budget, heads, hheads⟩
        · cases budget with
          | zero => cases hheads
          | succ b =>
            obtain ⟨inner, hinner⟩ := exists_inner hheads hp
            exact ihbudget b (Nat.lt_succ_self b) hinner hmeets
    · obtain ⟨f, hf⟩ := exists_tail h hmid'
      exact ih hf hmeets

/-- If the search comes to an end, everything that it has met could be reduced. -/
lemma Reduces.of_sequence {found : Found (List V)}
    (h : matchSequence tokens (g.expand tokens budget) symbols place = .ok found) :
    Reduces g tokens ⟨symbols, place⟩ := by
  intro name mid hmeets d stop hd
  obtain ⟨b, f, hf⟩ := exists_expand_of_meets h hmeets
  obtain ⟨items, hitems⟩ := enumerates_expand hf
  obtain ⟨r, -, hvalues, -⟩ := exists_of_mem_left hitems.values (hitems.mem_iff.2 hd)
  exact ⟨_, hvalues⟩

end TriggerScript.Grammar
