import TriggerScript.Proofs.Grammar.LeftRecursion
import TriggerScript.Proofs.Grammar.Parses

/-!
# The budget of the search

The search follows rules inside rules up to a budget only. If it does not run out of one budget, it has
the same outcome with every larger one (`sequence_eq_of_le`): the budget never changes what is found.
In a grammar without left recursion it never runs out of the budget that `parseAll` gives it, so that
the search comes to an end by itself (`LeftRecursionFree.comesToEnd`).
-/

namespace TriggerScript.Grammar

variable {V : Type} [Phrase V] {g : Grammar V} {tokens : Array Token} {symbols : List Symbol}
  {name : String} {place budget budget' : Nat}

/-! ## More budget changes nothing -/

/-- The outcomes are the same, unless the first one is that the budget does not suffice. -/
def Below {α : Type} (x y : Except Error α) : Prop :=
  (∃ rule, x = .error (.endless rule)) ∨ x = y

namespace Below

variable {α β : Type} {x y : Except Error α} {f f' : α → Except Error β}

lemma refl (x : Except Error α) : Below x x :=
  .inr rfl

lemma eq (h : Below x y) (hx : ∀ rule, x ≠ .error (.endless rule)) : y = x := by
  rcases h with ⟨rule, h⟩ | h
  · exact absurd h (hx rule)
  · exact h.symm

lemma bind (h : Below x y) (hf : ∀ a, Below (f a) (f' a)) : Below (x >>= f) (y >>= f') := by
  rcases h with ⟨rule, rfl⟩ | rfl
  · exact .inl ⟨rule, rfl⟩
  · rcases x with e | a
    · exact .inr rfl
    · exact hf a

lemma mapM (hf : ∀ a, Below (f a) (f' a)) (as : List α) : Below (as.mapM f) (as.mapM f') := by
  induction as with
  | nil => exact .refl _
  | cons a as ih =>
    rw [List.mapM_cons, List.mapM_cons]
    exact (hf a).bind fun _ => ih.bind fun _ => .refl _

end Below

section Lift

variable {e e' : String → Nat → Except Error (Found V)}
  (h : ∀ name place, Below (e name place) (e' name place))

include h

lemma below_symbol (s : Symbol) (place : Nat) :
    Below (matchSymbol tokens e s place) (matchSymbol tokens e' s place) := by
  cases s with
  | terminal name => exact .refl _
  | rule name => exact h name place

lemma below_sequence (symbols : List Symbol) (place : Nat) :
    Below (matchSequence tokens e symbols place) (matchSequence tokens e' symbols place) := by
  induction symbols generalizing place with
  | nil => exact .refl _
  | cons s symbols ih =>
    refine (below_symbol h s place).bind fun heads => ?_
    exact (Below.mapM (fun head : V × Nat => (ih head.2).bind fun _ => .refl _) _).bind fun _ => .refl _

lemma below_production (place : Nat) (p : Production V) :
    Below (matchProduction tokens e place p) (matchProduction tokens e' place p) :=
  (below_sequence h p.symbols place).bind fun _ => .refl _

end Lift

lemma below_expand (h : budget ≤ budget') (name : String) (place : Nat) :
    Below (g.expand tokens budget name place) (g.expand tokens budget' name place) := by
  induction budget generalizing budget' name place with
  | zero => exact .inl ⟨name, rfl⟩
  | succ budget ih =>
    obtain ⟨b, rfl⟩ : ∃ b, budget' = b + 1 := ⟨budget' - 1, by omega⟩
    rw [Grammar.expand, Grammar.expand]
    split
    · exact .refl _
    · refine (Below.mapM (fun p => ?_) _).bind fun _ => .refl _
      exact below_production (fun name place => ih (Nat.le_of_succ_le_succ h) name place) place p

/-- A search that does not run out of its budget has the same outcome with every larger one. -/
theorem sequence_eq_of_le (h : budget ≤ budget')
    (hbudget : ∀ rule, matchSequence tokens (g.expand tokens budget) symbols place ≠
      .error (.endless rule)) :
    matchSequence tokens (g.expand tokens budget') symbols place =
      matchSequence tokens (g.expand tokens budget) symbols place :=
  (below_sequence (below_expand h) symbols place).eq hbudget

/-! ## Searches that come to an end by themselves -/

/-- The search for the whole stream needs no budget: there is no endless expansion, and all budgets
from that on which `parseAll` takes lead to one outcome, which is not that the budget does not
suffice. -/
def ComesToEnd (g : Grammar V) (tokens : Array Token) : Prop :=
  Ends g tokens ⟨g.whole, 0⟩ ∧ ∃ outcome, (∀ rule, outcome ≠ .error (.endless rule)) ∧
    ∀ budget ≥ g.budget tokens.size,
      matchSequence tokens (g.expand tokens budget) g.whole 0 = outcome

lemma LeftRecursionFree.comesToEnd (h : g.LeftRecursionFree) (hg : g.Closed) (tokens : Array Token) :
    g.ComesToEnd tokens := by
  have hends : Ends g tokens ⟨g.whole, 0⟩ := h.ends (Nat.zero_le _)
  have hbudget := sequence_ne_endless hends (Nat.zero_le _) (hg.known_of_meets hg.known_of_mem_whole)
  exact ⟨hends, _, hbudget, fun budget hle => sequence_eq_of_le hle hbudget⟩

/-- Then `parseAll` does not complain about an endless rule. -/
lemma ComesToEnd.parseAll_ne {tokens : List Token} {length : Nat}
    (h : g.ComesToEnd (stream tokens length)) (rule : String) :
    g.parseAll tokens length ≠ .error (.grammar (.endless rule)) := by
  obtain ⟨-, outcome, hne, houtcome⟩ := h
  have hsearch := houtcome _ le_rfl
  cases outcome with
  | error e =>
    rw [parseAll_of_error hsearch]
    rintro ⟨⟩
    exact hne rule rfl
  | ok found =>
    rcases parseAll_cases hsearch with ⟨v, others, hvalues⟩ | ⟨e, hunexpected⟩
    · exact hvalues ▸ nofun
    · exact hunexpected ▸ nofun

end TriggerScript.Grammar
