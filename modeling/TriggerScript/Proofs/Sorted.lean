import Mathlib.Tactic.Common
import TriggerScript.Counters

/-!
# Sorted names and counters

Names that are inserted one after the other stand in order, each of them once. Counters are sorted by the
names of their libraries in the same way, so they come back when their entries are set one after the
other (`Counters.ofList_entries`).
-/

namespace TriggerScript

namespace Text

variable {name t : String} {names : List String}

lemma mem_foldl_insertSorted {others : List String} :
    t ∈ others.foldl (fun names name => insertSorted name names) names ↔ t ∈ names ∨ t ∈ others := by
  induction others generalizing names with
  | nil => simp
  | cons name others ih =>
    rw [List.foldl_cons, ih, mem_insertSorted, List.mem_cons]
    tauto

lemma sorted_foldl_insertSorted {others : List String} (h : names.Pairwise (· < ·)) :
    (others.foldl (fun names name => insertSorted name names) names).Pairwise (· < ·) := by
  induction others generalizing names with
  | nil => exact h
  | cons name others ih => exact ih (sorted_insertSorted h)

end Text

namespace Counters

variable {library : String} {n : UInt32} {entries : List (String × UInt32)}

/-- A library behind all others is set at the end. -/
lemma setEntry_of_lt (h : ∀ l ∈ entries.map Prod.fst, l < library) :
    setEntry library n entries = entries ++ [(library, n)] := by
  induction entries with
  | nil => rfl
  | cons entry entries ih =>
    obtain ⟨hentry, hentries⟩ := List.forall_mem_cons.1 h
    have hlt : ¬library < entry.1 := fun hlt => String.lt_irrefl _ (String.lt_trans hentry hlt)
    have hne : library ≠ entry.1 := by
      rintro rfl
      exact hlt hentry
    rw [setEntry, if_neg hlt, if_neg hne, ih hentries, List.cons_append]

/-- Counters come back from their entries. -/
lemma ofList_entries (c : Counters) : ofList c.entries = c := by
  -- The entries seen so far stand in front of those to come.
  have hfold : ∀ (rest : List (String × UInt32)) (front : Counters),
      ((front.entries ++ rest).map Prod.fst).Pairwise (· < ·) →
      (rest.foldl (fun c entry => c.set entry.1 entry.2) front).entries = front.entries ++ rest := by
    intro rest
    induction rest with
    | nil =>
      intro front _
      exact (List.append_nil _).symm
    | cons entry rest ih =>
      intro front hsorted
      have hfront : ∀ l ∈ front.entries.map Prod.fst, l < entry.1 := by
        rw [List.map_append, List.pairwise_append] at hsorted
        intro l hl
        exact hsorted.2.2 l hl entry.1 List.mem_cons_self
      have hset : (front.set entry.1 entry.2).entries = front.entries ++ [entry] :=
        setEntry_of_lt hfront
      rw [List.append_cons, ← hset] at hsorted ⊢
      exact ih _ hsorted
  exact Counters.ext (hfold c.entries .empty c.sorted)

end Counters

end TriggerScript
