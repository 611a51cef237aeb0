/-!
# Sorted lists of names

Sets of names are kept as sorted lists without repetition, so that they are shown in one order.
Names are compared character by character, which is also the order of their UTF-8 bytes.
-/

namespace TriggerScript.Text

/-- Puts a name into its place, unless it is there already. -/
def insertSorted (name : String) : List String → List String
  | [] => [name]
  | other :: rest =>
    if name < other then name :: other :: rest
    else if name = other then other :: rest
    else other :: insertSorted name rest

theorem mem_insertSorted {name t : String} {names : List String} :
    t ∈ insertSorted name names ↔ t = name ∨ t ∈ names := by
  induction names with
  | nil => simp [insertSorted]
  | cons other names ih =>
    rw [insertSorted]
    split
    · exact List.mem_cons
    · split
      · rename_i heq
        simp [heq]
      · rw [List.mem_cons, ih, List.mem_cons]
        exact or_left_comm

theorem sorted_insertSorted {name : String} {names : List String} (h : names.Pairwise (· < ·)) :
    (insertSorted name names).Pairwise (· < ·) := by
  induction names with
  | nil => exact List.pairwise_singleton ..
  | cons other names ih =>
    obtain ⟨hother, hnames⟩ := List.pairwise_cons.1 h
    rw [insertSorted]
    split
    · rename_i hlt
      refine List.pairwise_cons.2 ⟨fun t ht => ?_, h⟩
      rcases List.mem_cons.1 ht with rfl | ht
      · exact hlt
      · exact String.lt_trans hlt (hother t ht)
    · rename_i hlt
      split
      · exact h
      · rename_i heq
        refine List.pairwise_cons.2 ⟨fun t ht => ?_, ih hnames⟩
        rcases mem_insertSorted.1 ht with rfl | ht
        · exact Std.lt_of_le_of_ne hlt (Ne.symm heq)
        · exact hother t ht

/-- The names of a list, sorted and without repetition. -/
def sortedSet (names : List String) : List String :=
  names.foldr insertSorted []

end TriggerScript.Text
