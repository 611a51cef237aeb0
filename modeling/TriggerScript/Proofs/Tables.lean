import Mathlib.Data.List.Induction
import Mathlib.Tactic.Common
import TriggerScript.StringTable

/-!
# Rows of tables

The rows of a table stand in the order in which their keys were first written, and each has the text that
was written last (`StringTable.rows_ofRows`). So a table comes back when its rows are written one after
the other (`StringTable.ofRows_rows`).
-/

namespace TriggerScript

namespace StringTable

variable {key value : String} {rows : List (String × String)}

@[simp] lemma rows_put (t : StringTable) : (t.put key value).rows = putRow key value t.rows := rfl

/-- The text of a key is in its row. -/
lemma get?_of_mem {t : StringTable} (hrow : (key, value) ∈ t.rows) : t.get? key = some value := by
  obtain ⟨before, after, hrows⟩ := List.append_of_mem hrow
  rw [get?, List.lookup_eq_some_iff]
  refine ⟨before, after, hrows, fun row hbefore => ?_⟩
  have h := t.distinct
  rw [hrows, List.map_append, List.nodup_append] at h
  have hne : row.1 ≠ key := h.2.2 _ (List.mem_map_of_mem hbefore) _ List.mem_cons_self
  exact bne_iff_ne.2 (Ne.symm hne)

/-! ### Rows written one after the other -/

/-- The text of a key that has the text `text`, when the rows are written. -/
def lastText (key : String) : String → List (String × String) → String
  | text, [] => text
  | text, (k, t) :: rest => lastText key (if k = key then t else text) rest

/-- The rows of a table into which rows are written: each key stands at its first place with its last
text. -/
def merged : List (String × String) → List (String × String)
  | [] => []
  | (k, t) :: rest => (k, lastText k t rest) :: (merged rest).filter (·.1 ≠ k)

lemma putAll_append (t : StringTable) (rows rest : List (String × String)) :
    t.putAll (rows ++ rest) = (t.putAll rows).putAll rest :=
  List.foldl_append

lemma lastText_append (text k t : String) :
    lastText key text (rows ++ [(k, t)]) = if k = key then t else lastText key text rows := by
  induction rows generalizing text with
  | nil => rfl
  | cons row rows ih => exact ih _

lemma lastText_of_not_mem (h : key ∉ rows.map Prod.fst) (text : String) :
    lastText key text rows = text := by
  induction rows with
  | nil => rfl
  | cons row rows ih =>
    rw [List.map_cons, List.mem_cons, not_or] at h
    rw [lastText, if_neg (Ne.symm h.1), ih h.2]

lemma filter_putRow_self :
    (putRow key value rows).filter (·.1 ≠ key) = rows.filter (·.1 ≠ key) := by
  induction rows with
  | nil => simp [putRow]
  | cons row rows ih =>
    rw [putRow]
    split_ifs with heq
    · simp [heq]
    · rw [List.filter_cons_of_pos (by simpa using heq), List.filter_cons_of_pos (by simpa using heq), ih]

lemma filter_putRow_of_ne {k : String} (h : k ≠ key) :
    (putRow key value rows).filter (·.1 ≠ k) = putRow key value (rows.filter (·.1 ≠ k)) := by
  induction rows with
  | nil => simp [putRow, Ne.symm h]
  | cons row rows ih =>
    by_cases hrow : row.1 = k
    · have hkey : row.1 ≠ key := hrow ▸ h
      rw [putRow, if_neg hkey, List.filter_cons_of_neg (by simpa using hrow),
        List.filter_cons_of_neg (by simpa using hrow), ih]
    · rw [List.filter_cons_of_pos (by simpa using hrow), putRow, putRow]
      split_ifs with heq
      · rw [List.filter_cons_of_pos (by simpa using hrow)]
      · rw [List.filter_cons_of_pos (by simpa using hrow), ih]

/-- Writing one row more. -/
lemma merged_append : merged (rows ++ [(key, value)]) = putRow key value (merged rows) := by
  induction rows with
  | nil => rfl
  | cons row rows ih =>
    obtain ⟨k, t⟩ := row
    rw [List.cons_append, merged, merged, putRow, lastText_append, ih]
    by_cases heq : key = k
    · subst heq
      rw [if_pos rfl, if_pos rfl, filter_putRow_self]
    · rw [if_neg heq, if_neg (Ne.symm heq), filter_putRow_of_ne (Ne.symm heq)]

/-- The rows of a table stand in the order in which their keys were first written, and each has the text
that was written last. -/
lemma rows_ofRows (rows : List (String × String)) : (ofRows rows).rows = merged rows := by
  induction rows using List.reverseRecOn with
  | nil => rfl
  | append_singleton rows row ih =>
    rw [merged_append, ← ih, ofRows, putAll_append]
    exact rows_put _

lemma mem_keys_merged : key ∈ (merged rows).map Prod.fst ↔ key ∈ rows.map Prod.fst := by
  induction rows with
  | nil => rfl
  | cons row rows ih =>
    by_cases heq : key = row.1
    · simp [merged, heq]
    · simp only [merged, List.map_cons, List.mem_cons, heq, false_or, ← ih]
      simp only [List.mem_map, List.mem_filter, decide_eq_true_eq]
      refine exists_congr fun r => ⟨fun h => ⟨h.1.1, h.2⟩, fun h => ⟨⟨h.1, ?_⟩, h.2⟩⟩
      rw [h.2]
      exact heq

/-- Writing a new key is not reported. -/
lemma putEvents_ofRows (h : key ∉ rows.map Prod.fst) : (ofRows rows).putEvents key value = [] := by
  have hnone : (ofRows rows).get? key = none := by
    rw [get?, rows_ofRows, List.lookup_eq_none_iff]
    intro row hrow
    rw [bne_iff_ne]
    rintro rfl
    exact h (mem_keys_merged.1 (List.mem_map_of_mem hrow))
  rw [putEvents, hnone]

lemma merged_of_nodup (h : (rows.map Prod.fst).Nodup) : merged rows = rows := by
  induction rows with
  | nil => rfl
  | cons row rows ih =>
    obtain ⟨hrow, hrows⟩ := List.nodup_cons.1 h
    have hfilter : rows.filter (·.1 ≠ row.1) = rows := by
      refine List.filter_eq_self.2 fun r hr => decide_eq_true fun heq => hrow ?_
      exact heq ▸ List.mem_map_of_mem hr
    rw [merged, ih hrows, lastText_of_not_mem hrow, hfilter]

/-- A table comes back from its rows. -/
lemma ofRows_rows (t : StringTable) : ofRows t.rows = t :=
  StringTable.ext ((rows_ofRows _).trans (merged_of_nodup t.distinct))

end StringTable

end TriggerScript
