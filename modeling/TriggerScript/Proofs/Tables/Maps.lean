import TriggerScript.Proofs.Tables

/-!
# Tables as maps

A table is a map that remembers the order of its keys. The order and the texts follow different
rules: a key stands where it was first written (`keys_putAll`), and it has the text that was written
last (`get?_putAll`). The two together determine a table (`ext_keys`), so laws of tables are shown
key by key. Writing the rows of a table is as good as writing all the rows of which it was made
(`putAll_ofRows`), and therefore tables can be put together in any grouping (`extend_assoc`).
-/

namespace TriggerScript.StringTable

variable {t t' : StringTable}

/-- The keys, in the order of their rows. -/
def keys (t : StringTable) : List String :=
  t.rows.map Prod.fst

/-! ## First occurrences -/

section FirstOccurrences

variable (front keys : List String)

/-- A key at the end is a first occurrence if it is new. -/
lemma eraseDups_concat (key : String) : (keys ++ [key]).eraseDups =
    if key ∈ keys then keys.eraseDups else keys.eraseDups ++ [key] := by
  rw [List.eraseDups_append]
  split_ifs with hkey
  · have hnone : [key].removeAll keys = [] := by simp [List.removeAll, hkey]
    rw [hnone, List.eraseDups_nil, List.append_nil]
  · have hnew : [key].removeAll keys = [key] := by simp [List.removeAll, hkey]
    rw [hnew]
    rfl

lemma eraseDups_of_nodup {keys : List String} (h : keys.Nodup) : keys.eraseDups = keys := by
  induction keys with
  | nil => rfl
  | cons key keys ih =>
    obtain ⟨hkey, hkeys⟩ := List.nodup_cons.1 h
    have hothers : keys.filter (fun k => !k == key) = keys := by
      refine List.filter_eq_self.2 fun k hk => ?_
      have hne : k ≠ key := fun heq => hkey (heq ▸ hk)
      simpa using hne
    rw [List.eraseDups_cons, hothers, ih hkeys]

/-- Later occurrences do not matter, also behind other keys. -/
lemma eraseDups_append_eraseDups : (front ++ keys.eraseDups).eraseDups = (front ++ keys).eraseDups := by
  induction keys using List.reverseRecOn with
  | nil => rfl
  | append_singleton keys key ih =>
    rw [eraseDups_concat, ← List.append_assoc, eraseDups_concat]
    by_cases hkey : key ∈ keys
    · rw [if_pos hkey, if_pos (List.mem_append_right _ hkey), ih]
    · have hmem : key ∈ front ++ keys.eraseDups ↔ key ∈ front ++ keys := by
        rw [List.mem_append, List.mem_append, List.mem_eraseDups]
      rw [if_neg hkey, ← List.append_assoc, eraseDups_concat, ih]
      simp only [hmem]

end FirstOccurrences

/-! ## What writing does to a key -/

/-- A known key keeps its place, and a new one comes last. -/
lemma keys_put (t : StringTable) (key value : String) :
    (t.put key value).keys = if key ∈ t.keys then t.keys else t.keys ++ [key] := by
  split_ifs with hkey
  · exact keys_putRow_of_mem hkey
  · rw [keys, rows_put, putRow_of_not_mem hkey, List.map_append]
    rfl

/-- The first row is the one that counts. -/
lemma lookup_row (row : String × String) (rows : List (String × String)) (key : String) :
    (row :: rows).lookup key = if key = row.1 then some row.2 else rows.lookup key := by
  rw [List.lookup_cons]
  split_ifs with hkey
  · rw [beq_iff_eq.2 hkey]
  · rw [beq_eq_false_iff_ne.2 hkey]

/-- Only the text of the key that is written changes. -/
lemma get?_put (t : StringTable) (key value k : String) :
    (t.put key value).get? k = if k = key then some value else t.get? k := by
  rw [get?, rows_put, get?]
  induction t.rows with
  | nil => exact lookup_row ..
  | cons row rows ih =>
    rw [putRow]
    by_cases hrow : row.1 = key
    · rw [if_pos hrow, lookup_row, lookup_row, hrow]
      split_ifs
      · rfl
      · rfl
    · rw [if_neg hrow, lookup_row, lookup_row, ih]
      by_cases hk : k = row.1
      · have hne : k ≠ key := hk ▸ hrow
        rw [if_pos hk, if_neg hne, if_pos hk]
      · rw [if_neg hk, if_neg hk]

/-- The keys stand in the order in which they were first written. -/
lemma keys_putAll (t : StringTable) (rows : List (String × String)) :
    (t.putAll rows).keys = (t.keys ++ rows.map Prod.fst).eraseDups := by
  induction rows using List.reverseRecOn with
  | nil =>
    rw [List.map_nil, List.append_nil]
    exact (eraseDups_of_nodup t.distinct).symm
  | append_singleton rows row ih =>
    have hstep : t.putAll (rows ++ [row]) = (t.putAll rows).put row.1 row.2 := putAll_append ..
    rw [hstep, keys_put, ih, List.map_append, List.map_singleton, ← List.append_assoc, eraseDups_concat]
    simp only [List.mem_eraseDups]

/-- A key has the text that was written last. -/
lemma get?_putAll (t : StringTable) (rows : List (String × String)) (key : String) :
    (t.putAll rows).get? key = (rows.reverse.lookup key).or (t.get? key) := by
  induction rows generalizing t with
  | nil => rfl
  | cons row rows ih =>
    have hstep : t.putAll (row :: rows) = (t.put row.1 row.2).putAll rows := rfl
    rw [hstep, ih, get?_put, List.reverse_cons, List.lookup_append, Option.or_assoc, lookup_row]
    split_ifs
    · rfl
    · rfl

/-- The table has each key of the rows once, at the place of its first occurrence and with the text
of its last one. -/
structure Holds (t : StringTable) (rows : List (String × String)) : Prop where
  keys : t.keys = (rows.map Prod.fst).eraseDups
  texts : ∀ key, t.get? key = rows.reverse.lookup key

lemma keys_ofRows (rows : List (String × String)) :
    (ofRows rows).keys = (rows.map Prod.fst).eraseDups :=
  keys_putAll empty rows

/-- If the rows behind have different keys, those that are not in front follow in their order. -/
lemma keys_ofRows_append {front rows : List (String × String)} (h : (rows.map Prod.fst).Nodup) :
    (ofRows (front ++ rows)).keys = (front.map Prod.fst).eraseDups ++
      (rows.map Prod.fst).filter (· ∉ front.map Prod.fst) := by
  have hremove : (rows.map Prod.fst).removeAll (front.map Prod.fst) =
      (rows.map Prod.fst).filter (· ∉ front.map Prod.fst) := by
    refine List.filter_congr fun key _ => ?_
    simp
  have hnodup : ((rows.map Prod.fst).filter (· ∉ front.map Prod.fst)).Nodup := h.filter _
  rw [keys_ofRows, List.map_append, List.eraseDups_append, hremove, eraseDups_of_nodup hnodup]

lemma get?_ofRows (rows : List (String × String)) (key : String) :
    (ofRows rows).get? key = rows.reverse.lookup key := by
  have hempty : empty.get? key = none := rfl
  rw [ofRows, get?_putAll, hempty, Option.or_none]

lemma holds_ofRows (rows : List (String × String)) : (ofRows rows).Holds rows :=
  ⟨keys_ofRows rows, get?_ofRows rows⟩

/-! ## Laws of tables -/

/-- The rows can be made from the keys and their texts. -/
lemma rows_eq (t : StringTable) : t.rows = t.keys.map fun key => (key, (t.get? key).getD "") := by
  have hrow : ∀ row ∈ t.rows, (row.1, (t.get? row.1).getD "") = row := by
    intro row hrow
    rw [get?_of_mem hrow, Option.getD_some]
  rw [keys, List.map_map]
  exact (List.map_congr_left hrow).trans (List.map_id _) |>.symm

/-- A table is determined by its keys in their order and by the text of each key. -/
lemma ext_keys (hkeys : t.keys = t'.keys) (hget : ∀ key, t.get? key = t'.get? key) : t = t' := by
  apply StringTable.ext
  rw [t.rows_eq, t'.rows_eq, hkeys]
  simp only [hget]

/-- Read from the end, a table has the same texts. -/
lemma lookup_reverse (t : StringTable) (key : String) : t.rows.reverse.lookup key = t.get? key := by
  rw [← get?_ofRows, ofRows_rows]

/-- Writing the rows of a table has the effect of writing the rows of which it was made. -/
lemma putAll_ofRows (t : StringTable) (rows : List (String × String)) :
    t.putAll (ofRows rows).rows = t.putAll rows := by
  refine ext_keys ?_ fun key => ?_
  · have hkeys : (ofRows rows).rows.map Prod.fst = (rows.map Prod.fst).eraseDups := keys_ofRows rows
    rw [keys_putAll, keys_putAll, hkeys, eraseDups_append_eraseDups]
  · rw [get?_putAll, get?_putAll, lookup_reverse, get?_ofRows]

/-- Tables can be put together in any grouping. -/
lemma extend_assoc (a b c : StringTable) : (a.extend b).extend c = a.extend (b.extend c) := by
  have hmade : b.extend c = ofRows (b.rows ++ c.rows) := by
    rw [ofRows, putAll_append, ← ofRows, ofRows_rows]
    rfl
  calc (a.extend b).extend c = a.putAll (b.rows ++ c.rows) := (putAll_append ..).symm
    _ = a.putAll (ofRows (b.rows ++ c.rows)).rows := (putAll_ofRows ..).symm
    _ = a.extend (b.extend c) := by rw [hmade, extend]

lemma extend_empty (t : StringTable) : t.extend empty = t :=
  rfl

lemma empty_extend (t : StringTable) : empty.extend t = t :=
  ofRows_rows t

end TriggerScript.StringTable
