import Mathlib.Data.List.Basic
import Mathlib.Data.List.TakeWhile
import TriggerScript.Proofs.Tables.Maps

/-!
# Tables as texts

The text of a table has no escapes, so not every table comes back from its text. A line is read as a row
exactly if it is the line of that row and the key is not empty and has no equals sign
(`rowOfLine?_eq_some_iff`). A table therefore comes back if its rows are plain: each is one line, with a
key that ends at the first equals sign. Whatever is read from a text has plain rows, so no other table
comes back, and reading, writing and reading again changes nothing (`reads_back_iff_plain`).
-/

namespace TriggerScript.StringTable

variable {row : String × String} {rows : List (String × String)} {cs line rest : List Char}

/-- No line ends within these characters. -/
def OneLine (cs : List Char) : Prop :=
  '\r' ∉ cs ∧ '\n' ∉ cs

instance OneLine.decidable (cs : List Char) : Decidable (OneLine cs) :=
  inferInstanceAs (Decidable (_ ∧ _))

/-- A row that its line tells: it has a key without an equals sign, and neither the key nor the text ends
the line. -/
def Plain (row : String × String) : Prop :=
  row.1 ≠ "" ∧ '=' ∉ row.1.toList ∧ OneLine row.1.toList ∧ OneLine row.2.toList

instance Plain.decidable (row : String × String) : Decidable (Plain row) :=
  inferInstanceAs (Decidable (_ ∧ _))

lemma oneLine_iff : OneLine cs ↔ ∀ c ∈ cs, isLineEnd c = false := by
  constructor
  · rintro ⟨hreturn, hfeed⟩ c hc
    have hne : c ≠ '\r' ∧ c ≠ '\n' := ⟨fun h => hreturn (h ▸ hc), fun h => hfeed (h ▸ hc)⟩
    simp [isLineEnd, hne]
  · intro h
    exact ⟨fun hc => absurd (h _ hc) (by decide), fun hc => absurd (h _ hc) (by decide)⟩

lemma OneLine.reverse (h : OneLine cs) : OneLine cs.reverse :=
  ⟨fun hc => h.1 (List.mem_reverse.1 hc), fun hc => h.2 (List.mem_reverse.1 hc)⟩

lemma oneLine_rowChars : OneLine (rowChars row) ↔ OneLine row.1.toList ∧ OneLine row.2.toList := by
  simp only [OneLine, rowChars, List.mem_append, List.mem_cons, not_or]
  constructor
  · rintro ⟨⟨hr, -, hr'⟩, hn, -, hn'⟩
    exact ⟨⟨hr, hn⟩, hr', hn'⟩
  · rintro ⟨⟨hr, hn⟩, hr', hn'⟩
    exact ⟨⟨hr, by decide, hr'⟩, hn, by decide, hn'⟩

/-! ## Lines -/

/-- No line that is read has an end within it. -/
lemma oneLine_of_mem_linesFrom (hline : OneLine line) {l : List Char} (hl : l ∈ linesFrom line cs) :
    OneLine l := by
  fun_induction linesFrom line cs with
  | case1 => cases hl
  | case2 =>
    obtain rfl := List.mem_singleton.1 hl
    exact hline.reverse
  | case3 line c rest hc hempty ih => exact ih (by decide) hl
  | case4 line c rest hc hline' ih =>
    rcases List.mem_cons.1 hl with rfl | hl
    · exact hline.reverse
    · exact ih (by decide) hl
  | case5 line c rest hc ih =>
    have hcons : OneLine (c :: line) := by
      rw [oneLine_iff] at hline ⊢
      exact List.forall_mem_cons.2 ⟨by simpa using hc, hline⟩
    exact ih hcons hl

/-- Characters that end no line are gathered. -/
lemma linesFrom_append (hcs : OneLine cs) :
    linesFrom line (cs ++ rest) = linesFrom (cs.reverse ++ line) rest := by
  rw [oneLine_iff] at hcs
  induction cs generalizing line with
  | nil => rfl
  | cons c cs ih =>
    obtain ⟨hc, hcs⟩ := List.forall_mem_cons.1 hcs
    rw [List.cons_append, linesFrom, if_neg (by simp [hc]), ih hcs, List.reverse_cons, List.append_assoc]
    rfl

lemma linesFrom_line_end (hcs : OneLine cs) (hne : cs ≠ []) :
    linesFrom [] (cs ++ '\n' :: rest) = cs :: linesFrom [] rest := by
  have hempty : ¬cs.reverse.isEmpty := by simpa using hne
  rw [linesFrom_append hcs, List.append_nil, linesFrom, if_pos (by decide), if_neg hempty,
    List.reverse_reverse]

lemma linesFrom_last (hcs : OneLine cs) (hne : cs ≠ []) : linesFrom [] cs = [cs] := by
  have hempty : ¬cs.reverse.isEmpty := by simpa using hne
  have hgather : linesFrom [] (cs ++ []) = linesFrom (cs.reverse ++ []) [] := linesFrom_append hcs
  rw [List.append_nil, List.append_nil] at hgather
  rw [hgather, linesFrom, if_neg hempty, List.reverse_reverse]

lemma rowChars_ne_nil : rowChars row ≠ [] := by
  simp [rowChars]

/-- The lines of a text are those of its rows, if each row is one line. -/
lemma lines_rowsChars (h : ∀ row ∈ rows, OneLine (rowChars row)) :
    linesFrom [] (rowsChars rows) = rows.map rowChars := by
  fun_induction rowsChars rows with
  | case1 => rfl
  | case2 row => exact linesFrom_last (h row List.mem_cons_self) rowChars_ne_nil
  | case3 row rest _ ih =>
    obtain ⟨hrow, hrest⟩ := List.forall_mem_cons.1 h
    rw [linesFrom_line_end hrow rowChars_ne_nil, ih hrest, List.map_cons]

/-! ## Rows -/

/-- A line is read as a row exactly if it is the line of that row and the key ends at the first equals
sign. -/
lemma rowOfLine?_eq_some_iff : rowOfLine? line = some row ↔
    line = rowChars row ∧ row.1 ≠ "" ∧ '=' ∉ row.1.toList := by
  obtain ⟨key, value⟩ := row
  constructor
  · intro h
    have hsplit := List.takeWhile_append_dropWhile (p := (decide <| · ≠ '=')) (l := line)
    rcases htake : line.takeWhile (· ≠ '=') with _ | ⟨c, front⟩
    · rw [rowOfLine?, htake] at h
      cases h
    rcases hdrop : line.dropWhile (· ≠ '=') with _ | ⟨d, back⟩
    · rw [rowOfLine?, htake, hdrop] at h
      cases h
    rw [rowOfLine?, htake, hdrop] at h
    obtain ⟨rfl, rfl⟩ := Prod.mk.inj (Option.some.inj h)
    have hfront : '=' ∉ c :: front := by
      intro hmem
      rw [← htake] at hmem
      simpa using List.mem_takeWhile_imp hmem
    have hequals : d = '=' := by
      have hhead := List.head?_dropWhile_not (fun c => decide (c ≠ '=')) line
      rw [hdrop] at hhead
      simpa using hhead
    rw [htake, hdrop, hequals] at hsplit
    refine ⟨?_, ?_, ?_⟩
    · rw [rowChars, String.toList_ofList, String.toList_ofList, hsplit]
    · simp
    · rwa [String.toList_ofList]
  · rintro ⟨rfl, hkey, hequals⟩
    have hne : key.toList ≠ [] := by simpa using hkey
    have hfront : ∀ c ∈ key.toList, decide (c ≠ '=') = true := fun c hc =>
      decide_eq_true fun heq => hequals (heq ▸ hc)
    have htake : (rowChars (key, value)).takeWhile (· ≠ '=') = key.toList := by
      rw [rowChars, List.takeWhile_append_of_pos hfront]
      simp
    have hdrop : (rowChars (key, value)).dropWhile (· ≠ '=') = '=' :: value.toList := by
      rw [rowChars, List.dropWhile_append_of_pos hfront]
      simp
    obtain ⟨c, cs, hcs⟩ := List.exists_cons_of_ne_nil hne
    rw [rowOfLine?, htake, hdrop, hcs]
    simp only [← hcs, String.ofList_toList]

lemma rowOfLine?_rowChars (h : Plain row) : rowOfLine? (rowChars row) = some row :=
  rowOfLine?_eq_some_iff.2 ⟨rfl, h.1, h.2.1⟩

/-! ## Reading back -/

/-- A row of a table is one of those of which the table was made. -/
lemma mem_of_mem_ofRows (h : row ∈ (ofRows rows).rows) : row ∈ rows := by
  have hget : rows.reverse.lookup row.1 = some row.2 := by
    rw [← get?_ofRows]
    exact get?_of_mem h
  obtain ⟨before, after, hrows, -⟩ := List.lookup_eq_some_iff.1 hget
  have hmem : row ∈ rows.reverse := by
    rw [hrows]
    exact List.mem_append_right _ List.mem_cons_self
  exact List.mem_reverse.1 hmem

/-- What is read from a text has plain rows. -/
lemma plain_of_mem_ofText {s : String} (h : row ∈ (ofText s).rows) : Plain row := by
  obtain ⟨line, hline, hrow⟩ := List.mem_filterMap.1 (mem_of_mem_ofRows h)
  obtain ⟨rfl, hkey, hequals⟩ := rowOfLine?_eq_some_iff.1 hrow
  have hone : OneLine (rowChars row) := oneLine_of_mem_linesFrom (by decide) hline
  obtain ⟨honekey, honevalue⟩ := oneLine_rowChars.1 hone
  exact ⟨hkey, hequals, honekey, honevalue⟩

/-- A table with plain rows comes back from its text. -/
lemma ofText_render {t : StringTable} (hplain : ∀ row ∈ t.rows, Plain row) :
    ofText t.render = t := by
  have hlines : lines t.render = t.rows.map rowChars := by
    rw [lines, render, String.toList_ofList]
    exact lines_rowsChars fun row hrow => oneLine_rowChars.2 (hplain row hrow).2.2
  have hrows : (t.rows.map rowChars).filterMap rowOfLine? = t.rows := by
    rw [List.filterMap_map]
    refine (List.filterMap_congr fun row hrow => ?_).trans List.filterMap_some
    exact rowOfLine?_rowChars (hplain row hrow)
  rw [ofText, hlines, hrows, ofRows_rows]

/-- A table comes back from its text, with its rows in the same order, exactly if its rows are plain. And
a table that was read from a text comes back. -/
theorem reads_back_iff_plain :
    (∀ t : StringTable, ofText t.render = t ↔ ∀ row ∈ t.rows, Plain row) ∧
      ∀ s : String, ofText (ofText s).render = ofText s := by
  constructor
  · intro t
    constructor
    · intro hback row hrow
      rw [← hback] at hrow
      exact plain_of_mem_ofText hrow
    · exact ofText_render
  · intro s
    exact ofText_render fun row hrow => plain_of_mem_ofText hrow

/-- Two tables with the same text. The one whose keys have no equals sign comes back. -/
theorem reads_back_iff_plain_sample :
    let t : StringTable := ⟨[("k", "v=w"), ("x", "")], by decide⟩
    let u : StringTable := ⟨[("k=v", "w"), ("x", "")], by decide⟩
    t.render = u.render ∧ ofText t.render = t ∧ ofText u.render ≠ u := by
  intro t u
  refine ⟨by decide, (reads_back_iff_plain.1 t).2 (by decide), fun hback => ?_⟩
  exact absurd ((reads_back_iff_plain.1 u).1 hback) (by decide)

end TriggerScript.StringTable
