import Mathlib.Data.List.Nodup
import Mathlib.Data.List.TakeWhile
import Mathlib.Tactic.Common
import TriggerScript.Xml
import TriggerScript.Xml.Reader

/-!
# Texts and tags as they are written

A text keeps all its characters through escaping, and the blanks around it can be taken away before or
after that (`trimmed_escaped`, `unescaped?_flatMap`). A tag is split off where it ends, whatever its
attributes hold, and gives back its name and its attributes (`pieces_opening`, `node?_tagChars`), if the
names are made of letters and no key stands twice.
-/

namespace TriggerScript.Xml

/-! ## Letters -/

/-- A tag or a key that can be written as it is: letters, and at least one. -/
def IsName (s : String) : Prop :=
  s.toList ≠ [] ∧ ∀ c ∈ s.toList, c.isAlpha

instance (s : String) : Decidable (IsName s) :=
  decidable_of_iff (s.toList ≠ [] ∧ s.toList.all Char.isAlpha) (by rw [List.all_eq_true, IsName])

/-- The characters that have a meaning in markup. -/
def marks : List Char :=
  ['<', '>', '&', '\'', '"', ';', '=', '/', '!', '?']

/-- The characters that do not count around a text. -/
def blanks : List Char :=
  [' ', '\t', '\r', '\n']

lemma isBlank_eq_false_iff {c : Char} : isBlank c = false ↔ c ∉ blanks := by
  simp [isBlank, blanks, and_assoc]

/-- A letter is no mark and no blank. -/
lemma not_mark_of_isAlpha {c : Char} (h : c.isAlpha) : c ∉ marks ∧ isBlank c = false := by
  have hkind : (marks ++ blanks).all fun d => !d.isAlpha := by decide
  rw [isBlank_eq_false_iff, ← not_or, ← List.mem_append]
  intro hc
  simpa [h] using List.all_eq_true.1 hkind c hc

lemma not_mark_of_isBlank {c : Char} (h : isBlank c) : c ∉ marks := by
  have hkind : marks.all fun d => !isBlank d := by decide
  intro hc
  simpa [h] using List.all_eq_true.1 hkind c hc

/-! ## Escapes -/

/-- A character is written as it is, unless it has a meaning in markup: then it has a name. -/
lemma escapedChar_cases (c : Char) :
    (c ∉ ['<', '>', '&', '\'', '"'] ∧ escapedChar c = [c]) ∨
      c ∈ marks ∧ ∃ name, name.all Char.isAlpha ∧ entity? name = some c ∧
        escapedChar c = '&' :: name ++ [';'] := by
  by_cases hc : c ∈ ['<', '>', '&', '\'', '"']
  · right
    simp only [List.mem_cons, List.not_mem_nil, or_false] at hc
    rcases hc with rfl | rfl | rfl | rfl | rfl
    · exact ⟨by decide, ['l', 't'], by decide, rfl, rfl⟩
    · exact ⟨by decide, ['g', 't'], by decide, rfl, rfl⟩
    · exact ⟨by decide, ['a', 'm', 'p'], by decide, rfl, rfl⟩
    · exact ⟨by decide, ['a', 'p', 'o', 's'], by decide, rfl, rfl⟩
    · exact ⟨by decide, ['q', 'u', 'o', 't'], by decide, rfl, rfl⟩
  · left
    refine ⟨hc, ?_⟩
    simp only [List.mem_cons, List.not_mem_nil, or_false, not_or] at hc
    simp [escapedChar, hc]

/-- The name of a character up to its end. -/
lemma unescapedFrom_name {name : List Char} (hname : ∀ d ∈ name, d.isAlpha) (cs rest : List Char) :
    unescapedFrom (some cs) (name ++ ';' :: rest) =
      (entity? (cs.reverse ++ name)).bind fun c => (unescapedFrom none rest).map (c :: ·) := by
  induction name generalizing cs with
  | nil =>
    simp only [List.nil_append, List.append_nil, unescapedFrom]
    cases entity? cs.reverse <;> cases unescapedFrom none rest <;> rfl
  | cons d name ih =>
    obtain ⟨hd, hname⟩ := List.forall_mem_cons.1 hname
    have hmarks := (not_mark_of_isAlpha hd).1
    have hamp : d ≠ '&' := fun h => hmarks (by simp [h, marks])
    have hend : d ≠ ';' := fun h => hmarks (by simp [h, marks])
    rw [List.cons_append, unescapedFrom, if_neg hamp, if_neg hend, ih hname]
    simp

lemma unescapedFrom_escapedChar (c : Char) (rest : List Char) :
    unescapedFrom none (escapedChar c ++ rest) = (unescapedFrom none rest).map (c :: ·) := by
  obtain ⟨hc, hchars⟩ | ⟨-, name, hname, hentity, hchars⟩ := escapedChar_cases c
  · have hamp : c ≠ '&' := fun h => hc (by simp [h])
    rw [hchars, List.singleton_append, unescapedFrom, if_neg hamp]
  · rw [hchars, List.append_assoc, List.cons_append, unescapedFrom, if_pos rfl, List.singleton_append,
      unescapedFrom_name (List.all_eq_true.1 hname), List.reverse_nil, List.nil_append, hentity,
      Option.bind_some]

lemma unescapedFrom_flatMap (cs : List Char) :
    unescapedFrom none (cs.flatMap escapedChar) = some cs := by
  induction cs with
  | nil => rfl
  | cons c cs ih => rw [List.flatMap_cons, unescapedFrom_escapedChar, ih, Option.map_some]

lemma flatMap_escapedChar_eq_nil_iff {cs : List Char} : cs.flatMap escapedChar = [] ↔ cs = [] := by
  constructor
  · intro h
    have hread := unescapedFrom_flatMap cs
    rw [h] at hread
    exact (Option.some.inj hread).symm
  · rintro rfl
    rfl

/-- An escaped text is read back. -/
theorem unescaped?_flatMap (cs : List Char) :
    unescaped? (cs.flatMap escapedChar) = some (String.ofList cs) := by
  rw [unescaped?, unescapedFrom_flatMap, Option.map_some]

/-- Escaping leaves nothing that could be taken for a tag or the end of a value. -/
lemma not_mem_escaped (s : String) : '<' ∉ escaped s ∧ '"' ∉ escaped s := by
  have hchar : ∀ c, '<' ∉ escapedChar c ∧ '"' ∉ escapedChar c := by
    intro c
    obtain ⟨hc, hchars⟩ | ⟨-, name, hname, -, hchars⟩ := escapedChar_cases c
    · simp only [List.mem_cons, not_or] at hc
      simp [hchars, Ne.symm hc.1, Ne.symm hc.2.2.2.2.1]
    · have hletter : ∀ d ∈ marks, d ∉ name := fun d hd hmem =>
        (not_mark_of_isAlpha (List.all_eq_true.1 hname d hmem)).1 hd
      simp [hchars, hletter '<' (by decide), hletter '"' (by decide)]
  simp only [escaped, List.mem_flatMap, not_exists, not_and]
  exact ⟨fun c _ => (hchar c).1, fun c _ => (hchar c).2⟩

/-! ## Blanks -/

/-- A text without the blanks at its two ends. -/
def trimmed (cs : List Char) : List Char :=
  trimEnd (cs.dropWhile isBlank)

/-- A blank stays as it is, and nothing else begins or ends with a blank. -/
lemma escapedChar_blank (c : Char) :
    (isBlank c → escapedChar c = [c]) ∧ (isBlank c = false →
      (∃ d ds, escapedChar c = d :: ds ∧ isBlank d = false) ∧
        ∃ d ds, (escapedChar c).reverse = d :: ds ∧ isBlank d = false) := by
  obtain ⟨-, hchars⟩ | ⟨hc, name, -, -, hchars⟩ := escapedChar_cases c
  · exact ⟨fun _ => hchars, fun h => ⟨⟨c, [], hchars, h⟩, c, [], by rw [hchars]; rfl, h⟩⟩
  · refine ⟨fun h => absurd hc (not_mark_of_isBlank h), fun _ => ⟨⟨_, _, hchars, rfl⟩, ?_⟩⟩
    exact ⟨';', (('&' :: name).reverse), by rw [hchars, List.reverse_append]; rfl, rfl⟩

/-- Blanks at the start stay blanks, and nothing else becomes a blank. -/
lemma dropWhile_isBlank_flatMap {f : Char → List Char} (hblank : ∀ c, isBlank c → f c = [c])
    (hother : ∀ c, isBlank c = false → ∃ d ds, f c = d :: ds ∧ isBlank d = false) (cs : List Char) :
    (cs.flatMap f).dropWhile isBlank = (cs.dropWhile isBlank).flatMap f := by
  induction cs with
  | nil => rfl
  | cons c cs ih =>
    cases hc : isBlank c with
    | true => simp [hblank c hc, hc, ih]
    | false =>
      obtain ⟨d, ds, hf, hd⟩ := hother c hc
      simp [hf, hc, hd]

/-- The blanks around a text can be taken away before it is escaped. -/
theorem trimmed_escaped (s : String) :
    trimmed (escaped s) = (trimmed s.toList).flatMap escapedChar := by
  have hstart := dropWhile_isBlank_flatMap (fun c => (escapedChar_blank c).1)
    (fun c h => ((escapedChar_blank c).2 h).1)
  have hend := dropWhile_isBlank_flatMap (f := fun c => (escapedChar c).reverse)
    (fun c h => by rw [(escapedChar_blank c).1 h, List.reverse_singleton])
    (fun c h => ((escapedChar_blank c).2 h).2)
  have hreverse (cs : List Char) : (cs.flatMap escapedChar).reverse =
      cs.reverse.flatMap fun c => (escapedChar c).reverse := List.reverse_flatMap ..
  rw [trimmed, trimmed, escaped, hstart, trimEnd, trimEnd, hreverse, hend, List.reverse_flatMap]
  simp [Function.comp_def]

/-! ## Attributes -/

/-- A key up to the equals sign. -/
lemma rawAttributes_key {ks : List Char} (hks : ∀ c ∈ ks, c.isAlpha) (cs rest : List Char) :
    rawAttributes (.key cs) (ks ++ '=' :: rest) =
      rawAttributes (.beforeValue (cs.reverse ++ ks)) rest := by
  induction ks generalizing cs with
  | nil => simp [rawAttributes]
  | cons c ks ih =>
    obtain ⟨hc, hks⟩ := List.forall_mem_cons.1 hks
    obtain ⟨hmarks, hblank⟩ := not_mark_of_isAlpha hc
    have hequals : c ≠ '=' := fun h => hmarks (by simp [h, marks])
    rw [List.cons_append, rawAttributes, if_neg hequals, hblank, if_neg Bool.false_ne_true, ih hks]
    simp

/-- A value up to its quote. -/
lemma rawAttributes_value {vs : List Char} (hvs : '"' ∉ vs) (key cs rest : List Char) :
    rawAttributes (.value key '"' cs) (vs ++ '"' :: rest) =
      (rawAttributes .between rest).map ((key, cs.reverse ++ vs) :: ·) := by
  induction vs generalizing cs with
  | nil => simp [rawAttributes]
  | cons c vs ih =>
    rw [List.mem_cons, not_or] at hvs
    rw [List.cons_append, rawAttributes, if_neg (Ne.symm hvs.1), ih hvs.2]
    simp

lemma attributeChars_cons (a : String × String) (attributes : List (String × String)) :
    attributeChars (a :: attributes) =
      ' ' :: (a.1.toList ++ '=' :: '"' :: (escaped a.2 ++ '"' :: attributeChars attributes)) := by
  simp [attributeChars]

lemma rawAttributes_attributeChars {attributes : List (String × String)}
    (hkeys : ∀ key ∈ attributes.map Prod.fst, IsName key) :
    rawAttributes .between (attributeChars attributes) =
      some (attributes.map fun a => (a.1.toList, escaped a.2)) := by
  induction attributes with
  | nil => rfl
  | cons a attributes ih =>
    rw [List.map_cons, List.forall_mem_cons] at hkeys
    obtain ⟨⟨hne, hletters⟩, hkeys⟩ := hkeys
    obtain ⟨c, cs, hkey⟩ := List.exists_cons_of_ne_nil hne
    rw [hkey] at hletters
    obtain ⟨hc, hcs⟩ := List.forall_mem_cons.1 hletters
    have hspace : isBlank ' ' = true := rfl
    rw [attributeChars_cons, rawAttributes, hspace, if_pos rfl, hkey, List.cons_append, rawAttributes,
      (not_mark_of_isAlpha hc).2, if_neg Bool.false_ne_true, rawAttributes_key hcs, rawAttributes,
      if_pos (.inl rfl), rawAttributes_value (not_mem_escaped a.2).2, ih hkeys]
    simp [hkey]

lemma keysDistinct_iff (raw : List (List Char × List Char)) :
    keysDistinct raw ↔ (raw.map Prod.fst).Nodup := by
  induction raw with
  | nil => simp [keysDistinct]
  | cons a raw ih =>
    rw [keysDistinct, Bool.and_eq_true, ih, List.map_cons, List.nodup_cons]
    simp only [Bool.not_eq_true', List.any_eq_false, decide_eq_true_eq, List.mem_map, not_exists,
      not_and]

/-- Attributes are read back, whatever their values are. -/
theorem attributes?_attributeChars {attributes : List (String × String)}
    (hkeys : ∀ key ∈ attributes.map Prod.fst, IsName key) (hnodup : (attributes.map Prod.fst).Nodup) :
    attributes? (attributeChars attributes) = some attributes := by
  have hdistinct : keysDistinct (attributes.map fun a => (a.1.toList, escaped a.2)) := by
    have hmap : (attributes.map fun a => (a.1.toList, escaped a.2)).map Prod.fst =
        (attributes.map Prod.fst).map String.toList := by
      simp
    rw [keysDistinct_iff, hmap]
    exact hnodup.map fun _ _ => String.toList_inj.1
  have hvalues : (attributes.map fun a => (a.1.toList, escaped a.2)).mapM (fun a =>
      (unescaped? a.2).map fun value => (String.ofList a.1, value)) = some attributes := by
    rw [List.mapM_map]
    simp only [Function.comp_def, escaped, unescaped?_flatMap, Option.map_some, String.ofList_toList]
    simpa using List.mapM_pure (m := Option) (l := attributes) (f := id)
  rw [attributes?, rawAttributes_attributeChars hkeys, Option.bind_eq_bind, Option.bind_some,
    if_pos hdistinct]
  exact hvalues

/-! ## Tags -/

/-- A text with no end of a tag outside quotes and no quote left open. -/
def Closed (cs : List Char) : Prop :=
  ∀ rest, splitAtTagEnd none (cs ++ rest) = (splitAtTagEnd none rest).map fun p => (cs ++ p.1, p.2)

lemma Closed.nil : Closed [] := by
  intro rest
  simp

lemma Closed.append {cs ds : List Char} (hcs : Closed cs) (hds : Closed ds) : Closed (cs ++ ds) := by
  intro rest
  rw [List.append_assoc, hcs, hds, Option.map_map]
  simp [Function.comp_def]

lemma closed_singleton {c : Char} (hend : c ≠ '>') (hquote : ¬(c = '"' ∨ c = '\'')) : Closed [c] := by
  intro rest
  rw [List.singleton_append, splitAtTagEnd, if_neg hend, if_neg hquote]
  rfl

lemma closed_of_isAlpha {cs : List Char} (h : ∀ c ∈ cs, c.isAlpha) : Closed cs := by
  induction cs with
  | nil => exact .nil
  | cons c cs ih =>
    obtain ⟨hc, hcs⟩ := List.forall_mem_cons.1 h
    have hmarks := (not_mark_of_isAlpha hc).1
    simp only [marks, List.mem_cons, not_or] at hmarks
    exact (closed_singleton hmarks.2.1 (not_or.2 ⟨hmarks.2.2.2.2.1, hmarks.2.2.2.1⟩)).append (ih hcs)

/-- Inside quotes a tag does not end. -/
lemma splitAtTagEnd_quoted {cs : List Char} (h : '"' ∉ cs) (rest : List Char) :
    splitAtTagEnd (some '"') (cs ++ '"' :: rest) =
      (splitAtTagEnd none rest).map fun p => (cs ++ '"' :: p.1, p.2) := by
  induction cs with
  | nil => simp [splitAtTagEnd]
  | cons c cs ih =>
    rw [List.mem_cons, not_or] at h
    rw [List.cons_append, splitAtTagEnd, if_neg (Ne.symm h.1), ih h.2, Option.map_map]
    rfl

lemma closed_quoted {cs : List Char} (h : '"' ∉ cs) : Closed ('"' :: (cs ++ ['"'])) := by
  intro rest
  rw [List.cons_append, List.append_assoc, List.singleton_append, splitAtTagEnd, if_neg (by decide),
    if_pos (.inl rfl), splitAtTagEnd_quoted h, Option.map_map]
  simp [Function.comp_def]

lemma closed_attributeChars {attributes : List (String × String)}
    (hkeys : ∀ key ∈ attributes.map Prod.fst, IsName key) : Closed (attributeChars attributes) := by
  induction attributes with
  | nil => exact .nil
  | cons a attributes ih =>
    rw [List.map_cons, List.forall_mem_cons] at hkeys
    obtain ⟨⟨-, hkey⟩, hkeys⟩ := hkeys
    have hchars : attributeChars (a :: attributes) =
        [' '] ++ a.1.toList ++ ['='] ++ '"' :: (escaped a.2 ++ ['"']) ++ attributeChars attributes := by
      simp [attributeChars_cons]
    have hspace : Closed [' '] := closed_singleton (by decide) (by decide)
    have hequals : Closed ['='] := closed_singleton (by decide) (by decide)
    rw [hchars]
    exact (((hspace.append (closed_of_isAlpha hkey)).append hequals).append
      (closed_quoted (not_mem_escaped a.2).2)).append (ih hkeys)

/-- The names of a tag are made of letters, and no key stands twice. -/
structure WellNamed (tag : String) (attributes : List (String × String)) : Prop where
  tag : IsName tag
  keys : ∀ key ∈ attributes.map Prod.fst, IsName key
  nodup : (attributes.map Prod.fst).Nodup

/-- The text of a tag in front of its end. -/
def tagChars (tag : String) (attributes : List (String × String)) : List Char :=
  tag.toList ++ attributeChars attributes

section WellNamed

variable {tag : String} {attributes : List (String × String)}

lemma WellNamed.closed (h : WellNamed tag attributes) : Closed (tagChars tag attributes) :=
  (closed_of_isAlpha h.tag.2).append (closed_attributeChars h.keys)

lemma WellNamed.exists_cons (h : WellNamed tag attributes) :
    ∃ c cs, tagChars tag attributes = c :: cs ∧ c.isAlpha := by
  obtain ⟨c, cs, htag⟩ := List.exists_cons_of_ne_nil h.tag.1
  exact ⟨c, cs ++ attributeChars attributes, by rw [tagChars, htag, List.cons_append],
    h.tag.2 c (by simp [htag])⟩

/-- A tag ends with a letter or a quote. -/
lemma WellNamed.getLast? (h : WellNamed tag attributes) :
    (tagChars tag attributes).getLast? ≠ some '/' := by
  intro hlast
  rcases List.eq_nil_or_concat' attributes with rfl | ⟨as, a, rfl⟩
  · have hmem : '/' ∈ tag.toList := by
      simpa [tagChars, attributeChars] using List.mem_of_getLast? hlast
    exact absurd (h.tag.2 _ hmem) (by decide)
  · have hend : tagChars tag (as ++ [a]) =
        tag.toList ++ attributeChars as ++ ' ' :: a.1.toList ++ '=' :: '"' :: escaped a.2 ++ ['"'] := by
      simp [tagChars, attributeChars]
    rw [hend, List.getLast?_concat] at hlast
    exact absurd hlast (by decide)

/-- A tag gives back its name and its attributes. -/
theorem node?_tagChars (h : WellNamed tag attributes) :
    node? (tagChars tag attributes) = some { tag, attributes } := by
  have hletter : ∀ c ∈ tag.toList, (!isBlank c) = true := by
    intro c hc
    rw [(not_mark_of_isAlpha (h.tag.2 c hc)).2]
    rfl
  have htake : (attributeChars attributes).takeWhile (!isBlank ·) = [] := by
    cases attributes with
    | nil => rfl
    | cons a as => rw [attributeChars_cons]; rfl
  have hdrop : (attributeChars attributes).dropWhile (!isBlank ·) = attributeChars attributes := by
    cases attributes with
    | nil => rfl
    | cons a as => rw [attributeChars_cons]; rfl
  have hname : tagName (tagChars tag attributes) = tag.toList := by
    rw [tagName, tagChars, List.takeWhile_append_of_pos hletter, htake, List.append_nil]
  have hrest : (tagChars tag attributes).dropWhile (!isBlank ·) = attributeChars attributes := by
    rw [tagChars, List.dropWhile_append_of_pos hletter, hdrop]
  rw [node?, hrest, attributes?_attributeChars h.keys h.nodup, hname, String.ofList_toList]
  rfl

end WellNamed

/-! ## Pieces -/

variable {cs rest : List Char}

/-- Blanks in front of a piece do not count. -/
lemma pieces_blanks {blanks : List Char} (h : ∀ c ∈ blanks, isBlank c) :
    pieces (blanks ++ rest) = pieces rest := by
  induction blanks with
  | nil => rfl
  | cons c blanks ih =>
    obtain ⟨hc, hblanks⟩ := List.forall_mem_cons.1 h
    rw [List.cons_append, pieces, if_pos hc, ih hblanks]

lemma pieces_lineBreak (allowed : Bool) (depth : Nat) :
    pieces (lineBreak allowed depth ++ rest) = pieces rest := by
  apply pieces_blanks
  intro c hc
  cases allowed with
  | false => simp [lineBreak] at hc
  | true =>
    simp only [lineBreak, if_true, List.mem_cons, List.mem_replicate] at hc
    rcases hc with rfl | ⟨-, rfl⟩ <;> rfl

lemma pieces_markup {piece : Piece} (h : markup cs = some (piece, rest)) :
    pieces ('<' :: cs) = piece :: pieces rest := by
  rw [pieces, if_neg (by decide), if_pos rfl]
  split
  · simp_all
  · simp_all

lemma Closed.splitAtTagEnd (h : Closed cs) :
    splitAtTagEnd none (cs ++ '>' :: rest) = some (cs, rest) := by
  rw [h, Xml.splitAtTagEnd, if_pos rfl, Option.map_some, List.append_nil]

lemma pieces_tag {c : Char} (hc : c.isAlpha) (h : Closed (c :: cs)) :
    pieces ('<' :: c :: (cs ++ '>' :: rest)) = tagPiece (c :: cs) :: pieces rest := by
  have hmarks := (not_mark_of_isAlpha hc).1
  simp only [marks, List.mem_cons, not_or] at hmarks
  have hmarkup : markup (c :: (cs ++ '>' :: rest)) =
      (splitAtTagEnd none (c :: cs ++ '>' :: rest)).map fun p => (tagPiece p.1, p.2) := by
    simp [markup, hmarks]
  apply pieces_markup
  rw [hmarkup, h.splitAtTagEnd, Option.map_some]

lemma pieces_opening {tag : String} {attributes : List (String × String)}
    (h : WellNamed tag attributes) :
    pieces ('<' :: (tagChars tag attributes ++ '>' :: rest)) =
      .opening (tagChars tag attributes) :: pieces rest := by
  have hpiece : tagPiece (tagChars tag attributes) = .opening (tagChars tag attributes) :=
    if_neg h.getLast?
  have hclosed := h.closed
  obtain ⟨c, cs, hchars, hc⟩ := h.exists_cons
  rw [hchars] at hclosed hpiece ⊢
  rw [List.cons_append, pieces_tag hc hclosed, hpiece]

lemma pieces_empty {tag : String} {attributes : List (String × String)}
    (h : WellNamed tag attributes) :
    pieces ('<' :: (tagChars tag attributes ++ '/' :: '>' :: rest)) =
      .empty (tagChars tag attributes) :: pieces rest := by
  have hpiece : tagPiece (tagChars tag attributes ++ ['/']) = .empty (tagChars tag attributes) := by
    rw [tagPiece, List.getLast?_concat, if_pos rfl, List.dropLast_concat]
  have hclosed := h.closed.append (closed_singleton (c := '/') (by decide) (by decide))
  have hend : '/' :: '>' :: rest = ['/'] ++ '>' :: rest := rfl
  obtain ⟨c, cs, hchars, hc⟩ := h.exists_cons
  rw [hchars, List.cons_append] at hclosed hpiece
  rw [hchars, hend, List.cons_append, ← List.append_assoc, pieces_tag hc hclosed, hpiece]

lemma pieces_closing {tag : String} (h : IsName tag) :
    pieces ('<' :: '/' :: (tag.toList ++ '>' :: rest)) = .closing tag.toList :: pieces rest := by
  apply pieces_markup
  rw [markup, (closed_of_isAlpha h.2).splitAtTagEnd, Option.map_some]

/-- A text in front of a tag is a piece without the blanks around it, unless these are all. -/
lemma pieces_text (h : '<' ∉ cs) (rest : List Char) :
    pieces (cs ++ '<' :: rest) =
      (if trimmed cs = [] then [] else [.text (trimmed cs)]) ++ pieces ('<' :: rest) := by
  induction cs with
  | nil => rfl
  | cons c cs ih =>
    rw [List.mem_cons, not_or] at h
    cases hc : isBlank c with
    | true =>
      have htrimmed : trimmed (c :: cs) = trimmed cs := by simp [trimmed, hc]
      rw [List.cons_append, pieces, if_pos hc, ih h.2, htrimmed]
    | false =>
      have htrimmed : trimmed (c :: cs) = trimEnd (c :: cs) := by simp [trimmed, hc]
      have hne : trimEnd (c :: cs) ≠ [] := by
        rw [trimEnd, ne_eq, List.reverse_eq_nil_iff, List.dropWhile_eq_nil_iff]
        simp [hc]
      have htext : ∀ d ∈ cs, decide (d ≠ '<') = true := by
        rintro d hd
        exact decide_eq_true fun hlt => h.2 (hlt ▸ hd)
      have htake : (cs ++ '<' :: rest).takeWhile (· ≠ '<') = cs := by
        rw [List.takeWhile_append_of_pos htext]
        simp
      have hdrop : (cs ++ '<' :: rest).dropWhile (· ≠ '<') = '<' :: rest := by
        rw [List.dropWhile_append_of_pos htext]
        simp
      rw [List.cons_append, pieces, if_neg (by simp [hc]), if_neg (Ne.symm h.1), htake, hdrop, htrimmed,
        if_neg hne, List.singleton_append]

/-- The declaration is a piece of its own. -/
lemma pieces_declaration : pieces (declaration.toList ++ rest) = .skipped :: pieces rest := by
  have hchars : declaration.toList ++ rest = '<' :: '?' ::
    ("xml version=\"1.0\" encoding=\"utf-8\"?".toList ++ '>' :: rest) := by
    rfl
  rw [hchars]
  apply pieces_markup
  rw [markup]
  rfl

end TriggerScript.Xml
