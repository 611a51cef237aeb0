import TriggerScript.Proofs.Lexing.Partition
import TriggerScript.Proofs.Lexing.Words

/-!
# Layout between tokens

Of the patterns of the two languages only that of strings has a use for the characters with which layout
begins, and a string ends with its second quote. So a token that is read from its text alone is read in
the same way in front of layout (`Lexicon.Spaced.reads_append`), and words that are tokens on their own
give just these tokens when separators stand between them (`Lexicon.tokenize_separated`).
-/

namespace TriggerScript

open Words

section Context

variable {p : Pattern} {raw rest taken : String} {x : Char}

lemma notMem_of_takes (h : Takes p raw taken) (hp : p.avoids x) : x ∉ taken.toList := by
  obtain ⟨-, c', hmatch, htext⟩ := h
  obtain ⟨text, hx, htext'⟩ := (Pattern.matches_of_match? hmatch).exists_notMem hp
  have htaken : taken.toList = text := List.append_cancel_right (htext.symm.trans htext')
  rwa [htaken]

/-- A pattern that has no use for the first character of a text takes the same in front of it. -/
lemma takes_append_iff (hp : ∀ y ∈ rest.toList.head?, p.avoids y) :
    Takes p (raw ++ rest) taken ↔ Takes p raw taken := by
  have hmatch : p.match? (Cursor.start (raw ++ rest).toList) =
      (p.match? (Cursor.start raw.toList)).map (·.extend rest.toList) := by
    rw [String.toList_append, Cursor.start_append, Pattern.match?_extend hp]
  refine and_congr_right fun _ => ⟨?_, ?_⟩
  · rintro ⟨c', hc', htext⟩
    obtain ⟨c₁, hc₁, rfl⟩ := Option.map_eq_some_iff.1 (hmatch.symm.trans hc')
    refine ⟨c₁, hc₁, List.append_cancel_right (?_ : _ ++ rest.toList = _)⟩
    rw [← String.toList_append, htext, List.append_assoc]
    rfl
  · rintro ⟨c₁, hc₁, htext⟩
    refine ⟨c₁.extend rest.toList, hmatch.trans (Option.map_eq_some_iff.2 ⟨c₁, hc₁, rfl⟩), ?_⟩
    rw [String.toList_append, htext, List.append_assoc]
    rfl

lemma begins_append_iff {word : String} (hrest : ∀ y ∈ rest.toList.head?, y ∉ word.toList) :
    Begins (raw ++ rest) word ↔ Begins raw word := by
  refine and_congr_right fun _ => ⟨?_, ?_⟩
  · rintro ⟨tail, htext⟩
    have htext : raw.toList ++ rest.toList = word.toList ++ tail.toList := by
      rw [← String.toList_append, htext, String.toList_append]
    rcases List.append_eq_append_iff.1 htext with ⟨more, hword, hmore⟩ | ⟨more, hraw, -⟩
    · cases more with
      | nil => exact ⟨String.ofList [], eq_append_ofList (by simpa using hword.symm)⟩
      | cons y more =>
        refine absurd ?_ (hrest y (by rw [hmore]; rfl))
        rw [hword]
        simp
    · exact ⟨String.ofList more, eq_append_ofList hraw⟩
  · rintro ⟨tail, rfl⟩
    exact ⟨tail ++ rest, String.append_assoc ..⟩

end Context

lemma head?_append {s rest : String} (hne : s ≠ "") :
    (s ++ rest).toList.head? = s.toList.head? := by
  obtain ⟨x, xs, hs⟩ := List.exists_cons_of_ne_nil (String.toList_eq_nil_iff.not.2 hne)
  rw [String.toList_append, hs]
  rfl

namespace Lexicon

/-- The tokens of the lexicon end at layout: layout is what is ignored, and outside of strings no
token has a delimiter. -/
structure Spaced (lex : Lexicon) : Prop where
  ignore_eq : lex.ignore = layout
  keywords : lex.keywords.all fun word => delimiters.all fun x => !word.toList.contains x
  patterns : ∀ entry ∈ lex.patterns, IsQuoted entry.2 ∨ delimiters.all fun x => entry.2.avoids x

lemma spaced_program : programLexicon.Spaced where
  ignore_eq := rfl
  keywords := by decide +kernel
  patterns := by
    simp only [programLexicon, List.forall_mem_cons]
    exact ⟨.inr (by decide +kernel), .inl isQuoted_text, .inl isQuoted_str, .inr (by decide +kernel),
      .inr (by decide +kernel), .inr (by decide +kernel), List.forall_mem_nil _⟩

lemma spaced_catalog : catalogLexicon.Spaced where
  ignore_eq := rfl
  keywords := by decide +kernel
  patterns := by
    simp only [catalogLexicon, List.forall_mem_cons]
    exact ⟨.inl isQuoted_str, .inr (by decide +kernel), List.forall_mem_nil _⟩

namespace Spaced

variable {lex : Lexicon} {name raw rest : String}

lemma notMem_keyword (hlex : lex.Spaced) {word : String} (hword : word ∈ lex.keywords) {x : Char}
    (hx : x ∈ delimiters) : x ∉ word.toList := by
  have hall := List.all_eq_true.1 (List.all_eq_true.1 hlex.keywords word hword) x hx
  simpa using hall

/-- The text of a token does not begin as layout does, and a quote in it is closed. -/
lemma of_names (hlex : lex.Spaced) {text : String} (h : Names lex text name raw) :
    (∀ y ∈ raw.toList.head?, y ∉ layoutStarts) ∧ raw.toList.count '"' ≠ 1 := by
  have hplain : (∀ x ∈ delimiters, x ∉ raw.toList) →
      (∀ y ∈ raw.toList.head?, y ∉ layoutStarts) ∧ raw.toList.count '"' ≠ 1 := by
    intro hraw
    refine ⟨fun y hy hstart => ?_, ?_⟩
    · exact hraw y (List.mem_cons_of_mem _ hstart) (List.mem_of_mem_head? hy)
    · rw [List.count_eq_zero.2 (hraw '"' List.mem_cons_self)]
      exact Nat.zero_ne_one
  cases h with
  | keyword hword => exact hplain fun x hx => hlex.notMem_keyword hword.mem hx
  | pattern _ hfirst htakes =>
    rcases hlex.patterns _ hfirst.mem with ⟨w, hw, hp⟩ | havoids
    · have hquoted := (takes_quoted_iff hp).1 htakes
      refine ⟨hquoted.head_notMem hw, ?_⟩
      rw [hquoted.count_eq_two (hw '"' List.mem_cons_self)]
      decide
    · exact hplain fun x hx => notMem_of_takes htakes (List.all_eq_true.1 havoids x hx)

/-- What a pattern of the lexicon takes does not change in front of layout. -/
lemma takes_append (hlex : lex.Spaced) {entry : String × Pattern} (hentry : entry ∈ lex.patterns)
    {taken : String} (hrest : ∀ y ∈ rest.toList.head?, y ∈ layoutStarts)
    (h : Takes entry.2 raw taken) : Takes entry.2 (raw ++ rest) taken := by
  rcases hlex.patterns entry hentry with ⟨w, -, hp⟩ | havoids
  · rw [takes_quoted_iff hp, String.toList_append]
    exact ((takes_quoted_iff hp).1 h).append rest.toList
  · refine (takes_append_iff fun y hy => ?_).2 h
    exact List.all_eq_true.1 havoids y (List.mem_cons_of_mem _ (hrest y hy))

/-- A pattern of the lexicon that takes something in front of layout takes something without it, unless a
quote is left open. -/
lemma exists_takes_of_append (hlex : lex.Spaced) {entry : String × Pattern}
    (hentry : entry ∈ lex.patterns) {taken : String}
    (hrest : ∀ y ∈ rest.toList.head?, y ∈ layoutStarts) (hquotes : raw.toList.count '"' ≠ 1)
    (h : Takes entry.2 (raw ++ rest) taken) : ∃ taken', Takes entry.2 raw taken' := by
  rcases hlex.patterns entry hentry with ⟨w, hw, hp⟩ | havoids
  · rw [takes_quoted_iff hp, String.toList_append] at h
    obtain ⟨taken', htaken'⟩ := h.of_append (hw '"' List.mem_cons_self) hquotes fun y hy hmem => by
      rcases List.mem_cons.1 hmem with rfl | hmem
      · exact absurd (hrest '"' hy) (by decide)
      · exact hw y (List.mem_cons_of_mem _ (hrest y hy)) hmem
    exact ⟨String.ofList taken', (takes_quoted_iff hp).2 (by rwa [String.toList_ofList])⟩
  · refine ⟨taken, (takes_append_iff fun y hy => ?_).1 h⟩
    exact List.all_eq_true.1 havoids y (List.mem_cons_of_mem _ (hrest y hy))

lemma names_append (hlex : lex.Spaced) (hrest : ∀ y ∈ rest.toList.head?, y ∈ layoutStarts)
    (h : Names lex raw name raw) : Names lex (raw ++ rest) name raw := by
  have hbegins : ∀ word ∈ lex.keywords, Begins raw word ↔ Begins (raw ++ rest) word := by
    intro word hword
    refine (begins_append_iff fun y hy => ?_).symm
    exact hlex.notMem_keyword hword (List.mem_cons_of_mem _ (hrest y hy))
  have hquotes := (hlex.of_names h).2
  cases h with
  | keyword hword => exact .keyword (hword.congr hbegins)
  | pattern hkeywords hfirst htakes =>
    refine .pattern (fun word hword => (hbegins word hword).not.1 (hkeywords word hword)) ?_
      (hlex.takes_append hfirst.mem hrest htakes)
    refine hfirst.congr fun entry hentry => ⟨?_, ?_⟩
    · rintro ⟨taken, h⟩
      exact ⟨taken, hlex.takes_append hentry hrest h⟩
    · rintro ⟨taken, h⟩
      exact hlex.exists_takes_of_append hentry hrest hquotes h

/-- A token that is read from its text alone is read in the same way in front of layout. -/
lemma reads_append (hlex : lex.Spaced) {t : Token} (hrest : ∀ y ∈ rest.toList.head?, y ∈ layoutStarts)
    (h : Reads lex t "") : Reads lex t rest := by
  have hnames : Names lex t.raw t.name t.raw := by simpa using h.names
  refine ⟨h.raw_ne, fun taken htakes => ?_, hlex.names_append hrest hnames, h.value⟩
  rw [hlex.ignore_eq] at htakes
  obtain ⟨x, hx, hstart⟩ := head_mem_of_takes_layout htakes
  rw [head?_append h.raw_ne] at hx
  exact (hlex.of_names hnames).1 x hx hstart

/-- A text that begins with a token does not begin as layout does. -/
lemma head_textOf (hlex : lex.Spaced) {items : List (Token × String)}
    (hwords : ∀ item ∈ items, Reads lex item.1 "") :
    ∀ y ∈ (textOf items).toList.head?, y ∉ layoutStarts := by
  cases items with
  | nil => simp [textOf]
  | cons item items =>
    have hread := hwords item List.mem_cons_self
    rw [textOf, String.append_assoc, head?_append hread.raw_ne]
    exact (hlex.of_names hread.names).1

end Spaced

/-- A text that is one token has nothing around it. -/
lemma reads_of_tokenize {lex : Lexicon} {t : Token} (h : lex.tokenize t.raw = .ok [t]) :
    Reads lex t "" := by
  obtain ⟨lead, pieces, rest, hpartition, ⟨rfl, hok⟩ | ⟨-, herror⟩⟩ := exists_partition lex t.raw 0
  · have hpieces : pieces.map Prod.fst = [t] := Except.ok.inj (hok.symm.trans h)
    obtain ⟨⟨t', gap⟩, hpiece, rfl⟩ : ∃ piece : Token × String, pieces = [piece] ∧ piece.1 = t := by
      simpa using List.map_eq_singleton_iff.1 hpieces
    have hsize := congrArg String.utf8ByteSize hpartition.text_eq
    have hgap : gap = "" := by
      rw [← String.utf8ByteSize_eq_zero_iff]
      simp only [hpiece, textOf, String.utf8ByteSize_append] at hsize
      omega
    simpa [hgap, textOf] using hpartition.token_reads [] t' gap [] hpiece
  · cases h.symm.trans herror

/-- The tokens of words with separators between them, from `offset` on. -/
lemma tokensFrom_separated {lex : Lexicon} (hlex : lex.Spaced) {items : List (Token × String)}
    (hwords : ∀ item ∈ items, Reads lex item.1 "")
    (hgaps : ∀ item ∈ items.dropLast, IsSeparator item.2)
    (hlast : ∀ item ∈ items.getLast?, item.2 = "" ∨ IsSeparator item.2) (offset : Nat) :
    lex.tokensFrom (Cursor.start (textOf items).toList) offset =
      .ok (items.mapIdx fun i item =>
        { item.1 with offset := offset + (textOf (items.take i)).utf8ByteSize }) := by
  induction items generalizing offset with
  | nil =>
    rw [tokensFrom]
    rfl
  | cons item items ih =>
    obtain ⟨t, s⟩ := item
    obtain ⟨hread, hwords⟩ := List.forall_mem_cons.1 hwords
    obtain ⟨hs, hgaps', hlast'⟩ : ((s = "" ∧ items = []) ∨ IsSeparator s) ∧
        (∀ item ∈ items.dropLast, IsSeparator item.2) ∧
          ∀ item ∈ items.getLast?, item.2 = "" ∨ IsSeparator item.2 := by
      cases items with
      | nil => exact ⟨(hlast (t, s) rfl).imp_left fun hs => ⟨hs, rfl⟩, by simp, by simp⟩
      | cons item items =>
        exact ⟨.inr (hgaps (t, s) List.mem_cons_self),
          fun item' hitem' => hgaps item' (List.mem_cons_of_mem _ hitem'), hlast⟩
    have hlayout : ∀ y ∈ (s ++ textOf items).toList.head?, y ∈ layoutStarts := by
      rcases hs with ⟨rfl, rfl⟩ | hs
      · simp [textOf]
      · rw [head?_append hs.1]
        exact hs.2.head_mem
    have hskip : ∀ offset, lex.tokensFrom (Cursor.start (s ++ textOf items).toList) offset =
        lex.tokensFrom (Cursor.start (textOf items).toList) (offset + s.utf8ByteSize) := by
      intro offset
      rcases hs with ⟨rfl, -⟩ | hs
      · simp
      · refine tokensFrom_of_takes ?_
        rw [hlex.ignore_eq]
        exact takes_layout hs (hlex.head_textOf hwords)
    have hread' : Reads lex { t with offset := offset } (s ++ textOf items) :=
      { hlex.reads_append hlayout hread with }
    have htext : textOf ((t, s) :: items) = t.raw ++ (s ++ textOf items) := String.append_assoc ..
    have hrun := tokensFrom_of_reads hread'
    rw [hskip, ih hwords hgaps' hlast'] at hrun
    rw [htext, hrun]
    simp [Except.map, List.mapIdx_cons, textOf, String.utf8ByteSize_append, Nat.add_assoc]

/-- Layout does not change the tokens of words that are tokens on their own: with separators between
them, and one behind the last or none, they give just these tokens, each at the place of its word.
-/
theorem tokenize_separated {lex : Lexicon} (hlex : lex = programLexicon ∨ lex = catalogLexicon)
    {items : List (Token × String)}
    (hwords : ∀ item ∈ items, lex.tokenize item.1.raw = .ok [item.1])
    (hgaps : ∀ item ∈ items.dropLast, IsSeparator item.2)
    (hlast : ∀ item ∈ items.getLast?, item.2 = "" ∨ IsSeparator item.2) :
    lex.tokenize (textOf items) = .ok (items.mapIdx fun i item =>
      { item.1 with offset := (textOf (items.take i)).utf8ByteSize }) := by
  have hspaced : lex.Spaced := by
    rcases hlex with rfl | rfl
    · exact spaced_program
    · exact spaced_catalog
  have hreads : ∀ item ∈ items, Reads lex item.1 "" := fun item hitem =>
    reads_of_tokenize (hwords item hitem)
  rw [tokenize, tokensFrom_separated hspaced hreads hgaps hlast]
  simp only [Nat.zero_add]

/-- Words of the program language with layout of all kinds between them. -/
def sampleItems : List (Token × String) :=
  [(⟨"trigger", "trigger", .text "trigger", 0⟩, " "), (⟨"label", "x1", .text "x1", 0⟩, "// a\n"),
    (⟨"str", "\"a // b\"", .text "a // b", 0⟩, "\r\n"), (⟨"int", "-7", .int (-7), 0⟩, "")]

/-- A blank, a comment and a line break leave the four words as they are, each at its own offset. -/
theorem tokenize_separated_sample :
    (∀ item ∈ sampleItems, programLexicon.tokenize item.1.raw = .ok [item.1]) ∧
      (∀ item ∈ sampleItems.dropLast, IsSeparator item.2) ∧
      programLexicon.tokenize "trigger x1// a\n\"a // b\"\r\n-7" =
        .ok [⟨"trigger", "trigger", .text "trigger", 0⟩, ⟨"label", "x1", .text "x1", 8⟩,
          ⟨"str", "\"a // b\"", .text "a // b", 15⟩, ⟨"int", "-7", .int (-7), 25⟩] := by
  have hwords : ∀ item ∈ sampleItems, programLexicon.tokenize item.1.raw = .ok [item.1] := by
    simp only [sampleItems, List.forall_mem_cons]
    exact ⟨by decide +kernel, by decide +kernel, by decide +kernel, by decide +kernel,
      List.forall_mem_nil _⟩
  have hgaps : ∀ item ∈ sampleItems.dropLast, IsSeparator item.2 := by
    simp only [sampleItems, List.dropLast, List.forall_mem_cons]
    refine ⟨⟨by decide, ?_⟩, ⟨by decide, ?_⟩, ⟨by decide, ?_⟩, List.forall_mem_nil _⟩
    · exact .blank (x := ' ') (by decide) .nil
    · exact .comment (show '\n' ∉ [' ', 'a'] by decide) .nil
    · exact .blank (x := '\r') (by decide) (.blank (x := '\n') (by decide) .nil)
  refine ⟨hwords, hgaps, ?_⟩
  exact tokenize_separated (.inl rfl) hwords hgaps (by simp [sampleItems])

end Lexicon

end TriggerScript
