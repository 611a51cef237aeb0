import TriggerScript.Proofs.Lexing
import TriggerScript.Proofs.Lexing.Layout

/-!
# Labels in the two languages

The two languages have one pattern for labels, but each has keywords of its own, and a keyword is
taken wherever it stands at the front of a text. The catalog language has one keyword that the
program language does not have. So a label of the program language is a label of the catalog
language exactly if it does not begin with that word (`Lexicon.isLabel_catalog_iff`).
-/

namespace TriggerScript.Lexicon

/-- The text as a whole is one label. -/
def IsLabel (lex : Lexicon) (w : String) : Prop :=
  ∃ t, lex.tokenize w = .ok [t] ∧ t.name = "label" ∧ t.raw = w

variable {lex : Lexicon} {w : String}

/-- A label is taken by its pattern and begins with no keyword. -/
lemma IsLabel.takes (hkeywords : "label" ∉ lex.keywords)
    (hpatterns : ∀ entry ∈ lex.patterns, entry.1 = "label" → entry.2 = Words.label) (h : IsLabel lex w) :
    Takes Words.label w w ∧ ∀ word ∈ lex.keywords, ¬Begins w word := by
  obtain ⟨⟨name, raw, value, offset⟩, htokens, rfl, rfl⟩ := h
  have hnames : Names lex (raw ++ "") "label" raw := (reads_of_tokenize htokens).names
  rw [String.append_empty] at hnames
  cases hnames with
  | keyword hword => exact absurd hword.mem hkeywords
  | pattern hbegins hfirst htakes =>
    obtain rfl := hpatterns _ hfirst.mem rfl
    exact ⟨htakes, hbegins⟩

/-- The text of a label has no delimiters. -/
lemma notMem_of_takes_label (h : Takes Words.label w w) {x : Char} (hx : x ∈ Words.delimiters) :
    x ∉ w.toList := by
  have havoids : Words.delimiters.all fun x => Words.label.avoids x := by decide +kernel
  exact notMem_of_takes h (List.all_eq_true.1 havoids x hx)

/-- In the catalog language a label is all that its pattern takes and that begins with no keyword. -/
lemma isLabel_catalog (htakes : Takes Words.label w w)
    (hbegins : ∀ word ∈ catalogLexicon.keywords, ¬Begins w word) : IsLabel catalogLexicon w := by
  have hplain : ∀ x ∈ Words.delimiters, x ∉ w.toList := fun x hx => notMem_of_takes_label htakes hx
  have hnames : Names catalogLexicon w "label" w := by
    refine .pattern hbegins ⟨[("str", Words.str)], [], rfl, ⟨w, htakes⟩, ?_⟩ htakes
    simpa using Words.isQuoted_str.not_takes hplain
  have hvalue : catalogLexicon.reading "label" w = some (.text w) := by
    rw [reading_of_notMem (by decide)]
    rfl
  refine ⟨⟨"label", w, .text w, 0⟩, tokenize_of_reads ⟨htakes.1, ?_, ?_, hvalue⟩, rfl, rfl⟩
  · rw [String.append_empty]
    exact Words.not_takes_layout hplain
  · rwa [String.append_empty]

/-- A label of the program language is a label of the catalog language exactly if it does not begin with
the keyword that only the catalog language has. -/
theorem isLabel_catalog_iff (h : IsLabel programLexicon w) :
    IsLabel catalogLexicon w ↔ ¬Begins w "folder" := by
  have hshared : ∀ word ∈ catalogLexicon.keywords, word = "folder" ∨ word ∈ programLexicon.keywords := by
    decide
  obtain ⟨htakes, hprogram⟩ := h.takes (by decide) (by simp [programLexicon])
  constructor
  · intro hcatalog
    obtain ⟨-, hbegins⟩ := hcatalog.takes (by decide) (by simp [catalogLexicon])
    exact hbegins "folder" (by decide)
  · intro hfolder
    refine isLabel_catalog htakes fun word hword => ?_
    rcases hshared word hword with rfl | hword
    · exact hfolder
    · exact hprogram word hword

/-- A label can hold the keyword of folders in a catalog, but it cannot begin with it. -/
theorem isLabel_catalog_iff_sample :
    (IsLabel programLexicon "folders" ∧ ¬IsLabel catalogLexicon "folders") ∧
      IsLabel programLexicon "unfolder" ∧ IsLabel catalogLexicon "unfolder" := by
  have hfolders : IsLabel programLexicon "folders" :=
    ⟨⟨"label", "folders", .text "folders", 0⟩, by decide +kernel, rfl, rfl⟩
  have hunfolder : IsLabel programLexicon "unfolder" :=
    ⟨⟨"label", "unfolder", .text "unfolder", 0⟩, by decide +kernel, rfl, rfl⟩
  refine ⟨⟨hfolders, ?_⟩, hunfolder, ?_⟩
  · rw [isLabel_catalog_iff hfolders, not_not]
    exact ⟨by decide, "s", by decide⟩
  · rw [isLabel_catalog_iff hunfolder]
    rintro ⟨-, rest, htext⟩
    have hhead := congrArg (·.toList.head?) htext
    rw [String.toList_append] at hhead
    exact absurd (Option.some.inj hhead) (by decide)

/-- The word itself is a label of the program language only. -/
theorem not_isLabel_catalog_folder :
    IsLabel programLexicon "folder" ∧ ¬IsLabel catalogLexicon "folder" := by
  refine ⟨⟨⟨"label", "folder", .text "folder", 0⟩, by decide +kernel, rfl, rfl⟩, ?_⟩
  rintro ⟨t, htokens, hname, -⟩
  have hkeyword : catalogLexicon.tokenize "folder" = .ok [⟨"folder", "folder", .text "folder", 0⟩] := by
    decide +kernel
  rw [hkeyword] at htokens
  cases htokens
  exact absurd hname (by decide)

end TriggerScript.Lexicon
