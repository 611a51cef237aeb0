import TriggerScript.Proofs.Lexing.Steps

/-!
# The parts of a text

Splitting a text into tokens takes it apart and loses nothing: the text is a gap, then the tokens with
a gap behind each of them (`Lexicon.Partition`). Gaps are made of texts to ignore; a token stands where
there is nothing to ignore, begins at its byte offset and is what the lexicon names and reads there.
Where the splitting fails, this holds of all that stands in front of the place of the failure, and
nothing can be read at that place (`Lexicon.tokenize_partitions`).
-/

namespace TriggerScript.Lexicon

/-- The text of tokens with a gap behind each of them. -/
def textOf : List (Token × String) → String
  | [] => ""
  | (t, gap) :: pieces => t.raw ++ gap ++ textOf pieces

lemma utf8ByteSize_pos {s : String} (h : s ≠ "") : 0 < s.utf8ByteSize :=
  Nat.pos_of_ne_zero (String.utf8ByteSize_eq_zero_iff.not.2 h)

variable {P : Type} [Matching P]

/-- A run of texts to ignore that stands in front of `after`. -/
inductive IsGap (lex : Lexicon P) (after : String) : String → Prop
  | nil : IsGap lex after ""
  | cons {taken gap} (htakes : Takes lex.ignore (taken ++ (gap ++ after)) taken)
      (hgap : IsGap lex after gap) : IsGap lex after (taken ++ gap)

/-- The text is the gap `lead`, then the tokens with the gaps behind them, then `rest`; it begins
`offset` bytes into the source. -/
structure Partition (lex : Lexicon P) (offset : Nat) (text lead : String)
    (pieces : List (Token × String)) (rest : String) : Prop where
  text_eq : text = lead ++ (textOf pieces ++ rest)
  lead_gap : IsGap lex (textOf pieces ++ rest) lead
  token_offset : ∀ before t gap after, pieces = before ++ (t, gap) :: after →
    t.offset = offset + (lead ++ textOf before).utf8ByteSize
  token_reads : ∀ before t gap after, pieces = before ++ (t, gap) :: after →
    Reads lex t (gap ++ (textOf after ++ rest))
  token_gap : ∀ before t gap after, pieces = before ++ (t, gap) :: after →
    IsGap lex (textOf after ++ rest) gap

namespace Partition

variable {lex : Lexicon P} {offset : Nat} {text lead rest taken : String}
  {pieces : List (Token × String)} {t : Token}

lemma whole (lex : Lexicon P) (offset : Nat) (text : String) : Partition lex offset text "" [] text where
  text_eq := by simp [textOf]
  lead_gap := .nil
  token_offset := by simp
  token_reads := by simp
  token_gap := by simp

lemma skip (htakes : Takes lex.ignore (taken ++ text) taken)
    (h : Partition lex (offset + taken.utf8ByteSize) text lead pieces rest) :
    Partition lex offset (taken ++ text) (taken ++ lead) pieces rest where
  text_eq := by rw [h.text_eq, String.append_assoc]
  lead_gap := .cons (by rwa [← h.text_eq]) h.lead_gap
  token_offset before t gap after hpieces := by
    rw [h.token_offset before t gap after hpieces]
    simp only [String.utf8ByteSize_append]
    omega
  token_reads := h.token_reads
  token_gap := h.token_gap

lemma read (hread : Reads lex t text)
    (h : Partition lex (t.offset + t.raw.utf8ByteSize) text lead pieces rest) :
    Partition lex t.offset (t.raw ++ text) "" ((t, lead) :: pieces) rest := by
  -- The first token is `t`; the others are those of the text behind it.
  have hcases : ∀ before t' gap after, (t, lead) :: pieces = before ++ (t', gap) :: after →
      (before = [] ∧ t = t' ∧ lead = gap ∧ pieces = after) ∨
        ∃ before', before = (t, lead) :: before' ∧ pieces = before' ++ (t', gap) :: after := by
    intro before t' gap after hpieces
    cases before with
    | nil => exact .inl (by simpa [and_assoc] using hpieces)
    | cons piece before' =>
      obtain ⟨rfl, htail⟩ := List.cons.inj hpieces
      exact .inr ⟨before', rfl, htail⟩
  refine ⟨?_, .nil, ?_, ?_, ?_⟩
  · rw [h.text_eq]
    simp [textOf, String.append_assoc]
  · intro before t' gap after hpieces
    rcases hcases before t' gap after hpieces with ⟨rfl, rfl, -, -⟩ | ⟨before', rfl, htail⟩
    · simp [textOf]
    · rw [h.token_offset before' t' gap after htail]
      simp only [textOf, String.utf8ByteSize_append, String.empty_append]
      omega
  · intro before t' gap after hpieces
    rcases hcases before t' gap after hpieces with ⟨rfl, rfl, rfl, rfl⟩ | ⟨before', rfl, htail⟩
    · rwa [← h.text_eq]
    · exact h.token_reads before' t' gap after htail
  · intro before t' gap after hpieces
    rcases hcases before t' gap after hpieces with ⟨rfl, rfl, rfl, rfl⟩ | ⟨before', rfl, htail⟩
    · exact h.lead_gap
    · exact h.token_gap before' t' gap after htail

end Partition

variable [LawfulMatching P]

/-- The parts of a text that begins `offset` bytes into the source. -/
lemma exists_partition (lex : Lexicon P) (text : String) (offset : Nat) :
    ∃ lead pieces rest, Partition lex offset text lead pieces rest ∧
      ((rest = "" ∧
          lex.tokensFrom (Cursor.start text.toList) offset = .ok (pieces.map Prod.fst)) ∨
        (Refused lex rest ∧ lex.tokensFrom (Cursor.start text.toList) offset =
          .error ⟨offset + (lead ++ textOf pieces).utf8ByteSize⟩)) := by
  induction hn : text.utf8ByteSize using Nat.strongRecOn generalizing text offset with
  | ind n ih =>
    subst hn
    rcases front_cases lex text offset with rfl | ⟨taken, htakes⟩ | ⟨t, rest, rfl, rfl, hread⟩ | hrefused
    · exact ⟨"", [], "", .whole lex offset "", .inl ⟨rfl, by rw [tokensFrom]; rfl⟩⟩
    · obtain ⟨rest, rfl⟩ := htakes.begins.2
      have hsize := utf8ByteSize_pos htakes.1
      obtain ⟨lead, pieces, rest', hpartition, hresult⟩ :=
        ih rest.utf8ByteSize (by rw [String.utf8ByteSize_append]; omega) rest
          (offset + taken.utf8ByteSize) rfl
      refine ⟨taken ++ lead, pieces, rest', hpartition.skip htakes, ?_⟩
      rw [tokensFrom_of_takes htakes]
      simpa only [String.utf8ByteSize_append, Nat.add_assoc] using hresult
    · have hsize := utf8ByteSize_pos hread.raw_ne
      obtain ⟨lead, pieces, rest', hpartition, hresult⟩ :=
        ih rest.utf8ByteSize (by rw [String.utf8ByteSize_append]; omega) rest
          (t.offset + t.raw.utf8ByteSize) rfl
      refine ⟨"", (t, lead) :: pieces, rest', hpartition.read hread, ?_⟩
      rw [tokensFrom_of_reads hread]
      rcases hresult with ⟨rfl, hok⟩ | ⟨hrefused, herror⟩
      · exact .inl ⟨rfl, by rw [hok]; rfl⟩
      · refine .inr ⟨hrefused, ?_⟩
        rw [herror]
        simp [textOf, String.utf8ByteSize_append, Nat.add_assoc, Except.map]
    · exact ⟨"", [], text, .whole lex offset text,
        .inr ⟨hrefused, by rw [tokensFrom_of_refused hrefused]; rfl⟩⟩

/-- Splitting a text into tokens always ends. Its answer, tokens or a failure, comes with a partition of
the source: into its tokens and the gaps around them, or the same up to the offset of the failure, which
lies in the source and has a text behind it at which nothing can be read. -/
theorem tokenize_partitions (lex : Lexicon P) (source : String) :
    ∃ lead pieces rest, Partition lex 0 source lead pieces rest ∧
      ((rest = "" ∧ lex.tokenize source = .ok (pieces.map Prod.fst)) ∨
        (Refused lex rest ∧ ∃ offset < source.utf8ByteSize,
          offset = (lead ++ textOf pieces).utf8ByteSize ∧
            lex.tokenize source = .error ⟨offset⟩)) := by
  obtain ⟨lead, pieces, rest, hpartition, hresult⟩ := exists_partition lex source 0
  refine ⟨lead, pieces, rest, hpartition, ?_⟩
  rcases hresult with hok | ⟨hrefused, herror⟩
  · exact .inl hok
  refine .inr ⟨hrefused, _, ?_, rfl, by rw [tokenize, herror, Nat.zero_add]⟩
  have hrest := utf8ByteSize_pos hrefused.ne
  simp only [hpartition.text_eq, String.utf8ByteSize_append]
  omega

/-- A lexicon whose patterns can match the empty text. -/
def sampleLexicon : Lexicon where
  ignore := .star (.one .blank)
  keywords := ["-", "", "->"]
  patterns := [("int", .star (.one .digit)), ("label", .plus (.one .letter))]
  readings := [("int", Reading.int)]

/-- The minus sign is taken in front of the arrow, and no token is empty, so the last character is
refused. -/
theorem tokenize_partitions_sample :
    ∃ lead pieces rest, Partition sampleLexicon 0 " -5 ab->" lead pieces rest ∧
      Refused sampleLexicon rest ∧ (lead ++ textOf pieces).utf8ByteSize = 7 := by
  have herror : sampleLexicon.tokenize " -5 ab->" = .error ⟨7⟩ := by decide +kernel
  obtain ⟨lead, pieces, rest, hpartition, ⟨-, hok⟩ | ⟨hrefused, offset, -, hoffset, hfail⟩⟩ :=
    tokenize_partitions sampleLexicon " -5 ab->"
  · rw [herror] at hok
    cases hok
  · rw [herror] at hfail
    cases hfail
    exact ⟨lead, pieces, rest, hpartition, hrefused, hoffset.symm⟩

end TriggerScript.Lexicon
