import TriggerScript.Proofs.Pattern
import TriggerScript.Token.Lexicon

/-!
# What stands at the front of a text

What a lexicon finds at the front of a text is told here in terms of texts: a text to ignore
(`Takes`), a token (`Reads`) or nothing that it knows (`Refused`). One of the three is found in front
of every text that is not empty (`Lexicon.front_cases`), and for each of them there is an equation that
says how the splitting goes on (`Lexicon.tokensFrom_of_takes`, `tokensFrom_of_reads`,
`tokensFrom_of_refused`).

The patterns can be of any kind. All that is asked of them is that a match leaves an end of the text it
was looked for in (`LawfulMatching`).
-/

namespace TriggerScript

/-- Patterns whose matches are texts that stand where the match was looked for. -/
class LawfulMatching (P : Type) [Matching P] : Prop where
  exists_append {p : P} {c c' : Cursor} (h : Matching.match? p c = some c') :
    ∃ text, c.rest = text ++ c'.rest

instance : LawfulMatching Pattern where
  exists_append h := (Pattern.matches_of_match? h).exists_append

/-- The first entry of a list of which `p` holds. -/
def IsFirst {α : Type} (p : α → Prop) (as : List α) (a : α) : Prop :=
  ∃ earlier later, as = earlier ++ a :: later ∧ p a ∧ ∀ b ∈ earlier, ¬ p b

lemma exists_isFirst {α : Type} {p : α → Prop} {as : List α} (h : ∃ a ∈ as, p a) :
    ∃ a, IsFirst p as a := by
  induction as with
  | nil => simp at h
  | cons b as ih =>
    by_cases hb : p b
    · exact ⟨b, [], as, rfl, hb, List.forall_mem_nil _⟩
    · have htail : ∃ a ∈ as, p a := by
        obtain ⟨a, ha, hpa⟩ := h
        rcases List.mem_cons.1 ha with rfl | ha
        · exact absurd hpa hb
        · exact ⟨a, ha, hpa⟩
      obtain ⟨a, earlier, later, rfl, ha, hearlier⟩ := ih htail
      exact ⟨a, b :: earlier, later, rfl, ha, List.forall_mem_cons.2 ⟨hb, hearlier⟩⟩

lemma IsFirst.mem {α : Type} {p : α → Prop} {as : List α} {a : α} (h : IsFirst p as a) : a ∈ as := by
  obtain ⟨earlier, later, rfl, -, -⟩ := h
  simp

lemma IsFirst.congr {α : Type} {p q : α → Prop} {as : List α} {a : α} (h : IsFirst p as a)
    (hpq : ∀ b ∈ as, p b ↔ q b) : IsFirst q as a := by
  obtain ⟨earlier, later, rfl, ha, hearlier⟩ := h
  refine ⟨earlier, later, rfl, (hpq a (by simp)).1 ha, fun b hb hq => ?_⟩
  exact hearlier b hb ((hpq b (by simp [hb])).2 hq)

lemma eq_append_ofList {text word : String} {rest : List Char}
    (h : text.toList = word.toList ++ rest) : text = word ++ String.ofList rest := by
  rw [← String.toList_inj, String.toList_append, String.toList_ofList, h]

/-- The word is not empty and stands at the front of the text. -/
def Begins (text word : String) : Prop :=
  word ≠ "" ∧ ∃ rest, text = word ++ rest

section Takes

variable {P : Type} [Matching P]

/-- The preferred match of the pattern at the front of the text is `taken`, which is not empty. -/
def Takes (p : P) (text taken : String) : Prop :=
  taken ≠ "" ∧ ∃ c', Matching.match? p (Cursor.start text.toList) = some c' ∧
    text.toList = taken.toList ++ c'.rest

lemma Takes.begins {p : P} {text taken : String} (h : Takes p text taken) : Begins text taken := by
  obtain ⟨hne, c', -, htext⟩ := h
  exact ⟨hne, String.ofList c'.rest, eq_append_ofList htext⟩

namespace Lexicon

/-- The text at the front of `text` that is a token, with its name: the first keyword that stands
there, or else what the first pattern with a match takes. -/
inductive Names (lex : Lexicon P) (text : String) : String → String → Prop
  | keyword {word} (hword : IsFirst (Begins text) lex.keywords word) : Names lex text word word
  | pattern {name p raw} (hkeywords : ∀ word ∈ lex.keywords, ¬ Begins text word)
      (hfirst : IsFirst (fun entry => ∃ taken, Takes entry.2 text taken) lex.patterns (name, p))
      (htakes : Takes p text raw) : Names lex text name raw

/-- The token `t` is read where its text stands in front of `rest`. -/
structure Reads (lex : Lexicon P) (t : Token) (rest : String) : Prop where
  raw_ne : t.raw ≠ ""
  kept : ∀ taken, ¬ Takes lex.ignore (t.raw ++ rest) taken
  names : Names lex (t.raw ++ rest) t.name t.raw
  value : lex.reading t.name t.raw = some t.value

/-- Nothing can be read at the front of the text: it has no token there, or one whose text is
rejected. -/
inductive Refused (lex : Lexicon P) (text : String) : Prop
  | unnamed (hne : text ≠ "") (hkept : ∀ taken, ¬ Takes lex.ignore text taken)
      (hkeywords : ∀ word ∈ lex.keywords, ¬ Begins text word)
      (hpatterns : ∀ entry ∈ lex.patterns, ∀ taken, ¬ Takes entry.2 text taken)
  | rejected {name raw} (hkept : ∀ taken, ¬ Takes lex.ignore text taken)
      (hnames : Names lex text name raw) (hreading : lex.reading name raw = none)

variable {lex : Lexicon P} {text name raw : String}

lemma Names.begins (h : Names lex text name raw) : Begins text raw := by
  cases h with
  | keyword hword =>
    obtain ⟨_, _, -, hword, -⟩ := hword
    exact hword
  | pattern hkeywords hfirst htakes => exact htakes.begins

lemma Refused.ne (h : Refused lex text) : text ≠ "" := by
  cases h with
  | unnamed hne => exact hne
  | rejected hkept hnames hreading =>
    obtain ⟨hne, rest, rfl⟩ := hnames.begins
    simpa [String.append_eq_empty_iff] using fun h => absurd h hne

/-- One of the four cases holds of every text. -/
theorem front_cases (lex : Lexicon P) (text : String) (offset : Nat) :
    text = "" ∨ (∃ taken, Takes lex.ignore text taken) ∨
      (∃ t rest, t.offset = offset ∧ text = t.raw ++ rest ∧ Reads lex t rest) ∨ Refused lex text := by
  by_cases hne : text = ""
  · exact .inl hne
  by_cases hkept : ∃ taken, Takes lex.ignore text taken
  · exact .inr (.inl hkept)
  refine .inr (.inr ?_)
  rw [not_exists] at hkept
  by_cases hnames : ∃ name raw, Names lex text name raw
  · obtain ⟨name, raw, hnames⟩ := hnames
    obtain ⟨hraw, rest, rfl⟩ := hnames.begins
    cases hreading : lex.reading name raw with
    | none => exact .inr (.rejected hkept hnames hreading)
    | some value =>
      exact .inl ⟨⟨name, raw, value, offset⟩, rest, rfl, rfl, hraw, hkept, hnames, hreading⟩
  · have hkeywords : ∀ word ∈ lex.keywords, ¬ Begins text word := by
      intro word hword hbegins
      obtain ⟨first, hfirst⟩ := exists_isFirst ⟨word, hword, hbegins⟩
      exact hnames ⟨first, first, .keyword hfirst⟩
    refine .inr (.unnamed hne hkept hkeywords fun entry hentry taken htakes => ?_)
    obtain ⟨⟨name, p⟩, hfirst⟩ := exists_isFirst
      (p := fun entry : String × P => ∃ taken, Takes entry.2 text taken) ⟨entry, hentry, taken, htakes⟩
    obtain ⟨_, _, -, ⟨raw, hraw⟩, -⟩ := id hfirst
    exact hnames ⟨name, raw, .pattern hkeywords hfirst hraw⟩

end Lexicon

end Takes

namespace Cursor

variable {c c' : Cursor} {text word : List Char}

lemma exists_later? (hrest : c.rest = text ++ c'.rest) (hne : text ≠ []) :
    ∃ l, c.later? c' = some l ∧ l.1 = c' := by
  have hlt : c'.left < c.left := by
    rw [c.left_eq, c'.left_eq, hrest, List.length_append]
    exact Nat.lt_add_of_pos_left (List.length_pos_iff.2 hne)
  exact ⟨⟨c', hlt⟩, by rw [later?, dif_pos hlt], rfl⟩

lemma ne_nil_of_later? {l : c.Later} (hrest : c.rest = text ++ c'.rest) (h : c.later? c' = some l) :
    text ≠ [] := by
  rintro rfl
  have hlt := l.2
  rw [later?_eq_some h, c.left_eq, c'.left_eq, hrest] at hlt
  exact Nat.lt_irrefl _ hlt

lemma rest_of_skip? (h : c.skip? word = some c') : c.rest = word ++ c'.rest := by
  induction word generalizing c with
  | nil =>
    obtain rfl := Option.some.inj h
    rfl
  | cons x word ih =>
    simp only [skip?] at h
    split at h
    · rename_i y c₁ hnext
      split_ifs at h with hxy
      rw [rest_of_next? hnext, ih h, hxy, List.cons_append]
    · cases h

lemma exists_skip? (h : c.rest = word ++ text) : ∃ c', c.skip? word = some c' ∧ c'.rest = text := by
  induction word generalizing c with
  | nil => exact ⟨c, rfl, h⟩
  | cons x word ih =>
    obtain ⟨before, rest, left, hleft⟩ := c
    obtain rfl : rest = x :: (word ++ text) := h
    simpa [skip?, next?] using ih (c := ⟨some x, word ++ text, left - 1, _⟩) rfl

end Cursor

namespace Lexicon

variable {P : Type} {lex : Lexicon P} {text taken word name raw : String} {offset : Nat}

lemma exists_keyword (h : Begins text word) :
    ∃ l, ((Cursor.start text.toList).skip? word.toList).bind (Cursor.start text.toList).later? = some l ∧
      text.toList = word.toList ++ l.1.rest := by
  obtain ⟨hne, rest, htext⟩ := h
  have htext : text.toList = word.toList ++ rest.toList := by rw [htext, String.toList_append]
  obtain ⟨c', hskip, hrest⟩ := Cursor.exists_skip? (c := Cursor.start text.toList) htext
  rw [← hrest] at htext
  obtain ⟨l, hl, rfl⟩ := Cursor.exists_later? (c := Cursor.start text.toList) htext
    (String.toList_eq_nil_iff.not.2 hne)
  exact ⟨l, by rw [hskip, Option.bind_some, hl], htext⟩

lemma keyword_eq_none (h : ¬ Begins text word) :
    ((Cursor.start text.toList).skip? word.toList).bind (Cursor.start text.toList).later? = none := by
  by_contra hsome
  obtain ⟨l, hl⟩ := Option.ne_none_iff_exists'.1 hsome
  obtain ⟨c', hskip, hlater⟩ := Option.bind_eq_some_iff.1 hl
  have hrest : text.toList = word.toList ++ c'.rest := Cursor.rest_of_skip? hskip
  have hne := Cursor.ne_nil_of_later? (Cursor.rest_of_skip? hskip) hlater
  exact h ⟨String.toList_eq_nil_iff.not.1 hne, String.ofList c'.rest, eq_append_ofList hrest⟩

lemma keywordAt?_eq_none (h : ∀ word ∈ lex.keywords, ¬ Begins text word) :
    lex.keywordAt? (Cursor.start text.toList) = none := by
  refine List.findSome?_eq_none_iff.2 fun word hword => ?_
  rw [keyword_eq_none (h word hword), Option.map_none]

/-- Only the text from a place on counts for the words that stand there. -/
lemma keyword_congr (before before' : Option Char) (rest : List Char) (word : List Char) :
    ((Cursor.mk before rest rest.length rfl).skip? word).bind
        (Cursor.mk before rest rest.length rfl).later? =
      ((Cursor.mk before' rest rest.length rfl).skip? word).bind
        (Cursor.mk before' rest rest.length rfl).later? := by
  cases word with
  | nil => simp [Cursor.skip?, Cursor.later?]
  | cons x word =>
    cases rest with
    | nil => rfl
    | cons y rest => rfl

variable [Matching P] {p : P}

lemma tokensFrom_congr (before before' : Option Char) (rest : List Char) :
    lex.tokensFrom ⟨before, rest, rest.length, rfl⟩ offset =
      lex.tokensFrom ⟨before', rest, rest.length, rfl⟩ offset := by
  have hkeyword : lex.keywordAt? ⟨before, rest, rest.length, rfl⟩ =
      lex.keywordAt? ⟨before', rest, rest.length, rfl⟩ := by
    unfold keywordAt?
    congr 1
    funext word
    rw [keyword_congr before before']
  have htoken : lex.tokenAt? ⟨before, rest, rest.length, rfl⟩ =
      lex.tokenAt? ⟨before', rest, rest.length, rfl⟩ :=
    congrArg (· <|> lex.patternAt? ⟨before', rest, rest.length, rfl⟩) hkeyword
  have hignore : Matching.matchSome? lex.ignore ⟨before, rest, rest.length, rfl⟩ =
      Matching.matchSome? lex.ignore ⟨before', rest, rest.length, rfl⟩ := rfl
  rw [tokensFrom, tokensFrom]
  by_cases hrest : rest.length = 0
  · simp only [hrest, if_true]
  simp only [hrest, if_false, hignore, htoken]
  cases Matching.matchSome? lex.ignore ⟨before', rest, rest.length, rfl⟩ with
  | some l => rfl
  | none =>
    cases lex.tokenAt? ⟨before', rest, rest.length, rfl⟩ with
    | none => rfl
    | some entry => rfl

/-- Only the text from a place on counts for the tokens there. -/
lemma tokensFrom_start (c : Cursor) :
    lex.tokensFrom c offset = lex.tokensFrom (Cursor.start c.rest) offset := by
  obtain ⟨before, rest, left, rfl⟩ := c
  exact tokensFrom_congr before none rest

lemma exists_matchSome? (h : Takes p text taken) :
    ∃ l, Matching.matchSome? p (Cursor.start text.toList) = some l ∧
      text.toList = taken.toList ++ l.1.rest := by
  obtain ⟨hne, c', hmatch, htext⟩ := h
  obtain ⟨l, hl, rfl⟩ := Cursor.exists_later? (c := Cursor.start text.toList) htext
    (String.toList_eq_nil_iff.not.2 hne)
  exact ⟨l, Option.bind_eq_some_iff.2 ⟨l.1, hmatch, hl⟩, htext⟩

/-- Behind a text to ignore the splitting goes on. -/
theorem tokensFrom_of_takes {rest : String} (h : Takes lex.ignore (taken ++ rest) taken) :
    lex.tokensFrom (Cursor.start (taken ++ rest).toList) offset =
      lex.tokensFrom (Cursor.start rest.toList) (offset + taken.utf8ByteSize) := by
  obtain ⟨⟨c', hlt⟩, hmatch, htext⟩ := exists_matchSome? h
  have hleft : (Cursor.start (taken ++ rest).toList).left ≠ 0 := Nat.ne_zero_of_lt hlt
  have hrest : c'.rest = rest.toList := by
    simpa [String.toList_append, eq_comm] using htext
  rw [tokensFrom, if_neg hleft, hmatch]
  simp only
  rw [tokensFrom_start, hrest, Cursor.textUntil_of_rest htext, String.ofList_toList]

variable [LawfulMatching P]

lemma matchSome?_eq_none (h : ∀ taken, ¬ Takes p text taken) :
    Matching.matchSome? p (Cursor.start text.toList) = none := by
  by_contra hsome
  obtain ⟨l, hl⟩ := Option.ne_none_iff_exists'.1 hsome
  obtain ⟨c', hmatch, hlater⟩ := Option.bind_eq_some_iff.1 hl
  obtain ⟨taken, htaken⟩ := LawfulMatching.exists_append hmatch
  have hne : taken ≠ [] := Cursor.ne_nil_of_later? htaken hlater
  refine h (String.ofList taken) ⟨?_, c', hmatch, ?_⟩
  · rwa [Ne, String.ofList_eq_empty_iff]
  · rw [String.toList_ofList]
    exact htaken

lemma patternAt?_eq_none (h : ∀ entry ∈ lex.patterns, ∀ taken, ¬ Takes entry.2 text taken) :
    lex.patternAt? (Cursor.start text.toList) = none := by
  refine List.findSome?_eq_none_iff.2 fun entry hentry => ?_
  exact Option.map_eq_none_iff.2 (matchSome?_eq_none (h entry hentry))

lemma exists_tokenAt? (h : Names lex text name raw) :
    ∃ l, lex.tokenAt? (Cursor.start text.toList) = some (name, l) ∧
      text.toList = raw.toList ++ l.1.rest := by
  cases h with
  | keyword hword =>
    obtain ⟨earlier, later, hkeywords, hword, hearlier⟩ := hword
    obtain ⟨l, hl, htext⟩ := exists_keyword hword
    refine ⟨l, ?_, htext⟩
    have hat : lex.keywordAt? (Cursor.start text.toList) = some (name, l) := by
      refine List.findSome?_eq_some_iff.2 ⟨earlier, name, later, hkeywords, ?_, fun k hk => ?_⟩
      · rw [hl, Option.map_some]
      · rw [keyword_eq_none (hearlier k hk), Option.map_none]
    rw [tokenAt?, hat]
    rfl
  | pattern hkeywords hfirst htakes =>
    obtain ⟨earlier, later, hpatterns, -, hearlier⟩ := hfirst
    obtain ⟨l, hl, htext⟩ := exists_matchSome? htakes
    refine ⟨l, ?_, htext⟩
    have hat : lex.patternAt? (Cursor.start text.toList) = some (name, l) := by
      refine List.findSome?_eq_some_iff.2 ⟨earlier, _, later, hpatterns, ?_, fun entry hentry => ?_⟩
      · exact Option.map_eq_some_iff.2 ⟨l, hl, rfl⟩
      · exact Option.map_eq_none_iff.2
          (matchSome?_eq_none (not_exists.1 (hearlier entry hentry)))
    rw [tokenAt?, keywordAt?_eq_none hkeywords, hat]
    rfl

/-- A token is the first one of its text, and the splitting goes on behind it. -/
theorem tokensFrom_of_reads {t : Token} {rest : String} (h : Reads lex t rest) :
    lex.tokensFrom (Cursor.start (t.raw ++ rest).toList) t.offset =
      (lex.tokensFrom (Cursor.start rest.toList) (t.offset + t.raw.utf8ByteSize)).map (t :: ·) := by
  obtain ⟨⟨c', hlt⟩, htoken, htext⟩ := exists_tokenAt? h.names
  have hleft : (Cursor.start (t.raw ++ rest).toList).left ≠ 0 := Nat.ne_zero_of_lt hlt
  have hrest : c'.rest = rest.toList := by
    simpa [String.toList_append, eq_comm] using htext
  have hraw : (Cursor.start (t.raw ++ rest).toList).textUntil c' = t.raw := by
    rw [Cursor.textUntil_of_rest htext, String.ofList_toList]
  rw [tokensFrom, if_neg hleft, matchSome?_eq_none h.kept, htoken]
  simp only [hraw, h.value]
  rw [tokensFrom_start, hrest]
  cases lex.tokensFrom (Cursor.start rest.toList) (t.offset + t.raw.utf8ByteSize) <;> rfl

/-- A text that is one token is split into that token. -/
lemma tokenize_of_reads {value : TokenValue} (h : Reads lex ⟨name, raw, value, 0⟩ "") :
    lex.tokenize raw = .ok [⟨name, raw, value, 0⟩] := by
  have htokens := tokensFrom_of_reads h
  rw [String.append_empty] at htokens
  rw [tokenize, htokens, tokensFrom]
  rfl

/-- The splitting ends where nothing can be read. -/
theorem tokensFrom_of_refused (h : Refused lex text) :
    lex.tokensFrom (Cursor.start text.toList) offset = .error ⟨offset⟩ := by
  have hleft : (Cursor.start text.toList).left ≠ 0 :=
    List.length_eq_zero_iff.not.2 (String.toList_eq_nil_iff.not.2 h.ne)
  rw [tokensFrom, if_neg hleft]
  cases h with
  | unnamed hne hkept hkeywords hpatterns =>
    rw [matchSome?_eq_none hkept, tokenAt?, keywordAt?_eq_none hkeywords,
      patternAt?_eq_none hpatterns]
    rfl
  | @rejected name raw hkept hnames hreading =>
    obtain ⟨⟨c', hlt⟩, htoken, htext⟩ := exists_tokenAt? hnames
    have hraw : (Cursor.start text.toList).textUntil c' = raw := by
      rw [Cursor.textUntil_of_rest htext, String.ofList_toList]
    rw [matchSome?_eq_none hkept, htoken]
    simp only [hraw, hreading]

end Lexicon

end TriggerScript
