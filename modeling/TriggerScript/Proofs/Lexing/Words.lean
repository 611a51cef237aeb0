import TriggerScript.Proofs.Lexing.Steps
import TriggerScript.Proofs.Pattern.Context
import TriggerScript.Words

/-!
# What the patterns of the two languages take

Layout is white space and comments, each with the end of its line (`Words.IsLayout`). It is taken as a
whole if what comes behind it is no layout (`Words.takes_layout`), although the pattern could stop
anywhere in it. A string is taken up to its second quote, with a word in front of it if the pattern asks
for one (`Words.takes_quoted_iff`).
-/

namespace TriggerScript

namespace Words

open Pattern

/-- The white space of the two languages. -/
def blanks : List Char :=
  [' ', '\t', '\r', '\n']

/-- The characters with which layout begins. -/
def layoutStarts : List Char :=
  '/' :: blanks

/-- A sequence of white space and comments, each with the end of its line. -/
inductive IsLayout : List Char → Prop
  | nil : IsLayout []
  | blank {x rest} (hx : x ∈ blanks) (hrest : IsLayout rest) : IsLayout (x :: rest)
  | comment {text rest} (htext : '\n' ∉ text) (hrest : IsLayout rest) :
      IsLayout ('/' :: '/' :: (text ++ '\n' :: rest))

/-- What stands between two words: layout that is not empty. -/
def IsSeparator (s : String) : Prop :=
  s ≠ "" ∧ IsLayout s.toList

/-- One part of layout: a run of white space, or a comment without the end of its line. -/
def layoutPart : Pattern :=
  alt (plus (one (.ofList blanks))) (seq (word ['/', '/']) (star (one (.other (.single '\n')))))

lemma layout_eq : layout = plus layoutPart := rfl

variable {c c' : Cursor} {x : Char} {text after : List Char}

lemma contains_blanks : (CharClass.ofList blanks).contains x = decide (x ∈ blanks) := by
  rw [Bool.eq_iff_iff]
  simp [CharClass.ofList, CharClass.contains, blanks]

lemma dropWhile_append_cons (h : x ∉ text) :
    (text ++ x :: after).dropWhile (CharClass.other (.single x)).contains = x :: after := by
  have htext : ∀ y ∈ text, (CharClass.other (.single x)).contains y := by
    intro y hy
    have hne : y ≠ x := fun heq => h (heq ▸ hy)
    simp [CharClass.contains, hne]
  rw [List.dropWhile_append_of_pos htext]
  simp [CharClass.contains]

lemma IsLayout.dropWhile (h : IsLayout text) :
    IsLayout (text.dropWhile (CharClass.ofList blanks).contains) := by
  induction h with
  | nil => exact .nil
  | @blank x rest hx _ ih => simpa [contains_blanks, hx] using ih
  | comment htext hrest _ =>
    have hslash : '/' ∉ blanks := by decide
    simpa [contains_blanks, hslash] using IsLayout.comment htext hrest

lemma IsLayout.head_mem (h : IsLayout text) : ∀ y ∈ text.head?, y ∈ layoutStarts := by
  intro y hy
  cases h with
  | nil => cases hy
  | blank hx =>
    cases hy
    exact List.mem_cons_of_mem _ hx
  | comment =>
    cases hy
    exact List.mem_cons_self

/-- A part of layout begins as layout does, and takes some text. -/
lemma exists_of_matches_layoutPart (h : layoutPart.Matches c c') :
    ∃ x text, x ∈ layoutStarts ∧ c.rest = x :: (text ++ c'.rest) := by
  cases h with
  | left h =>
    cases h with
    | seq hone hstar =>
      obtain ⟨x, hx, hrest⟩ := exists_of_matches_one hone
      obtain ⟨text, hrest'⟩ := hstar.exists_append
      rw [contains_blanks, decide_eq_true_eq] at hx
      exact ⟨x, text, List.mem_cons_of_mem _ hx, by rw [hrest, hrest']⟩
  | right h =>
    cases h with
    | seq hword hstar =>
      have hword : (seq (one (.single '/')) (one (.single '/'))).Matches c _ := hword
      cases hword with
      | seq hone hone' =>
        obtain ⟨x, hx, hrest⟩ := exists_of_matches_one hone
        obtain ⟨text, hrest'⟩ := (hone'.seq hstar).exists_append
        obtain rfl : x = '/' := by simpa [CharClass.contains] using hx
        exact ⟨'/', text, List.mem_cons_self, by rw [hrest, hrest']⟩

lemma left_lt_of_matches_layoutPart (h : layoutPart.Matches c c') : c'.left < c.left := by
  obtain ⟨x, text, -, hrest⟩ := exists_of_matches_layoutPart h
  rw [c.left_eq, c'.left_eq, hrest, List.length_cons, List.length_append]
  omega

/-- White space is taken as far as it goes. -/
lemma exists_match?_blanks (hx : x ∈ blanks) (hrest : c.rest = x :: text) :
    ∃ c', layoutPart.match? c = some c' ∧
      c'.rest = text.dropWhile (CharClass.ofList blanks).contains := by
  have hx : (CharClass.ofList blanks).contains x := by rw [contains_blanks, decide_eq_true hx]
  obtain ⟨c', hmatch, hrest'⟩ := exists_match?_plus_one hx hrest
  exact ⟨c', by rw [layoutPart, match?_alt, hmatch, Option.some_or], hrest'⟩

/-- A comment is taken up to the end of its line. -/
lemma exists_match?_comment (htext : '\n' ∉ text)
    (hrest : c.rest = ['/', '/'] ++ (text ++ '\n' :: after)) :
    ∃ c', layoutPart.match? c = some c' ∧ c'.rest = '\n' :: after := by
  have hblank : (one (.ofList blanks)).match? c = none := by
    have hslash : '/' ∉ blanks := by decide
    obtain ⟨c₁, hnext, -⟩ := Cursor.next?_of_rest hrest
    simp [match?, run, hnext, contains_blanks, hslash]
  obtain ⟨c₂, hskip, hrest₂⟩ := Cursor.exists_skip? hrest
  obtain ⟨c', hmatch, hrest'⟩ := exists_match?_star_one (.other (.single '\n')) c₂
  refine ⟨c', ?_, ?_⟩
  · rw [layoutPart, match?_alt, plus, match?_seq_star, hblank, Option.bind_none, Option.none_or,
      match?, run, run_word, hskip]
    exact hmatch
  · rw [hrest', hrest₂, dropWhile_append_cons htext]

/-- Layout is taken as a whole if what comes behind it is no layout. -/
lemma exists_match?_layout (hlayout : IsLayout text)
    (hafter : ∀ y ∈ after.head?, y ∉ layoutStarts) (hrest : c.rest = text ++ after) :
    ∃ c', (star layoutPart).match? c = some c' ∧ c'.rest = after := by
  have hstop : after.dropWhile (CharClass.ofList blanks).contains = after := by
    cases after with
    | nil => rfl
    | cons y after =>
      have hy : y ∉ blanks := fun hy => hafter y rfl (List.mem_cons_of_mem _ hy)
      simp [contains_blanks, hy]
  induction hn : text.length using Nat.strongRecOn generalizing text c with
  | ind n ih =>
    -- one part of layout is taken, and what is left is layout again
    have hagain : ∀ {c' : Cursor} {text' : List Char}, layoutPart.match? c = some c' →
        IsLayout text' → c'.rest = text' ++ after → text'.length < n →
        ∃ c', (star layoutPart).match? c = some c' ∧ c'.rest = after := by
      intro c' text' hmatch hlayout' hrest' hlt
      obtain ⟨c'', hstar, hrest''⟩ := ih text'.length hlt hlayout' hrest' rfl
      refine ⟨c'', ?_, hrest''⟩
      rw [match?_star fun _ => left_lt_of_matches_layoutPart, hmatch, Option.bind_some, hstar,
        Option.some_or]
    cases hlayout with
    | nil =>
      have hnone : layoutPart.match? c = none := by
        by_contra hsome
        obtain ⟨c', hmatch⟩ := Option.ne_none_iff_exists'.1 hsome
        obtain ⟨x, text, hx, hstart⟩ := exists_of_matches_layoutPart (matches_of_match? hmatch)
        rw [hrest, List.nil_append] at hstart
        exact hafter x (by rw [hstart]; rfl) hx
      refine ⟨c, ?_, hrest⟩
      rw [match?_star fun _ => left_lt_of_matches_layoutPart, hnone, Option.bind_none, Option.none_or]
    | @blank x rest hx hlayout' =>
      obtain ⟨c', hmatch, hrest'⟩ := exists_match?_blanks hx hrest
      refine hagain hmatch hlayout'.dropWhile ?_ ?_
      · have hdrop : (rest ++ after).dropWhile (CharClass.ofList blanks).contains =
            rest.dropWhile (CharClass.ofList blanks).contains ++ after := by
          rw [List.dropWhile_append, hstop]
          split_ifs with hempty
          · rw [List.isEmpty_iff.1 hempty, List.nil_append]
          · rfl
        exact hrest'.trans hdrop
      · have hle := (List.dropWhile_sublist (l := rest) (CharClass.ofList blanks).contains).length_le
        rw [List.length_cons] at hn
        omega
    | @comment line rest hline hlayout' =>
      have hcomment : c.rest = ['/', '/'] ++ (line ++ '\n' :: (rest ++ after)) := by
        rw [hrest]
        simp
      obtain ⟨c', hmatch, hrest'⟩ := exists_match?_comment hline hcomment
      refine hagain hmatch (.blank (x := '\n') (by decide) hlayout') hrest' ?_
      simp only [List.length_cons, List.length_append] at hn ⊢
      omega

/-- A separator is taken as a whole if what comes behind it is no layout. -/
lemma takes_layout {s rest : String} (hs : IsSeparator s)
    (hrest : ∀ y ∈ rest.toList.head?, y ∉ layoutStarts) : Takes layout (s ++ rest) s := by
  obtain ⟨hne, hlayout⟩ := hs
  have htext : (s ++ rest).toList = s.toList ++ rest.toList := String.toList_append
  obtain ⟨c', hstar, hrest'⟩ :=
    exists_match?_layout (c := Cursor.start (s ++ rest).toList) hlayout hrest htext
  rw [layout_eq]
  refine ⟨hne, c', ?_, by rw [hrest', htext]⟩
  rw [match?_star fun _ => left_lt_of_matches_layoutPart, Option.or_eq_some_iff] at hstar
  rcases hstar with hplus | ⟨-, hstay⟩
  · exact match?_seq_star.trans hplus
  · obtain rfl := Option.some.inj hstay
    have hempty : s.toList = [] := List.append_left_eq_self.1 (htext.symm.trans hrest')
    exact absurd (String.toList_eq_nil_iff.1 hempty) hne

/-- What is taken for layout begins as layout does. -/
lemma head_mem_of_takes_layout {text taken : String} (h : Takes layout text taken) :
    ∃ x ∈ text.toList.head?, x ∈ layoutStarts := by
  rw [layout_eq] at h
  obtain ⟨-, c', hmatch, -⟩ := h
  have hlayout : (plus layoutPart).Matches (Cursor.start text.toList) c' := matches_of_match? hmatch
  cases hlayout with
  | seq hpart _ =>
    obtain ⟨x, rest, hx, hrest⟩ := exists_of_matches_layoutPart hpart
    have htext : text.toList = x :: (rest ++ _) := hrest
    exact ⟨x, by rw [htext]; rfl, hx⟩

/-- The text `taken` is a string with the word in front of it, and stands at the front of the text. -/
def Quoted (word text taken : List Char) : Prop :=
  ∃ body, '"' ∉ body ∧ taken = word ++ '"' :: (body ++ ['"']) ∧ taken <+: text

/-- A string ends with its second quote. -/
lemma exists_of_matches_str (h : str.Matches c c') :
    ∃ body, '"' ∉ body ∧ c.rest = '"' :: (body ++ '"' :: c'.rest) := by
  cases h with
  | seq hopen h =>
    cases h with
    | @seq _ _ c₁ c₂ _ hbody hclose =>
      obtain ⟨x, hx, hrest⟩ := exists_of_matches_one hopen
      obtain ⟨y, hy, hrest₂⟩ := exists_of_matches_one hclose
      obtain ⟨body, hmem, hrest₁⟩ := hbody.exists_notMem (x := '"') (by decide)
      obtain rfl : x = '"' := by simpa [CharClass.contains] using hx
      obtain rfl : y = '"' := by simpa [CharClass.contains] using hy
      exact ⟨body, hmem, by rw [hrest, hrest₁, hrest₂]⟩

lemma exists_match?_str {body rest : List Char} (hbody : '"' ∉ body)
    (hrest : c.rest = '"' :: (body ++ '"' :: rest)) : ∃ c', str.match? c = some c' ∧ c'.rest = rest := by
  obtain ⟨c₁, hopen, hrest₁⟩ := Cursor.next?_of_rest hrest
  obtain ⟨c₂, hstar, hrest₂⟩ := exists_match?_star_one (.other (.single '"')) c₁
  rw [hrest₁, dropWhile_append_cons hbody] at hrest₂
  obtain ⟨c₃, hclose, -⟩ := Cursor.next?_of_rest hrest₂
  have hmatches : str.Matches c c₃ :=
    .seq (.one hopen rfl) (.seq (matches_of_match? hstar) (.one hclose rfl))
  obtain ⟨c', hmatch⟩ := Option.isSome_iff_exists.1 (isSome_run_of_matches hmatches (k := some) rfl)
  obtain ⟨body', hbody', hrest'⟩ := exists_of_matches_str (matches_of_match? hmatch)
  refine ⟨c', hmatch, ?_⟩
  -- all ways to match end behind the second quote, so this one does
  have hsame : body ++ '"' :: rest = body' ++ '"' :: c'.rest :=
    (List.cons.inj (hrest.symm.trans hrest')).2
  have hdrop := congrArg (List.dropWhile (CharClass.other (.single '"')).contains) hsame
  rw [dropWhile_append_cons hbody, dropWhile_append_cons hbody'] at hdrop
  exact (List.cons.inj hdrop).2.symm

/-- What a pattern takes that is a string behind a word. -/
lemma takes_quoted_iff {p : Pattern} {w : List Char} {text taken : String}
    (hp : ∀ c, p.match? c = (c.skip? w).bind str.match?) :
    Takes p text taken ↔ Quoted w text.toList taken.toList := by
  constructor
  · rintro ⟨-, c', hmatch, htext⟩
    obtain ⟨c₁, hskip, hstr⟩ := Option.bind_eq_some_iff.1 ((hp _).symm.trans hmatch)
    obtain ⟨body, hbody, hrest₁⟩ := exists_of_matches_str (matches_of_match? hstr)
    refine ⟨body, hbody, ?_, c'.rest, htext.symm⟩
    have hrest : text.toList = w ++ c₁.rest := Cursor.rest_of_skip? hskip
    refine List.append_cancel_right (?_ : _ ++ c'.rest = _)
    rw [← htext, hrest, hrest₁]
    simp
  · rintro ⟨body, hbody, htaken, rest, htext⟩
    have hrest : (Cursor.start text.toList).rest = w ++ '"' :: (body ++ '"' :: rest) := by
      have : text.toList = w ++ '"' :: (body ++ '"' :: rest) := by
        rw [← htext, htaken]
        simp
      exact this
    obtain ⟨c₁, hskip, hrest₁⟩ := Cursor.exists_skip? hrest
    obtain ⟨c', hstr, hrest'⟩ := exists_match?_str hbody hrest₁
    refine ⟨?_, c', ?_, by rw [hrest', htext]⟩
    · rintro rfl
      simp at htaken
    · exact (hp _).trans (Option.bind_eq_some_iff.2 ⟨c₁, hskip, hstr⟩)

lemma Quoted.append {w text taken : List Char} (h : Quoted w text taken) (rest : List Char) :
    Quoted w (text ++ rest) taken := by
  obtain ⟨body, hbody, htaken, hprefix⟩ := h
  exact ⟨body, hbody, htaken, hprefix.trans (List.prefix_append text rest)⟩

/-- Where a text has not just one quote, a string that begins in it ends in it. -/
lemma Quoted.of_append {w text rest taken : List Char} (h : Quoted w (text ++ rest) taken)
    (hw : '"' ∉ w) (hquotes : text.count '"' ≠ 1) (hrest : ∀ y ∈ rest.head?, y ∉ '"' :: w) :
    ∃ taken', Quoted w text taken' := by
  obtain ⟨body, -, rfl, tail, htext⟩ := h
  have htext : (w ++ ['"']) ++ (body ++ '"' :: tail) = text ++ rest := by
    rw [← htext]
    simp
  rcases List.append_eq_append_iff.1 htext with ⟨more, rfl, hmore⟩ | ⟨more, hmore, rfl⟩
  · -- the first quote lies in the text; so there is a second one
    have hmem : '"' ∈ more := by
      rw [List.count_append, List.count_append, List.count_eq_zero.2 hw] at hquotes
      refine List.count_pos_iff.1 (Nat.pos_of_ne_zero fun h => hquotes ?_)
      rw [h]
      rfl
    obtain ⟨body', tail', rfl, hbody'⟩ := List.eq_append_cons_of_mem hmem
    exact ⟨_, body', hbody', rfl, tail', by simp⟩
  · cases more with
    | nil =>
      refine absurd ?_ hquotes
      rw [List.append_nil] at hmore
      rw [← hmore, List.count_append, List.count_eq_zero.2 hw]
      rfl
    | cons y more =>
      have hy : y ∈ w ++ ['"'] := by
        rw [hmore]
        simp
      refine absurd ?_ (hrest y rfl)
      simpa [or_comm] using hy

/-- The characters at which the tokens of the two languages end, apart from those in strings. -/
def delimiters : List Char :=
  '"' :: layoutStarts

/-- The pattern is that of a string behind a word without delimiters. -/
def IsQuoted (p : Pattern) : Prop :=
  ∃ w, (∀ y ∈ delimiters, y ∉ w) ∧ ∀ c, p.match? c = (c.skip? w).bind str.match?

lemma Quoted.count_eq_two {w text taken : List Char} (h : Quoted w text taken) (hw : '"' ∉ w) :
    taken.count '"' = 2 := by
  obtain ⟨body, hbody, rfl, -⟩ := h
  simp [List.count_append, List.count_eq_zero.2 hw, List.count_eq_zero.2 hbody]

lemma Quoted.head_notMem {w text taken : List Char} (h : Quoted w text taken)
    (hw : ∀ y ∈ delimiters, y ∉ w) : ∀ y ∈ taken.head?, y ∉ layoutStarts := by
  obtain ⟨body, -, rfl, -⟩ := h
  intro y hy hstart
  cases w with
  | nil =>
    obtain rfl : '"' = y := Option.some.inj hy
    exact absurd hstart (by decide)
  | cons x w =>
    obtain rfl : x = y := Option.some.inj hy
    exact hw x (List.mem_cons_of_mem _ hstart) List.mem_cons_self

lemma isQuoted_str : IsQuoted str :=
  ⟨[], by simp, fun _ => rfl⟩

lemma isQuoted_text : IsQuoted Words.text :=
  ⟨['t', 'e', 'x', 't'], by simp [delimiters, layoutStarts, blanks], fun _ => run_word _⟩

/-! ## Texts without delimiters -/

lemma not_takes_layout {text : String} (htext : ∀ x ∈ delimiters, x ∉ text.toList) (taken : String) :
    ¬Takes layout text taken := by
  intro htakes
  obtain ⟨x, hx, hstart⟩ := head_mem_of_takes_layout htakes
  exact htext x (List.mem_cons_of_mem _ hstart) (List.mem_of_mem_head? hx)

lemma IsQuoted.not_takes {p : Pattern} (hp : IsQuoted p) {text : String}
    (htext : ∀ x ∈ delimiters, x ∉ text.toList) (taken : String) : ¬Takes p text taken := by
  intro htakes
  obtain ⟨w, -, hw⟩ := hp
  obtain ⟨body, -, htaken, hfront⟩ := (takes_quoted_iff hw).1 htakes
  have hquote : '"' ∈ taken.toList := by
    rw [htaken]
    simp
  exact htext '"' List.mem_cons_self (hfront.subset hquote)

end Words

end TriggerScript
