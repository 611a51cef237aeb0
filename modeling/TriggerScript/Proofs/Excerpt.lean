import Mathlib.Data.List.Infix
import Mathlib.Data.List.Nodup
import Mathlib.Data.Nat.Init
import Mathlib.Tactic.Common
import TriggerScript.Excerpt

/-!
# What an excerpt shows

Two notions of a line meet in an excerpt. The line of an offset is found by counting the line feeds
in front of it, and the lines that can be shown are the pieces between line feeds, where the last
piece counts only if it is not empty. `IsLine` tells the second notion in the terms of the first:
the number of a line is the number of line feeds in front of it (`getElem?_linesFrom_iff`).

An excerpt shows the line of the offset and up to two lines on either side, each with its own
number, and it marks that line. The one exception is an offset at the end of a text that is empty or
ends with a line feed: there the line of the offset is an empty piece that is not shown, and nothing
is marked (`render_shows_lines_around`, `render_behind_last_line_feed`).
-/

namespace TriggerScript.Excerpt

variable {cs front rest line : List Char} {n : Nat}

/-! ## Line feeds in front of an offset -/

/-- The number of line feeds among the bytes of a text in front of an offset. -/
def feeds (source : String) (offset : Nat) : Nat :=
  (source.toByteArray.data.toList.take offset).count 10

/-- The byte of a line feed is part of no other character: beyond ASCII, all bytes are 128 or more. -/
lemma mem_utf8EncodeChar_iff {c : Char} : 10 ∈ String.utf8EncodeChar c ↔ c = '\n' := by
  have hbyte : ∀ k < 256, 10 = UInt8.ofNat k → k = 10 := by
    intro k hk heq
    have hnat : (10 : UInt8).toNat = (UInt8.ofNat k).toNat := congrArg UInt8.toNat heq
    rw [UInt8.toNat_ofNat', Nat.mod_eq_of_lt hk] at hnat
    exact hnat.symm
  constructor
  · intro h
    unfold String.utf8EncodeChar at h
    dsimp only at h
    split_ifs at h with hascii <;> simp only [List.mem_cons, List.not_mem_nil, or_false] at h
    · have hten : c.val.toNat = 10 := hbyte _ (by omega) h
      exact Char.ext (UInt32.toNat_inj.1 hten)
    · rcases h with h | h <;> exact absurd (hbyte _ (by omega) h) (by omega)
    · rcases h with h | h | h <;> exact absurd (hbyte _ (by omega) h) (by omega)
    · rcases h with h | h | h | h <;> exact absurd (hbyte _ (by omega) h) (by omega)
  · rintro rfl
    decide

lemma utf8EncodeChar_line_feed : String.utf8EncodeChar '\n' = [10] := by
  decide

lemma toList_bytes_eq (source : String) :
    source.toByteArray.data.toList = source.toList.flatMap String.utf8EncodeChar := by
  rw [← String.utf8Encode_toList, List.utf8Encode, List.toList_data_toByteArray]

/-- Of the bytes of one character, the first is a line feed or none is. -/
lemma count_take_utf8EncodeChar {c : Char} {offset : Nat} (h : 0 < offset) :
    ((String.utf8EncodeChar c).take offset).count 10 = if c = '\n' then 1 else 0 := by
  split_ifs with hc
  · subst hc
    obtain ⟨k, rfl⟩ : ∃ k, offset = k + 1 := ⟨offset - 1, by omega⟩
    rw [utf8EncodeChar_line_feed]
    simp
  · rw [List.count_eq_zero]
    intro hmem
    exact hc (mem_utf8EncodeChar_iff.1 (List.mem_of_mem_take hmem))

lemma lineFeedsBefore_eq (offset : Nat) (cs : List Char) :
    lineFeedsBefore offset cs = ((cs.flatMap String.utf8EncodeChar).take offset).count 10 := by
  induction cs generalizing offset with
  | nil => simp [lineFeedsBefore]
  | cons c cs ih =>
    rw [lineFeedsBefore]
    split_ifs with hoffset hc
    · simp [hoffset]
    all_goals
      rw [List.flatMap_cons, List.take_append, List.count_append, String.length_utf8EncodeChar, ← ih,
        count_take_utf8EncodeChar (by omega)]
    · rw [if_pos hc]
    · rw [if_neg hc]

lemma count_bytes (cs : List Char) : (cs.flatMap String.utf8EncodeChar).count 10 = cs.count '\n' := by
  induction cs with
  | nil => rfl
  | cons c cs ih =>
    have hc := count_take_utf8EncodeChar (c := c) c.utf8Size_pos
    rw [List.take_of_length_le (Nat.le_of_eq (String.length_utf8EncodeChar c))] at hc
    rw [List.flatMap_cons, List.count_append, hc, ih, List.count_cons, Nat.add_comm]
    simp

/-! ## Lines -/

/-- A line ends at a line feed or a carriage return with a line feed. A line that has some text also ends
at the end of the text. -/
inductive LineEnd : List Char → List Char → Prop
  | feed {line rest : List Char} (h : line.getLast? ≠ some '\r') : LineEnd line ('\n' :: rest)
  | return_feed {line rest : List Char} : LineEnd line ('\r' :: '\n' :: rest)
  | stop {line : List Char} (h : line ≠ []) : LineEnd line []

/-- The line behind `n` line feeds. -/
def IsLine (cs : List Char) (n : Nat) (line : List Char) : Prop :=
  ∃ before after, cs = before ++ (line ++ after) ∧ before.count '\n' = n ∧
    (before = [] ∨ before.getLast? = some '\n') ∧ '\n' ∉ line ∧ LineEnd line after

/-- The text in front of a line feed, without a carriage return at its end. -/
def chomp (front : List Char) : List Char :=
  if front.getLast? = some '\r' then front.dropLast else front

/-- A text is one piece without a line feed, or such a piece with a line feed and a text behind it. -/
lemma line_induction {P : List Char → Prop} (last : ∀ cs, '\n' ∉ cs → P cs)
    (step : ∀ front rest, '\n' ∉ front → P rest → P (front ++ '\n' :: rest))
    (cs : List Char) : P cs := by
  induction h : cs.length using Nat.strong_induction_on generalizing cs with
  | _ length ih =>
    by_cases hmem : '\n' ∈ cs
    · obtain ⟨front, rest, rfl, hfront⟩ := List.eq_append_cons_of_mem hmem
      have hshorter : rest.length < length := by
        rw [← h, List.length_append, List.length_cons]
        omega
      exact step front rest hfront (ih _ hshorter rest rfl)
    · exact last cs hmem

/-- Characters other than line feeds are gathered. -/
lemma linesFrom_append (h : '\n' ∉ front) (acc rest : List Char) :
    linesFrom acc (front ++ rest) = linesFrom (front.reverse ++ acc) rest := by
  induction front generalizing acc with
  | nil => rfl
  | cons c front ih =>
    obtain ⟨hc, hfront⟩ := not_or.1 (List.mem_cons.not.1 h)
    rw [List.cons_append, linesFrom, ih hfront, List.reverse_cons, List.append_assoc]
    · rfl
    · exact fun heq => hc heq.symm

lemma linesFrom_feed (h : '\n' ∉ front) (rest : List Char) :
    linesFrom [] (front ++ '\n' :: rest) = chomp front :: linesFrom [] rest := by
  rw [linesFrom_append h, List.append_nil]
  rcases List.eq_nil_or_concat front with rfl | ⟨init, c, rfl⟩
  · rfl
  · rw [List.concat_eq_append, List.reverse_append, List.reverse_singleton, List.singleton_append]
    by_cases hc : c = '\r'
    · subst hc
      simp [linesFrom, chomp]
    · simp [linesFrom, chomp, hc]

lemma linesFrom_last (h : '\n' ∉ cs) : linesFrom [] cs = if cs = [] then [] else [cs] := by
  have hgather := linesFrom_append h [] []
  rw [List.append_nil, List.append_nil] at hgather
  rw [hgather, linesFrom]
  simp

/-- What stands in front of the first line feed can be read off a text. -/
lemma append_feed_inj {front' rest' : List Char} (h : '\n' ∉ front) (h' : '\n' ∉ front')
    (heq : front ++ '\n' :: rest = front' ++ '\n' :: rest') : front = front' ∧ rest = rest' := by
  have hsplit := congrArg (List.splitOn '\n') heq
  rw [List.splitOn_append_cons_self_of_not_mem h, List.splitOn_append_cons_self_of_not_mem h'] at hsplit
  obtain rfl := (List.cons.inj hsplit).1
  exact ⟨rfl, (List.cons.inj (List.append_cancel_left heq)).2⟩

lemma count_feed (h : '\n' ∉ front) (rest : List Char) :
    (front ++ '\n' :: rest).count '\n' = rest.count '\n' + 1 := by
  rw [List.count_append, List.count_eq_zero.2 h, List.count_cons_self, Nat.zero_add]

/-- Whether a text ends with a line feed is seen behind any of its line feeds. -/
lemma getLast?_feed_iff (front rest : List Char) :
    (front ++ '\n' :: rest).getLast? = some '\n' ↔ rest = [] ∨ rest.getLast? = some '\n' := by
  rcases List.eq_nil_or_concat rest with rfl | ⟨init, c, rfl⟩
  · simp
  · rw [List.concat_eq_append, ← List.cons_append, ← List.append_assoc, List.getLast?_concat,
      List.getLast?_concat]
    simp

/-- A text without a line feed is its only line, if it is not empty. -/
lemma isLine_last_iff (h : '\n' ∉ cs) : IsLine cs n line ↔ n = 0 ∧ line = cs ∧ cs ≠ [] := by
  constructor
  · rintro ⟨before, after, rfl, rfl, hbefore, -, hend⟩
    simp only [List.mem_append, not_or] at h
    obtain rfl : before = [] := by
      rcases hbefore with hbefore | hbefore
      · exact hbefore
      · exact absurd (List.mem_of_getLast? hbefore) h.1
    cases hend with
    | feed => exact absurd List.mem_cons_self h.2.2
    | return_feed => exact absurd (List.mem_cons_of_mem _ List.mem_cons_self) h.2.2
    | stop hline =>
      rw [List.append_nil]
      exact ⟨rfl, rfl, hline⟩
  · rintro ⟨rfl, rfl, hne⟩
    exact ⟨[], [], by simp, rfl, .inl rfl, h, .stop hne⟩

/-- The line in front of the first line feed. -/
lemma isLine_chomp (h : '\n' ∉ front) (rest : List Char) :
    IsLine (front ++ '\n' :: rest) 0 (chomp front) := by
  unfold chomp
  split_ifs with hreturn
  · have hfront : front.dropLast ++ ['\r'] = front := List.dropLast_append_getLast? _ hreturn
    refine ⟨[], '\r' :: '\n' :: rest, ?_, rfl, .inl rfl, fun hmem => h (List.mem_of_mem_dropLast hmem),
      .return_feed⟩
    rw [List.nil_append, List.append_cons front.dropLast, hfront]
  · exact ⟨[], '\n' :: rest, rfl, rfl, .inl rfl, h, .feed hreturn⟩

lemma eq_chomp {after : List Char} (h : '\n' ∉ front) (hline : '\n' ∉ line) (hend : LineEnd line after)
    (heq : front ++ '\n' :: rest = line ++ after) : line = chomp front := by
  cases hend with
  | feed hreturn =>
    obtain ⟨rfl, -⟩ := append_feed_inj h hline heq
    rw [chomp, if_neg hreturn]
  | return_feed =>
    rw [List.append_cons line] at heq
    obtain ⟨rfl, -⟩ := append_feed_inj h (by simpa using hline) heq
    simp [chomp]
  | stop =>
    rw [List.append_nil] at heq
    exact absurd (heq ▸ List.mem_append_right _ List.mem_cons_self) hline

/-- The lines of a text with a line feed are the one in front of it and those behind it. -/
lemma isLine_feed_iff (h : '\n' ∉ front) : IsLine (front ++ '\n' :: rest) n line ↔
    n = 0 ∧ line = chomp front ∨ ∃ m, n = m + 1 ∧ IsLine rest m line := by
  constructor
  · rintro ⟨before, after, heq, rfl, hbefore, hline, hend⟩
    rcases hbefore with rfl | hbefore
    · exact .inl ⟨rfl, eq_chomp h hline hend heq⟩
    · have hmem : '\n' ∈ before := List.mem_of_getLast? hbefore
      obtain ⟨front', before, rfl, hfront'⟩ := List.eq_append_cons_of_mem hmem
      rw [List.append_assoc, List.cons_append] at heq
      obtain ⟨rfl, rfl⟩ := append_feed_inj h hfront' heq
      exact .inr ⟨before.count '\n', count_feed h before, before, after, rfl, rfl,
        (getLast?_feed_iff front before).1 hbefore, hline, hend⟩
  · rintro (⟨rfl, rfl⟩ | ⟨m, rfl, before, after, rfl, rfl, hbefore, hline, hend⟩)
    · exact isLine_chomp h rest
    · exact ⟨front ++ '\n' :: before, after, by simp, count_feed h before,
        .inr ((getLast?_feed_iff front before).2 hbefore), hline, hend⟩

/-- The two notions of a line agree: a line has the number of the line feeds in front of it. -/
lemma getElem?_linesFrom_iff : (linesFrom [] cs)[n]? = some line ↔ IsLine cs n line := by
  induction cs using line_induction generalizing n with
  | last cs h =>
    rw [linesFrom_last h, isLine_last_iff h]
    split_ifs with hnil
    · simp [hnil]
    · cases n with
      | zero => simp [hnil, eq_comm]
      | succ n => simp
  | step front rest h ih =>
    rw [linesFrom_feed h, isLine_feed_iff h]
    cases n with
    | zero => simp [eq_comm]
    | succ n => simp [ih]

/-- There are as many lines as line feeds, and one more if there is text behind the last one. -/
lemma length_linesFrom (cs : List Char) : (linesFrom [] cs).length =
    cs.count '\n' + if cs = [] ∨ cs.getLast? = some '\n' then 0 else 1 := by
  induction cs using line_induction with
  | last cs h =>
    have hlast : cs.getLast? ≠ some '\n' := fun hlast => h (List.mem_of_getLast? hlast)
    rw [linesFrom_last h, List.count_eq_zero.2 h]
    by_cases hnil : cs = []
    · simp [hnil]
    · simp [hnil, hlast]
  | step front rest h ih =>
    have hne : front ++ '\n' :: rest ≠ [] := by simp
    rw [linesFrom_feed h, List.length_cons, ih, count_feed h]
    simp only [hne, false_or, getLast?_feed_iff]
    omega

/-! ## Offsets and lines -/

lemma feeds_eq (source : String) (offset : Nat) :
    feeds source offset = lineFeedsBefore offset source.toList := by
  rw [feeds, toList_bytes_eq, lineFeedsBefore_eq]

lemma feeds_le_count (source : String) (offset : Nat) :
    feeds source offset ≤ source.toList.count '\n' := by
  rw [feeds, toList_bytes_eq, ← count_bytes]
  exact (List.take_sublist _ _).count_le _

/-- In front of the last line feed there are fewer line feeds than in the whole. -/
lemma count_take_concat_lt_iff (bytes : List UInt8) (offset : Nat) :
    ((bytes ++ [10]).take offset).count 10 < (bytes ++ [10]).count 10 ↔
      offset < (bytes ++ [10]).length := by
  constructor
  · intro hlt
    by_contra hge
    rw [List.take_of_length_le (Nat.le_of_not_lt hge)] at hlt
    exact Nat.lt_irrefl _ hlt
  · intro hlt
    have hoffset : offset ≤ bytes.length := by
      rw [List.length_append, List.length_singleton] at hlt
      omega
    have hcount : (bytes.take offset).count 10 ≤ bytes.count 10 := (List.take_sublist _ _).count_le _
    rw [List.take_append_of_le_length hoffset, List.count_append, List.count_singleton_self]
    omega

/-- The line of an offset can be shown, unless the text is empty or the offset is behind the line
feed with which the text ends. -/
lemma feeds_lt_length_iff (source : String) (offset : Nat) :
    feeds source offset < (lines source).length ↔
      source ≠ "" ∧ ¬(source.toList.getLast? = some '\n' ∧ source.utf8ByteSize ≤ offset) := by
  have hcount := feeds_le_count source offset
  rw [lines, length_linesFrom]
  by_cases hnil : source = ""
  · subst hnil
    simp
  have hne : source.toList ≠ [] := by simpa using hnil
  by_cases hlast : source.toList.getLast? = some '\n'
  · have hfeeds : feeds source offset < source.toList.count '\n' ↔ offset < source.utf8ByteSize := by
      have hbytes : source.toByteArray.data.toList.length = source.utf8ByteSize := rfl
      have hinit : source.toList.dropLast ++ ['\n'] = source.toList :=
        List.dropLast_append_getLast? _ hlast
      rw [← hbytes, feeds, toList_bytes_eq, ← count_bytes, ← hinit, List.flatMap_append,
        List.flatMap_singleton, utf8EncodeChar_line_feed]
      exact count_take_concat_lt_iff _ _
    simpa [hnil, hlast] using hfeeds
  · simp only [hne, hlast, hnil, or_self, if_false, false_and, ne_eq, not_false_eq_true, and_self,
      iff_true]
    omega

/-! ## Rows -/

/-- The text of a row: the mark, the number of the line and the line. -/
def rowText (marked : Bool) (number : Nat) (line : List Char) : List Char :=
  (if marked then ['>', '>'] else [' ', ' ']) ++ ' ' :: column number ++ ' ' :: '|' :: ' ' :: line

lemma row_eq (marked : Bool) (n : Nat) (line : List Char) :
    row marked n line = rowText marked (n + 1) line ++ ['\n'] := by
  simp [row, rowText]

lemma feed_not_mem_rowText (h : '\n' ∉ line) (marked : Bool) (number : Nat) :
    '\n' ∉ rowText marked number line := by
  have hdigits : '\n' ∉ Text.natChars number := by
    intro hmem
    exact absurd (Nat.isDigit_of_mem_toDigits (by decide) (by decide) hmem) (by decide)
  cases marked <;> simp [rowText, column, hdigits, h]

/-- Texts of which each ends with a line feed are told apart by the line feeds. -/
lemma splitOn_flatMap {texts : List (List Char)} (h : ∀ text ∈ texts, '\n' ∉ text) :
    (texts.flatMap (· ++ ['\n'])).splitOn '\n' = texts ++ [[]] := by
  induction texts with
  | nil => rfl
  | cons text texts ih =>
    obtain ⟨htext, htexts⟩ := List.forall_mem_cons.1 h
    rw [List.flatMap_cons, List.append_assoc, List.singleton_append,
      List.splitOn_append_cons_self_of_not_mem htext, ih htexts, List.cons_append]

/-- The lines that an excerpt shows, with their numbers from zero. -/
def shown (source : String) (offset : Nat) : List (Nat × List Char) :=
  ((lines source).zipIdx.filter fun (_, n) =>
    feeds source offset ≤ n + 2 ∧ n ≤ feeds source offset + 2).map Prod.swap

lemma mem_shown_iff {source : String} {offset : Nat} : (n, line) ∈ shown source offset ↔
    IsLine source.toList n line ∧ feeds source offset ≤ n + 2 ∧ n ≤ feeds source offset + 2 := by
  rw [← getElem?_linesFrom_iff, ← lines, ← List.mk_mem_zipIdx_iff_getElem?, shown]
  simp

lemma pairwise_shown (source : String) (offset : Nat) :
    ((shown source offset).map Prod.fst).Pairwise (· < ·) := by
  have hnumbers : ((shown source offset).map Prod.fst).Sublist ((lines source).zipIdx.map Prod.snd) := by
    rw [shown, List.map_map]
    exact List.filter_sublist.map _
  refine List.Pairwise.sublist hnumbers ?_
  rw [List.zipIdx_map_snd]
  exact List.pairwise_lt_range'

/-- The rows of an excerpt are those of the lines that it shows. -/
lemma splitOn_render (source : String) (offset : Nat) :
    (render source offset).toList.splitOn '\n' = (shown source offset).map (fun (n, line) =>
      rowText (n = feeds source offset) (n + 1) line) ++ [[]] := by
  have hrender : (render source offset).toList = ((shown source offset).map (fun (n, line) =>
      rowText (n = feeds source offset) (n + 1) line)).flatMap (· ++ ['\n']) := by
    rw [render, String.toList_ofList, around, ← feeds_eq, shown, List.map_map, List.flatMap_map]
    exact List.flatMap_congr fun x _ => row_eq _ _ _
  rw [hrender]
  refine splitOn_flatMap fun text htext => ?_
  obtain ⟨⟨n, line⟩, hmem, rfl⟩ := List.mem_map.1 htext
  obtain ⟨⟨before, after, -, -, -, hline, -⟩, -⟩ := mem_shown_iff.1 hmem
  exact feed_not_mem_rowText hline _ _

/-! ## Marks -/

/-- Whether a row of an excerpt is marked. -/
def isMarked (row : List Char) : Bool :=
  ['>', '>'].isPrefixOf row

lemma isMarked_rowText (marked : Bool) (number : Nat) (line : List Char) :
    isMarked (rowText marked number line) = marked := by
  cases marked <;> rfl

/-- The line of the offset is shown if there is one. -/
lemma feeds_mem_shown_iff (source : String) (offset : Nat) :
    feeds source offset ∈ (shown source offset).map Prod.fst ↔
      feeds source offset < (lines source).length := by
  constructor
  · intro hmem
    obtain ⟨⟨n, line⟩, hshown, rfl⟩ := List.mem_map.1 hmem
    have hline := getElem?_linesFrom_iff.2 (mem_shown_iff.1 hshown).1
    exact (List.getElem?_eq_some_iff.1 hline).1
  · intro hlt
    have hline : IsLine source.toList (feeds source offset) (lines source)[feeds source offset] :=
      getElem?_linesFrom_iff.1 (List.getElem?_eq_getElem hlt)
    exact List.mem_map.2 ⟨_, mem_shown_iff.2 ⟨hline, by omega, by omega⟩, rfl⟩

/-- One row is marked if the line of the offset is shown, and none otherwise. -/
lemma countP_isMarked (source : String) (offset : Nat) :
    ((render source offset).toList.splitOn '\n').countP isMarked =
      if feeds source offset < (lines source).length then 1 else 0 := by
  have hmarks : ((render source offset).toList.splitOn '\n').countP isMarked =
      ((shown source offset).map Prod.fst).count (feeds source offset) := by
    rw [splitOn_render, List.countP_append, List.countP_map, List.count, List.countP_map]
    refine List.countP_congr fun x _ => ?_
    simp [isMarked_rowText]
  have hnodup : ((shown source offset).map Prod.fst).Nodup := (pairwise_shown source offset).nodup
  rw [hmarks]
  split_ifs with hlt
  · exact List.count_eq_one_of_mem hnodup ((feeds_mem_shown_iff source offset).2 hlt)
  · rw [List.count_eq_zero, feeds_mem_shown_iff]
    exact hlt

/-- An excerpt shows the lines around an offset. Let `feeds` be the number of line feeds in front of
the offset. The rows of the excerpt are those of the lines behind `feeds - 2` to `feeds + 2` line
feeds, in their order, each with its own number, which is one more than the number of line feeds in
front of it. The line behind `feeds` line feeds is marked, and no other. So there is one mark,
unless the text is empty or the offset is behind the line feed with which the text ends. -/
theorem render_shows_lines_around (source : String) (offset : Nat) :
    ∃ shown : List (Nat × List Char),
      (∀ n line, (n, line) ∈ shown ↔ IsLine source.toList n line ∧
        feeds source offset ≤ n + 2 ∧ n ≤ feeds source offset + 2) ∧
      (shown.map Prod.fst).Pairwise (· < ·) ∧
      (render source offset).toList.splitOn '\n' = shown.map (fun (n, line) =>
        rowText (n = feeds source offset) (n + 1) line) ++ [[]] ∧
      (((render source offset).toList.splitOn '\n').countP isMarked = 1 ↔
        source ≠ "" ∧ ¬(source.toList.getLast? = some '\n' ∧ source.utf8ByteSize ≤ offset)) := by
  refine ⟨shown source offset, fun n line => mem_shown_iff, pairwise_shown source offset,
    splitOn_render source offset, ?_⟩
  rw [← feeds_lt_length_iff, countP_isMarked]
  simp

/-- Behind the line feed with which a text ends, nothing is marked. -/
theorem render_behind_last_line_feed :
    render "a\n" 2 = "     1 | a\n" ∧ feeds "a\n" 2 = 1 ∧
      ((render "a\n" 2).toList.splitOn '\n').countP isMarked = 0 := by
  decide

end TriggerScript.Excerpt
