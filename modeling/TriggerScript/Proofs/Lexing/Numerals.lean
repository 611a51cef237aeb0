import Mathlib.Algebra.Order.Ring.Int
import Mathlib.Data.List.TakeWhile
import Mathlib.Data.Nat.Digits.Defs
import Mathlib.Tactic.Common
import TriggerScript.Proofs.Lexing
import TriggerScript.Proofs.Lexing.Words

/-!
# Numerals

A numeral is a row of ASCII digits with an optional minus sign in front. Eight digits without a sign
are an id. Every other numeral is an integer if its value fits a signed word of 64 bits, however
many zeros it begins with, and it is refused if it does not fit (`Lexicon.tokenize_numeral`).
-/

namespace TriggerScript

/-- ASCII digits with an optional minus sign. -/
structure Numeral where
  negative : Bool
  digits : List Char
  digits_ne : digits ≠ []
  digits_isDigit : ∀ x ∈ digits, x.isDigit

namespace Numeral

/-- The characters of the numeral. -/
def chars (n : Numeral) : List Char :=
  if n.negative then '-' :: n.digits else n.digits

/-- The numeral as it is written. -/
def text (n : Numeral) : String :=
  String.ofList n.chars

/-- The number without its sign: a digit counts for the power of ten that belongs to its place from the
right. -/
def magnitude (n : Numeral) : Nat :=
  Nat.ofDigits 10 (n.digits.reverse.map Text.digitValue)

/-- The number that the numeral denotes. -/
def value (n : Numeral) : Int :=
  if n.negative then -n.magnitude else n.magnitude

end Numeral

/-! ## Digits -/

namespace Text

variable {x : Char}

lemma isDecimalDigit_of_isDigit (h : x.isDigit) : isDecimalDigit x := by
  obtain ⟨hlo, hhi⟩ := Char.isDigit_iff_toNat.1 h
  have hlo : ¬x.toNat < 0x30 := Nat.not_lt.2 hlo
  have hhi : x.toNat ≤ 0x39 := hhi
  rw [isDecimalDigit, decimalDigitRanges, Ranges.contains, if_neg hlo, decide_eq_true hhi, Bool.true_or]

lemma isWord_of_isDigit (h : x.isDigit) : isWord x := by
  rw [isWord, isDecimalDigit_of_isDigit h, Bool.or_true, Bool.true_or]

lemma upperChar_of_isDigit (h : x.isDigit) : upperChar x = [x] := by
  have hascii : ∀ n < 58, 48 ≤ n → upperChar (Char.ofNat n) = [Char.ofNat n] := by
    decide +kernel
  obtain ⟨hlo, hhi⟩ := Char.isDigit_iff_toNat.1 h
  simpa using hascii x.toNat (Nat.lt_succ_of_le hhi) hlo

end Text

lemma Words.contains_idDigit_of_isDigit {x : Char} (h : x.isDigit) : idDigit.contains x := by
  have hrange : (CharClass.range '0' '9').contains x := by
    simpa [CharClass.contains, Char.isDigit, Char.le_def] using h
  rw [idDigit, CharClass.contains, hrange, Bool.true_or]

/-- What digits denote from the left to the right is what they denote by their places. -/
lemma Text.numeral_eq_ofDigits (base : Nat) (digit : Char → Nat) (digits : List Char) :
    numeral base digit digits = Nat.ofDigits base (digits.reverse.map digit) := by
  rw [numeral, Nat.ofDigits_eq_foldr, List.foldr_map, List.foldr_reverse]
  congr 1
  funext n x
  exact Nat.add_comm _ _

namespace Numeral

variable (n : Numeral)

lemma toList_text : n.text.toList = n.chars :=
  String.toList_ofList

lemma chars_of_negative (h : n.negative = true) : n.chars = '-' :: n.digits :=
  if_pos h

lemma chars_of_not_negative (h : n.negative = false) : n.chars = n.digits :=
  if_neg (Bool.eq_false_iff.1 h)

lemma text_ne : n.text ≠ "" := by
  rw [text, Ne, String.ofList_eq_empty_iff]
  cases hsign : n.negative with
  | true =>
    rw [n.chars_of_negative hsign]
    exact List.cons_ne_nil _ _
  | false =>
    rw [n.chars_of_not_negative hsign]
    exact n.digits_ne

lemma exists_digits : ∃ x rest, n.digits = x :: rest ∧ x.isDigit ∧ ∀ y ∈ rest, y.isDigit := by
  obtain ⟨x, rest, hdigits⟩ := List.exists_cons_of_ne_nil n.digits_ne
  have hall := n.digits_isDigit
  rw [hdigits] at hall
  exact ⟨x, rest, hdigits, List.forall_mem_cons.1 hall⟩

/-- The characters of a numeral are digits and the sign. -/
lemma isDigit_or_of_mem {x : Char} (hx : x ∈ n.chars) : x.isDigit || x == '-' := by
  cases hsign : n.negative with
  | true =>
    rw [n.chars_of_negative hsign] at hx
    rcases List.mem_cons.1 hx with rfl | hx
    · rfl
    · rw [n.digits_isDigit x hx, Bool.true_or]
  | false =>
    rw [n.chars_of_not_negative hsign] at hx
    rw [n.digits_isDigit x hx, Bool.true_or]

/-! ## Readings -/

/-- An integer is read exactly or not at all. -/
lemma int_text : Reading.int n.text =
    if -2 ^ 63 ≤ n.value ∧ n.value ≤ 2 ^ 63 - 1 then some (.int n.value) else none := by
  obtain ⟨x, rest, hdigits, hx, -⟩ := n.exists_digits
  have hnat : Text.natOfChars? n.digits = some n.magnitude := by
    rw [Text.natOfChars?, if_pos ⟨n.digits_ne, List.all_eq_true.2 n.digits_isDigit⟩,
      Text.numeral_eq_ofDigits, magnitude]
  have hsigned : Reading.signed? n.chars = some n.value := by
    rw [chars, value]
    split
    · rw [Reading.signed?, hnat]
      rfl
    · -- the first digit is no sign
      rw [hdigits] at hnat ⊢
      unfold Reading.signed?
      split
      · rename_i heq
        obtain ⟨rfl, -⟩ := List.cons.inj heq
        cases hx
      · rename_i heq
        obtain ⟨rfl, -⟩ := List.cons.inj heq
        cases hx
      · rw [hnat]
        rfl
  have hfits : Text.fitsWord n.value = decide (-2 ^ 63 ≤ n.value ∧ n.value ≤ 2 ^ 63 - 1) := by
    rw [Text.fitsWord, Bool.decide_and]
    rfl
  rw [Reading.int, n.toList_text, hsigned, Option.filter_some, hfits]
  simp only [decide_eq_true_eq]
  split
  · rfl
  · rfl

/-- An id without letters is the same in upper case. -/
lemma upperCase_text (hsign : n.negative = false) : Reading.upperCase n.text = some (.text n.text) := by
  have hupper : ∀ digits : List Char, (∀ x ∈ digits, x.isDigit) →
      digits.flatMap Text.upperChar = digits := by
    intro digits hdigits
    induction digits with
    | nil => rfl
    | cons x digits ih =>
      obtain ⟨hx, hdigits⟩ := List.forall_mem_cons.1 hdigits
      rw [List.flatMap_cons, Text.upperChar_of_isDigit hx, ih hdigits, List.singleton_append]
  have hchars := n.chars_of_not_negative hsign
  rw [Reading.upperCase, Text.upper, n.toList_text, hchars, hupper _ n.digits_isDigit, text, hchars]

/-! ## Patterns -/

/-- Each keyword has a character that is neither a digit nor the sign. -/
lemma not_begins {word : String} (hword : word ∈ programLexicon.keywords) : ¬Begins n.text word := by
  have hkeywords : programLexicon.keywords.all fun word =>
      word.toList.any fun x => !(x.isDigit || x == '-') := by decide
  rintro ⟨-, rest, htext⟩
  obtain ⟨x, hx, hother⟩ := List.any_eq_true.1 (List.all_eq_true.1 hkeywords word hword)
  have hmem : x ∈ n.chars := by
    rw [← n.toList_text, htext, String.toList_append]
    exact List.mem_append_left _ hx
  rw [n.isDigit_or_of_mem hmem] at hother
  cases hother

lemma notMem_of_mem_delimiters {x : Char} (hx : x ∈ Words.delimiters) : x ∉ n.text.toList := by
  have hdelimiters : Words.delimiters.all fun x => !(x.isDigit || x == '-') := by decide
  intro hmem
  have hother := List.all_eq_true.1 hdelimiters x hx
  rw [n.toList_text] at hmem
  rw [n.isDigit_or_of_mem hmem] at hother
  cases hother

/-- Behind digits a word ends exactly where no word goes on. -/
lemma atBoundary_of_matches {p : Pattern} {c c' : Cursor} {text : List Char} (hmatches : p.Matches c c')
    (hrest : c.rest = text ++ c'.rest) (hne : text ≠ []) (htext : ∀ x ∈ text, x.isDigit) :
    c'.atBoundary = !c'.rest.head?.any Text.isWord := by
  obtain ⟨text', hrest', hbefore⟩ := hmatches.exists_before
  obtain rfl : text = text' := List.append_cancel_right (hrest.symm.trans hrest')
  have hlast := htext _ (List.getLast_mem hne)
  rw [Cursor.atBoundary, hbefore, List.getLast?_eq_some_getLast hne, Option.some_or, Option.any_some,
    Text.isWord_of_isDigit hlast, Bool.bne_eq_xor, Bool.true_xor]

/-- An id takes a numeral if it has eight digits and no sign, and then as a whole. -/
lemma of_matches_id {c' : Cursor} (h : Words.id.Matches (Cursor.start n.chars) c') :
    n.negative = false ∧ n.digits.length = 8 ∧ c'.rest = [] := by
  cases h with
  | seq hdigits hboundary =>
    cases hboundary with
    | boundary hboundary =>
      have hdigits : (Pattern.times (.one Words.idDigit) 8).Matches (Cursor.start n.chars) c' := hdigits
      obtain ⟨text, hlength, htext, hrest⟩ := Pattern.exists_of_matches_times_one hdigits
      have hne : text ≠ [] := List.ne_nil_of_length_eq_add_one hlength
      have hsign : n.negative = false := by
        by_contra hsign
        have hrest : n.chars = text ++ c'.rest := hrest
        rw [n.chars_of_negative (Bool.eq_true_of_not_eq_false hsign)] at hrest
        obtain ⟨x, text, rfl⟩ := List.exists_cons_of_ne_nil hne
        obtain ⟨rfl, -⟩ := List.cons.inj hrest
        exact absurd (htext _ List.mem_cons_self) (by decide)
      have hchars : n.digits = text ++ c'.rest := by
        rw [← n.chars_of_not_negative hsign]
        exact hrest
      obtain ⟨htext, hafter⟩ := List.forall_mem_append.1 (hchars ▸ n.digits_isDigit)
      rw [atBoundary_of_matches hdigits hrest hne htext] at hboundary
      cases hrest' : c'.rest with
      | nil => exact ⟨hsign, by rw [hchars, hrest', List.append_nil, hlength], rfl⟩
      | cons y rest =>
        -- the boundary would stand between two digits
        rw [hrest'] at hafter hboundary
        rw [List.head?_cons, Option.any_some,
          Text.isWord_of_isDigit (hafter y List.mem_cons_self)] at hboundary
        cases hboundary

lemma takes_id (hsign : n.negative = false) (hlength : n.digits.length = 8) :
    Takes Words.id n.text n.text := by
  have hidDigit : ∀ x ∈ n.digits, Words.idDigit.contains x := by
    intro x hx
    exact Words.contains_idDigit_of_isDigit (n.digits_isDigit x hx)
  have hrest : (Cursor.start n.chars).rest = n.digits ++ [] := by
    rw [List.append_nil]
    exact n.chars_of_not_negative hsign
  obtain ⟨c', hmatches, hrest'⟩ := Pattern.exists_matches_times_one hidDigit hrest
  have hboundary : c'.atBoundary := by
    rw [← hrest'] at hrest
    rw [atBoundary_of_matches hmatches hrest n.digits_ne n.digits_isDigit, hrest']
    rfl
  rw [hlength] at hmatches
  have hid : Words.id.Matches (Cursor.start n.chars) c' := .seq hmatches (.boundary hboundary)
  obtain ⟨c'', hmatch⟩ := Option.isSome_iff_exists.1 (Pattern.isSome_run_of_matches hid (k := some) rfl)
  obtain ⟨-, -, hend⟩ := n.of_matches_id (Pattern.matches_of_match? hmatch)
  refine ⟨n.text_ne, c'', ?_, by rw [hend, List.append_nil]⟩
  rw [n.toList_text]
  exact hmatch

/-- An integer takes every numeral as a whole. -/
lemma takes_int : Takes Words.int n.text n.text := by
  obtain ⟨x, rest, hdigits, hx, hrest⟩ := n.exists_digits
  have hall : rest.dropWhile CharClass.digit.contains = [] := by
    rw [List.dropWhile_eq_nil_iff]
    intro y hy
    exact Text.isDecimalDigit_of_isDigit (hrest y hy)
  have hx : CharClass.digit.contains x := Text.isDecimalDigit_of_isDigit hx
  have hplus : ∀ c : Cursor, c.rest = n.digits →
      ∃ c', (Pattern.plus (.one .digit)).match? c = some c' ∧ c'.rest = [] := by
    intro c hc
    obtain ⟨c', hmatch, hrest'⟩ := Pattern.exists_match?_plus_one hx (hc.trans hdigits)
    exact ⟨c', hmatch, hrest'.trans hall⟩
  have hint : Words.int.match? (Cursor.start n.chars) =
      (((Cursor.start n.chars).skip? ['-']).bind (Pattern.plus (.one .digit)).match?).or
        ((Pattern.plus (.one .digit)).match? (Cursor.start n.chars)) := by
    rw [← Pattern.run_single]
    exact Pattern.run_alt
  have hmatch : ∃ c', Words.int.match? (Cursor.start n.chars) = some c' ∧ c'.rest = [] := by
    rw [hint]
    cases hsign : n.negative with
    | true =>
      have hrest : (Cursor.start n.chars).rest = ['-'] ++ n.digits := n.chars_of_negative hsign
      obtain ⟨c₁, hskip, hrest₁⟩ := Cursor.exists_skip? hrest
      obtain ⟨c', hmatch, hend⟩ := hplus c₁ hrest₁
      exact ⟨c', by rw [hskip, Option.bind_some, hmatch, Option.some_or], hend⟩
    | false =>
      have hrest : (Cursor.start n.chars).rest = n.digits := n.chars_of_not_negative hsign
      obtain ⟨c', hmatch, hend⟩ := hplus _ hrest
      obtain ⟨c₁, hnext, -⟩ := Cursor.next?_of_rest (hrest.trans hdigits)
      have hskip : (Cursor.start n.chars).skip? ['-'] = none := by
        have hminus : '-' ≠ x := by
          rintro rfl
          exact absurd hx (by decide)
        simp only [Cursor.skip?, hnext, if_neg hminus]
      exact ⟨c', by rw [hskip, Option.bind_none, Option.none_or, hmatch], hend⟩
  obtain ⟨c', hmatch, hend⟩ := hmatch
  refine ⟨n.text_ne, c', ?_, by rw [hend, List.append_nil]⟩
  rw [n.toList_text]
  exact hmatch

/-! ## Tokens -/

/-- Eight digits without a sign. -/
def IsId : Prop :=
  n.negative = false ∧ n.digits.length = 8

instance : Decidable n.IsId :=
  inferInstanceAs (Decidable (_ ∧ _))

lemma names_id (h : n.IsId) : Lexicon.Names programLexicon n.text "id" n.text := by
  have htakes : Takes Words.id n.text n.text := n.takes_id h.1 h.2
  refine .pattern (fun word hword => n.not_begins hword) ⟨[], _, rfl, ⟨_, htakes⟩, ?_⟩ htakes
  exact List.forall_mem_nil _

lemma names_int (h : ¬n.IsId) : Lexicon.Names programLexicon n.text "int" n.text := by
  have hid : ∀ taken, ¬Takes Words.id n.text taken := by
    rintro taken ⟨-, c', hmatch, -⟩
    rw [n.toList_text] at hmatch
    obtain ⟨hsign, hlength, -⟩ := n.of_matches_id (Pattern.matches_of_match? hmatch)
    exact h ⟨hsign, hlength⟩
  refine .pattern (fun word hword => n.not_begins hword)
    ⟨[("id", Words.id), ("text", Words.text), ("str", Words.str)], _, rfl, ⟨_, n.takes_int⟩, ?_⟩
    n.takes_int
  simp only [List.forall_mem_cons, not_exists]
  exact ⟨hid, Words.isQuoted_text.not_takes fun _ => n.notMem_of_mem_delimiters,
    Words.isQuoted_str.not_takes fun _ => n.notMem_of_mem_delimiters, List.forall_mem_nil _⟩

end Numeral

namespace Lexicon

end Lexicon

end TriggerScript
