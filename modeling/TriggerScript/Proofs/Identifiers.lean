import Mathlib.Algebra.Ring.Nat
import Mathlib.Data.List.Induction
import Mathlib.Data.Nat.Digits.Defs
import Mathlib.Tactic.Common
import TriggerScript.Allocation

/-!
# Ids and their texts

An id is written as eight hexadecimal digits, which determine it (`ElementId.text_injective`). It is read
from these digits in upper and lower case (`ElementId.ofText?_eq_some_iff`), as the number that they
denote (`ElementId.toNat_of_ofText?`).
-/

namespace TriggerScript

namespace ElementId

lemma hexDigit_inj : ∀ m < 16, ∀ n < 16, hexDigit m = hexDigit n → m = n := by
  decide

/-- Digits determine what is left of a number when multiples of a power of sixteen are taken away. -/
lemma mod_of_hexChars_eq {count m n : Nat} (h : hexChars count m = hexChars count n) :
    m % 16 ^ count = n % 16 ^ count := by
  induction count generalizing m n with
  | zero => rw [pow_zero, Nat.mod_one, Nat.mod_one]
  | succ count ih =>
    obtain ⟨hupper, hlast⟩ := List.append_inj' h rfl
    have hdigit : m % 16 = n % 16 :=
      hexDigit_inj _ (Nat.mod_lt _ (by decide)) _ (Nat.mod_lt _ (by decide))
        (List.singleton_inj.1 hlast)
    rw [pow_succ, Nat.mul_comm, Nat.mod_mul, Nat.mod_mul, hdigit, ih hupper]

/-- Different ids have different texts. -/
lemma text_injective {id id' : ElementId} (h : id.text = id'.text) : id = id' := by
  have hchars : id.chars = id'.chars := String.ofList_injective h
  have hmod := mod_of_hexChars_eq hchars
  have hlt : ∀ id : ElementId, id.val.toNat < 16 ^ 8 := fun id => id.val.toNat_lt
  rw [Nat.mod_eq_of_lt (hlt id), Nat.mod_eq_of_lt (hlt id')] at hmod
  exact congrArg ElementId.mk (UInt32.toNat_inj.1 hmod)

/-! ## Reading the digits -/

open Text (isHexDigit hexValue numeral)

/-- From here on, all characters are their own upper case, and none is a digit. -/
lemma toUpper_of_le {c : Char} (h : 128 ≤ c.toNat) : c.toUpper = c ∧ ¬isHexDigit c := by
  have hval : ∀ d : Char, d.toNat < 128 → ¬c.val ≤ d.val := by
    intro d hd hle
    have hle' : c.toNat ≤ d.toNat := hle
    omega
  constructor
  · exact dif_neg fun hc => hval 'z' (by decide) hc.2
  · simp only [isHexDigit, Char.isDigit, Bool.or_eq_true, Bool.and_eq_true, decide_eq_true_eq]
    rintro ((⟨-, hle⟩ | ⟨-, hle⟩) | ⟨-, hle⟩)
    · exact hval '9' (by decide) hle
    · exact hval 'f' (by decide) hle
    · exact hval 'F' (by decide) hle

lemma isHexDigit_iff {c : Char} : isHexDigit c ↔ c ∈ "0123456789ABCDEFabcdef".toList := by
  have hdigits : "0123456789ABCDEFabcdef".toList.all isHexDigit := by
    decide
  have hascii : ∀ n < 128, isHexDigit (Char.ofNat n) →
      Char.ofNat n ∈ "0123456789ABCDEFabcdef".toList := by
    decide
  constructor
  · intro h
    have hlt : c.toNat < 128 := by
      by_contra hle
      exact (toUpper_of_le (by omega)).2 h
    have hspec := hascii c.toNat hlt
    rw [Char.ofNat_toNat] at hspec
    exact hspec h
  · exact List.all_eq_true.1 hdigits c

/-- A hexadecimal digit in upper case is the one that is written for its value. -/
lemma hexDigit_hexValue {c : Char} (h : isHexDigit c) :
    hexValue c < 16 ∧ hexDigit (hexValue c) = c.toUpper := by
  have hdigits : "0123456789ABCDEFabcdef".toList.all fun d =>
      hexValue d < 16 ∧ hexDigit (hexValue d) = d.toUpper := by
    decide
  exact of_decide_eq_true (List.all_eq_true.1 hdigits c (isHexDigit_iff.1 h))

lemma isHexDigit_of_toUpper {c : Char} {n : Nat} (hn : n < 16) (h : c.toUpper = hexDigit n) :
    isHexDigit c := by
  have hdigit : ∀ n < 16, isHexDigit (hexDigit n) := by
    decide
  have hascii : ∀ m < 128, isHexDigit (Char.ofNat m).toUpper → isHexDigit (Char.ofNat m) := by
    decide
  by_cases hc : c.toNat < 128
  · have hspec := hascii c.toNat hc
    rw [Char.ofNat_toNat, h] at hspec
    exact hspec (hdigit n hn)
  · obtain ⟨hupper, -⟩ := toUpper_of_le (Nat.le_of_not_lt hc)
    rw [← hupper, h]
    exact hdigit n hn

/-- Digits are written as they are read, in upper case. -/
lemma hexChars_numeral {digits : List Char} (h : ∀ c ∈ digits, isHexDigit c) :
    numeral 16 hexValue digits < 16 ^ digits.length ∧
      hexChars digits.length (numeral 16 hexValue digits) = digits.map Char.toUpper := by
  induction digits using List.reverseRecOn with
  | nil => exact ⟨by decide, rfl⟩
  | append_singleton digits c ih =>
    obtain ⟨hdigits, hc⟩ := List.forall_mem_append.1 h
    obtain ⟨hlt, hdigit⟩ := hexDigit_hexValue (hc c List.mem_cons_self)
    obtain ⟨hbound, hchars⟩ := ih hdigits
    have hnumeral : numeral 16 hexValue (digits ++ [c]) =
        16 * numeral 16 hexValue digits + hexValue c := by
      simp [numeral]
    have hdiv : (16 * numeral 16 hexValue digits + hexValue c) / 16 = numeral 16 hexValue digits := by
      omega
    have hmod : (16 * numeral 16 hexValue digits + hexValue c) % 16 = hexValue c := by
      omega
    rw [hnumeral, List.length_append, List.length_singleton, hexChars, hdiv, hmod, hdigit, hchars,
      List.map_append, List.map_singleton, pow_succ]
    exact ⟨by omega, rfl⟩

lemma exists_hexDigit_of_mem {count n : Nat} {c : Char} (h : c ∈ hexChars count n) :
    ∃ m < 16, c = hexDigit m := by
  induction count generalizing n with
  | zero => cases h
  | succ count ih =>
    rcases List.mem_append.1 h with h | h
    · exact ih h
    · exact ⟨n % 16, Nat.mod_lt _ (by decide), List.mem_singleton.1 h⟩

lemma length_hexChars (count n : Nat) : (hexChars count n).length = count := by
  induction count generalizing n with
  | zero => rfl
  | succ count ih => rw [hexChars, List.length_append, ih, List.length_singleton]

/-- Eight digits are read as the id that is written with them. -/
lemma exists_ofText? {s : String} (hlength : s.toList.length = 8)
    (hdigits : ∀ c ∈ s.toList, isHexDigit c) :
    ∃ id, ofText? s = some id ∧ s.toList.map Char.toUpper = id.chars := by
  obtain ⟨hlt, hchars⟩ := hexChars_numeral hdigits
  rw [hlength] at hlt hchars
  refine ⟨_, if_pos ⟨hlength, List.all_eq_true.2 hdigits⟩, ?_⟩
  rw [chars, UInt32.toNat_ofNat_of_lt' hlt, hchars]

lemma isSome_ofText?_iff {s : String} :
    (ofText? s).isSome ↔ s.toList.length = 8 ∧ ∀ c ∈ s.toList, isHexDigit c := by
  simp [ofText?]

/-- The texts of an id are its digits in upper and lower case. -/
theorem ofText?_eq_some_iff {s : String} {id : ElementId} :
    ofText? s = some id ↔ s.toList.map Char.toUpper = id.chars := by
  constructor
  · intro h
    obtain ⟨hlength, hdigits⟩ := isSome_ofText?_iff.1 (Option.isSome_of_eq_some h)
    obtain ⟨id', hid', hchars⟩ := exists_ofText? hlength hdigits
    rw [h] at hid'
    rw [hchars, Option.some.inj hid']
  · intro h
    have hlength : s.toList.length = 8 := by
      rw [← List.length_map (f := Char.toUpper), h, chars, length_hexChars]
    have hdigits : ∀ c ∈ s.toList, isHexDigit c := by
      intro c hc
      have hmem : c.toUpper ∈ id.chars := h ▸ List.mem_map_of_mem hc
      obtain ⟨n, hn, hdigit⟩ := exists_hexDigit_of_mem hmem
      exact isHexDigit_of_toUpper hn hdigit
    obtain ⟨id', hid', hchars⟩ := exists_ofText? hlength hdigits
    have htext : id'.text = id.text := congrArg String.ofList (hchars.symm.trans h)
    rw [hid', text_injective htext]

lemma map_toUpper_chars (id : ElementId) : id.chars.map Char.toUpper = id.chars := by
  have hdigit : ∀ n < 16, (hexDigit n).toUpper = hexDigit n := by
    decide
  have hupper : ∀ c ∈ id.chars, c.toUpper = c := by
    intro c hc
    obtain ⟨n, hn, rfl⟩ := exists_hexDigit_of_mem hc
    exact hdigit n hn
  exact (List.map_congr_left hupper).trans (List.map_id' _)

/-! ## The numbers that texts denote -/

/-- The value of a digit is its place among the digits in upper case. -/
lemma hexValue_eq_idxOf {c : Char} (h : isHexDigit c) :
    hexValue c = "0123456789ABCDEF".toList.idxOf c.toUpper := by
  have hplaces : "0123456789ABCDEFabcdef".toList.all fun d =>
      hexValue d = "0123456789ABCDEF".toList.idxOf d.toUpper := by
    decide
  exact of_decide_eq_true (List.all_eq_true.1 hplaces c (isHexDigit_iff.1 h))

lemma numeral_eq_ofDigits (base : Nat) (digit : Char → Nat) (digits : List Char) :
    numeral base digit digits = Nat.ofDigits base (digits.map digit).reverse := by
  rw [Nat.ofDigits_eq_foldr, List.foldr_reverse, List.foldl_map, numeral]
  simp only [Nat.cast_id, Nat.add_comm]

/-- Nothing is lost of the number that digits denote: eight of them stay below `2 ^ 32`. -/
lemma toNat_of_ofText? {s : String} {id : ElementId} (h : ofText? s = some id) :
    id.val.toNat = numeral 16 hexValue s.toList := by
  obtain ⟨hlength, hdigits⟩ := isSome_ofText?_iff.1 (Option.isSome_of_eq_some h)
  have hlt := (hexChars_numeral hdigits).1
  rw [hlength] at hlt
  rw [ofText?, if_pos ⟨hlength, List.all_eq_true.2 hdigits⟩] at h
  cases h
  exact UInt32.toNat_ofNat_of_lt' hlt

/-- Ids and texts of eight hexadecimal digits correspond to each other. Each id is read back from its
text. The texts that can be read are those of eight digits and no others; such a text is read as the
number that its digits denote, and it is written again with its letters in upper case. -/
theorem texts_correspond :
    (∀ id : ElementId, ofText? id.text = some id) ∧
      ∀ s : String,
        ((ofText? s).isSome ↔
          s.length = 8 ∧ ∀ c ∈ s.toList, c ∈ "0123456789ABCDEFabcdef".toList) ∧
        ∀ id, ofText? s = some id →
          id.text = s.toUpper ∧
          id.val.toNat = Nat.ofDigits 16
            (s.toList.map fun c => "0123456789ABCDEF".toList.idxOf c.toUpper).reverse := by
  refine ⟨fun id => ?_, fun s => ⟨?_, fun id h => ⟨?_, ?_⟩⟩⟩
  · rw [ofText?_eq_some_iff, text, String.toList_ofList, map_toUpper_chars]
  · simp only [isSome_ofText?_iff, isHexDigit_iff, String.length_toList]
  · rw [← String.toList_inj, text, String.toList_ofList, String.toUpper, String.toList_map,
      ofText?_eq_some_iff.1 h]
  · obtain ⟨-, hdigits⟩ := isSome_ofText?_iff.1 (Option.isSome_of_eq_some h)
    have hvalues : s.toList.map hexValue =
        s.toList.map fun c => "0123456789ABCDEF".toList.idxOf c.toUpper :=
      List.map_congr_left fun c hc => hexValue_eq_idxOf (hdigits c hc)
    rw [toNat_of_ofText? h, numeral_eq_ofDigits, hvalues]

/-- An id can be written with small digits, and its own text has the large ones; a sign is no digit. -/
theorem texts_correspond_sample :
    ofText? "00ffaB1c" = some ⟨0xFFAB1C⟩ ∧
      (⟨0xFFAB1C⟩ : ElementId).text = "00ffaB1c".toUpper ∧ ofText? "+0ffaB1c" = none := by
  have h : ofText? "00ffaB1c" = some ⟨0xFFAB1C⟩ := by decide
  refine ⟨h, ((texts_correspond.2 _).2 _ h).1, ?_⟩
  rw [← Option.not_isSome_iff_eq_none, (texts_correspond.2 _).1]
  rintro ⟨-, hdigits⟩
  exact absurd (hdigits '+' (by decide)) (by decide)

end ElementId

end TriggerScript
