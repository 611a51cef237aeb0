import TriggerScript.Proofs.Pattern
import TriggerScript.Proofs.Program.Parsing
import TriggerScript.Words

/-!
# The values of the tokens of a source

Each token that a lexicon reads is named by a keyword or by a pattern that matches there, and its value
is what the reading of that name makes of its text (`Lexicon.forall_mem_tokenize`). In both languages
the readings are such that the values of all tokens fit their names (`fits_of_program`,
`fits_of_catalog`). For ids this says that their texts in upper case are eight hexadecimal digits.
-/

namespace TriggerScript

namespace Lexicon

variable {lex : Lexicon} {c : Cursor} {name : String} {tokens : List Token}

/-- A token is a keyword or named by a pattern. -/
lemma mem_of_tokenAt? {l : c.Later} (h : lex.tokenAt? c = some (name, l)) :
    name ∈ lex.keywords ∨ ∃ p, (name, p) ∈ lex.patterns ∧ p.Matches c.restart l.1 := by
  rcases (Option.orElse_eq_some _ _ _).1 h with h | ⟨-, h⟩
  · obtain ⟨keyword, hkeyword, h⟩ := List.exists_of_findSome?_eq_some h
    obtain ⟨_, -, heq⟩ := Option.map_eq_some_iff.1 h
    cases heq
    exact .inl hkeyword
  · obtain ⟨⟨name', p⟩, hp, h⟩ := List.exists_of_findSome?_eq_some h
    obtain ⟨_, hmatch, heq⟩ := Option.map_eq_some_iff.1 h
    cases heq
    exact .inr ⟨p, hp, Pattern.matches_of_matchSome? hmatch⟩

/-- What holds of each token that can be read somewhere holds of all tokens of a source. -/
lemma forall_mem_tokensFrom {P : Token → Prop} {offset : Nat}
    (h : ∀ {c name} {l : Cursor.Later c} {value offset}, lex.tokenAt? c = some (name, l) →
      lex.reading name (c.textUntil l.1) = some value → P ⟨name, c.textUntil l.1, value, offset⟩)
    (htokens : lex.tokensFrom c offset = .ok tokens) : ∀ t ∈ tokens, P t := by
  fun_induction tokensFrom lex c offset generalizing tokens with
  | case1 c offset =>
    obtain rfl := Except.ok.inj htokens
    exact List.forall_mem_nil _
  | case2 c offset _ c' hlt _ ih => exact ih htokens
  | case3 => cases htokens
  | case4 => cases htokens
  | case5 c offset _ _ name c' hlt htoken value hvalue ih =>
    obtain ⟨rest, hrest, heq⟩ := except_bind_ok_iff.1 htokens
    obtain rfl := Except.ok.inj heq
    exact List.forall_mem_cons.2 ⟨h htoken hvalue, ih hrest⟩

lemma forall_mem_tokenize {P : Token → Prop} {source : String}
    (h : ∀ {c name} {l : Cursor.Later c} {value offset}, lex.tokenAt? c = some (name, l) →
      lex.reading name (c.textUntil l.1) = some value → P ⟨name, c.textUntil l.1, value, offset⟩)
    (htokens : lex.tokenize source = .ok tokens) : ∀ t ∈ tokens, P t :=
  forall_mem_tokensFrom h htokens

/-- Without a reading of its own, a token carries its text. -/
lemma reading_of_notMem (h : name ∉ lex.readings.map Prod.fst) : lex.reading name = .plain := by
  have hlookup : lex.readings.reverse.lookup name = none := by
    refine List.lookup_eq_none_iff.2 fun r hr => ?_
    have hne : name ≠ r.1 := by
      rintro rfl
      exact h (List.mem_map_of_mem (List.mem_reverse.1 hr))
    simpa using hne
  rw [reading, hlookup]
  rfl

end Lexicon

namespace Words

/-- The digits that ids are made of. -/
def idDigit : CharClass :=
  .union (.range '0' '9') (.union (.range 'A' 'F') (.range 'a' 'f'))

/-- The upper-case form of such a digit is a hexadecimal digit. -/
lemma upperChar_of_idDigit {x : Char} (h : idDigit.contains x) :
    ∃ y, Text.upperChar x = [y] ∧ Text.isHexDigit y := by
  have hascii : ∀ n < 128, idDigit.contains (Char.ofNat n) →
      (Text.upperChar (Char.ofNat n)).length = 1 ∧
        (Text.upperChar (Char.ofNat n)).all Text.isHexDigit := by
    decide +kernel
  have hlt : x.toNat < 128 := by
    have hval : ∀ d : Char, d.toNat < 128 → x ≤ d → x.toNat < 128 := fun d hd hle =>
      Nat.lt_of_le_of_lt (Char.le_def.1 hle) hd
    simp only [idDigit, CharClass.contains, Bool.or_eq_true, Bool.and_eq_true,
      decide_eq_true_eq] at h
    rcases h with ⟨-, hle⟩ | ⟨-, hle⟩ | ⟨-, hle⟩
    · exact hval '9' (by decide) hle
    · exact hval 'F' (by decide) hle
    · exact hval 'f' (by decide) hle
  have hspec := hascii x.toNat hlt
  rw [Char.ofNat_toNat] at hspec
  obtain ⟨hlength, hall⟩ := hspec h
  obtain ⟨y, hy⟩ := List.length_eq_one_iff.1 hlength
  exact ⟨y, hy, by simpa [hy] using hall⟩

/-- The upper-case form of an id has eight hexadecimal digits. -/
lemma upper_of_matches_id {c c' : Cursor} (h : Words.id.Matches c c') :
    (Text.upper (c.textUntil c')).toList.length = 8 ∧
      (Text.upper (c.textUntil c')).toList.all Text.isHexDigit := by
  cases h with
  | seq hdigits hboundary =>
    cases hboundary
    have hdigits : (Pattern.times (.one idDigit) 8).Matches c c' := hdigits
    obtain ⟨text, hlength, htext, hrest⟩ := Pattern.exists_of_matches_times_one hdigits
    rw [Cursor.textUntil_of_rest hrest, Text.upper, String.toList_ofList, String.toList_ofList,
      ← hlength]
    clear hlength hrest hdigits
    induction text with
    | nil => exact ⟨rfl, rfl⟩
    | cons x text ih =>
      obtain ⟨hx, htext⟩ := List.forall_mem_cons.1 htext
      obtain ⟨y, hy, hdigit⟩ := upperChar_of_idDigit hx
      obtain ⟨ihlength, ihall⟩ := ih htext
      rw [List.flatMap_cons, hy]
      exact ⟨by simpa using ihlength, by simpa [hdigit] using ihall⟩

end Words

lemma Token.fits_text {name raw s : String} {offset : Nat} (hname : name ∉ ["int", "bool", "id"]) :
    (Token.mk name raw (.text s) offset).fits := by
  simp only [List.mem_cons, List.not_mem_nil, or_false, not_or] at hname
  simp [Token.fits, hname]

/-- The reading of quoted texts makes texts. -/
lemma Reading.exists_of_stripQuotes {raw : String} {value : TokenValue}
    (h : stripQuotes raw = some value) : ∃ s, value = .text s := by
  obtain ⟨inner, -, rfl⟩ := Option.map_eq_some_iff.1 h
  exact ⟨_, rfl⟩

/-- The reading of truth values makes truth values. -/
lemma Reading.exists_of_bool {raw : String} {value : TokenValue} (h : bool raw = some value) :
    ∃ b, value = .bool b := by
  unfold bool at h
  split_ifs at h
  · exact ⟨true, (Option.some.inj h).symm⟩
  · exact ⟨false, (Option.some.inj h).symm⟩

/-- The values of the tokens of a lexicon fit, if keywords carry their texts and what the patterns
match is read so that it fits. -/
lemma Lexicon.fits_of_mem_tokenize {lex : Lexicon} {source : String} {tokens : List Token}
    (hkeywords : lex.keywords.all fun k =>
      k ∉ lex.readings.map Prod.fst && k ∉ ["int", "bool", "id"])
    (hpatterns : ∀ name p, (name, p) ∈ lex.patterns → ∀ {c c' : Cursor} {value offset},
      p.Matches c c' → lex.reading name (c.textUntil c') = some value →
        (Token.mk name (c.textUntil c') value offset).fits)
    (h : lex.tokenize source = .ok tokens) : ∀ t ∈ tokens, t.fits := by
  refine forall_mem_tokenize (fun {c name l value offset} htoken hvalue => ?_) h
  rcases mem_of_tokenAt? htoken with hname | ⟨p, hp, hmatch⟩
  · have hname := List.all_eq_true.1 hkeywords name hname
    simp only [Bool.and_eq_true, decide_eq_true_eq] at hname
    rw [reading_of_notMem hname.1] at hvalue
    obtain rfl := Option.some.inj hvalue
    exact Token.fits_text hname.2
  · have hfits : (Token.mk name (c.restart.textUntil l.1) value offset).fits :=
      hpatterns name p hp hmatch hvalue
    exact hfits

/-- The values of all tokens of a program text fit their names. -/
theorem fits_of_program {source : String} {tokens : List Token}
    (h : programLexicon.tokenize source = .ok tokens) : ∀ t ∈ tokens, t.fits := by
  refine Lexicon.fits_of_mem_tokenize (by decide +kernel) (fun name p hp => ?_) h
  intro c c' value offset hmatch hvalue
  simp only [programLexicon, List.mem_cons, List.not_mem_nil, or_false, Prod.mk.injEq] at hp
  rcases hp with ⟨rfl, rfl⟩ | ⟨rfl, rfl⟩ | ⟨rfl, rfl⟩ | ⟨rfl, rfl⟩ | ⟨rfl, rfl⟩ | ⟨rfl, rfl⟩
  · obtain rfl := Option.some.inj hvalue
    obtain ⟨hlength, hdigits⟩ := Words.upper_of_matches_id hmatch
    simpa [Token.fits, hlength] using hdigits
  · obtain ⟨s, rfl⟩ := Reading.exists_of_stripQuotes hvalue
    exact Token.fits_text (by decide)
  · obtain ⟨s, rfl⟩ := Reading.exists_of_stripQuotes hvalue
    exact Token.fits_text (by decide)
  · obtain ⟨n, -, rfl⟩ := Option.map_eq_some_iff.1 hvalue
    rfl
  · obtain ⟨b, rfl⟩ := Reading.exists_of_bool hvalue
    rfl
  · obtain rfl := Option.some.inj hvalue
    exact Token.fits_text (by decide)

/-- The values of all tokens of a catalog text fit their names. -/
theorem fits_of_catalog {source : String} {tokens : List Token}
    (h : catalogLexicon.tokenize source = .ok tokens) : ∀ t ∈ tokens, t.fits := by
  refine Lexicon.fits_of_mem_tokenize (by decide +kernel) (fun name p hp => ?_) h
  intro c c' value offset _ hvalue
  simp only [catalogLexicon, List.mem_cons, List.not_mem_nil, or_false, Prod.mk.injEq] at hp
  rcases hp with ⟨rfl, rfl⟩ | ⟨rfl, rfl⟩
  · obtain ⟨s, rfl⟩ := Reading.exists_of_stripQuotes hvalue
    exact Token.fits_text (by decide)
  · obtain rfl := Option.some.inj hvalue
    exact Token.fits_text (by decide)

end TriggerScript
