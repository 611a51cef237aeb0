import Mathlib.Data.List.TakeWhile
import Mathlib.Tactic.Common
import TriggerScript.Json.Reader

/-!
# Values and their compact text

The compact text of a value is read back as the same value (`ofText?_compact`), if it has no part that
the data of this library never holds.

How deep a text is nested is said of the text itself: the characters are followed from the first one to
the last one, and arrays and objects are counted as they open and close. For a compact text that is the
depth of the value (`nesting_compact`).
-/

namespace TriggerScript.Json

/-! ## Digits and words -/

/-- A number or a word ends where such a text begins. -/
def Stops (cs : List Char) : Prop :=
  ∀ c ∈ cs.head?, isNumeric c = false ∧ c.isAlpha = false

lemma stops_cons {c : Char} {cs : List Char} (hnumeric : isNumeric c = false)
    (halpha : c.isAlpha = false) : Stops (c :: cs) := by
  intro c' hc'
  obtain rfl := Option.some.inj hc'
  exact ⟨hnumeric, halpha⟩

/-- The characters of a kind at the start of a text. -/
lemma takeWhile_append {p : Char → Bool} {cs rest : List Char} (hcs : ∀ c ∈ cs, p c)
    (hrest : ∀ c ∈ rest.head?, p c = false) : (cs ++ rest).takeWhile p = cs := by
  rw [List.takeWhile_append_of_pos hcs]
  cases rest with
  | nil => simp
  | cons c rest => simp [hrest c rfl]

lemma dropWhile_append {p : Char → Bool} {cs rest : List Char} (hcs : ∀ c ∈ cs, p c)
    (hrest : ∀ c ∈ rest.head?, p c = false) : (cs ++ rest).dropWhile p = rest := by
  rw [List.dropWhile_append_of_pos hcs]
  cases rest with
  | nil => rfl
  | cons c rest => simp [hrest c rfl]

lemma isDigit_of_mem_natChars {n : Nat} {c : Char} (h : c ∈ Text.natChars n) : c.isDigit :=
  Nat.isDigit_of_mem_toDigits (by decide) (by decide) h

lemma numeral_natChars (n : Nat) : Text.numeral 10 Text.digitValue (Text.natChars n) = n :=
  Nat.ofDigitChars_toDigits (by decide) (by decide)

/-- Only the numeral of zero starts with a zero. -/
lemma head?_natChars_ne {n : Nat} (hn : 0 < n) : (Text.natChars n).head? ≠ some '0' := by
  induction n using Nat.strongRecOn with
  | _ n ih =>
    rw [Text.natChars, Nat.toDigits_eq_if (by decide)]
    split_ifs with hlt
    · have hdigit : ∀ n < 10, 0 < n → [n.digitChar].head? ≠ some '0' := by decide
      exact hdigit n hlt hn
    · have hhead := ih (n / 10) (by omega) (by omega)
      obtain ⟨c, cs, hc⟩ := List.exists_cons_of_ne_nil (Nat.toDigits_ne_nil (b := 10) (n := n / 10))
      rw [Text.natChars, hc] at hhead
      rwa [hc]

lemma isPlainNumeral_natChars (n : Nat) : isPlainNumeral (Text.natChars n) := by
  rcases Nat.eq_zero_or_pos n with rfl | hn
  · rfl
  · have hhead := head?_natChars_ne hn
    have hne : Text.natChars n ≠ [] := Nat.toDigits_ne_nil
    have hall : (Text.natChars n).all Char.isDigit :=
      List.all_eq_true.2 fun c hc => isDigit_of_mem_natChars hc
    unfold isPlainNumeral
    split
    · exact absurd ‹_› hne
    · rfl
    · rename_i h
      rw [h] at hhead
      exact absurd rfl hhead
    · exact hall

/-- Digits up to the end are an integer. -/
lemma unsigned?_natChars (negative : Bool) (n : Nat) (hn : negative → n ≠ 0) :
    unsigned? negative (Text.natChars n) = some (.int (if negative then -(n : Int) else n)) := by
  have htake : (Text.natChars n).takeWhile Char.isDigit = Text.natChars n :=
    List.takeWhile_eq_self_iff.2 fun c hc => isDigit_of_mem_natChars hc
  have hdrop : (Text.natChars n).dropWhile Char.isDigit = [] :=
    List.dropWhile_eq_nil_iff.2 fun c hc => isDigit_of_mem_natChars hc
  have hfalse : (negative && n == 0) = false := by
    cases negative with
    | false => rfl
    | true => simpa using hn rfl
  simp only [unsigned?, htake, hdrop, isPlainNumeral_natChars, numeral_natChars, hfalse]
  rfl

lemma number?_intChars (n : Int) : number? (Text.intChars n) = some (.int n) := by
  unfold Text.intChars
  split_ifs with hn
  · rw [number?, unsigned?_natChars true n.natAbs (by omega)]
    simp only [if_true]
    congr 2
    omega
  · have hne : Text.natChars n.natAbs ≠ [] := Nat.toDigits_ne_nil
    have hminus : ∀ rest, Text.natChars n.natAbs ≠ '-' :: rest := by
      intro rest h
      have hdigit := isDigit_of_mem_natChars (c := '-') (h ▸ List.mem_cons_self)
      exact absurd hdigit (by decide)
    unfold number?
    split
    · rename_i h
      exact absurd h (hminus _)
    · rw [unsigned?_natChars false n.natAbs nofun]
      simp only [Bool.false_eq_true, if_false]
      congr 2
      omega

lemma isNumeric_of_mem_intChars {n : Int} {c : Char} (h : c ∈ Text.intChars n) : isNumeric c := by
  have hdigit : ∀ c ∈ Text.natChars n.natAbs, isNumeric c := by
    intro c hc
    simp [isNumeric, isDigit_of_mem_natChars hc]
  unfold Text.intChars at h
  split_ifs at h
  · rcases List.mem_cons.1 h with rfl | h
    · rfl
    · exact hdigit c h
  · exact hdigit c h

/-! ## Lexemes -/

variable {cs rest : List Char}

/-- Reading on with a machine over the lexemes of a text. -/
def resume (m : Machine) (cs : List Char) : Option Json := do
  let units ← lexemes? cs
  let m ← units.foldlM Machine.step? m
  m.finish?

/-- The lexeme at the start of a text is taken first. -/
lemma resume_of_lexeme {m : Machine} {l : Lexeme} (h : lexemes? cs = (lexemes? rest).map (l :: ·)) :
    resume m cs = (m.step? l).bind fun m => resume m rest := by
  unfold resume
  rw [h]
  cases lexemes? rest with
  | none => simp
  | some units => simp [Option.bind_assoc]

lemma lexemes?_mark {c : Char} {l : Lexeme} (hl : mark? c = some l) :
    lexemes? (c :: rest) = (lexemes? rest).map (l :: ·) := by
  have hmark : c = '[' ∨ c = ']' ∨ c = '{' ∨ c = '}' ∨ c = ',' ∨ c = ':' := by
    unfold mark? at hl
    split at hl <;> simp_all
  have hkind : isSpace c = false ∧ c ≠ '"' ∧ isNumeric c = false ∧ c.isAlpha = false := by
    rcases hmark with rfl | rfl | rfl | rfl | rfl | rfl <;> decide
  rw [lexemes?]
  simp [hkind, hl]

/-- Numbers and words are not mistaken for anything else. -/
lemma not_space_of_numeric {c : Char} (hc : isNumeric c ∨ c.isAlpha) :
    isSpace c = false ∧ c ≠ '"' := by
  have hkind : [' ', '\n', '\t', '\r', '"'].all fun d => !(isNumeric d || d.isAlpha) := by decide
  have hne : ∀ d ∈ [' ', '\n', '\t', '\r', '"'], c ≠ d := by
    rintro d hd rfl
    have hnot := List.all_eq_true.1 hkind c hd
    rw [Bool.not_eq_true', Bool.or_eq_false_iff] at hnot
    rcases hc with hc | hc
    · exact absurd hc (by simp [hnot.1])
    · exact absurd hc (by simp [hnot.2])
  simp only [List.forall_mem_cons] at hne
  simp [isSpace, hne]

lemma lexemes?_int (n : Int) (hrest : Stops rest) :
    lexemes? (Text.intChars n ++ rest) = (lexemes? rest).map (.scalar (.int n) :: ·) := by
  have hnumber := number?_intChars n
  have hnumeric : ∀ c ∈ Text.intChars n, isNumeric c := fun c hc => isNumeric_of_mem_intChars hc
  cases h : Text.intChars n with
  | nil =>
    rw [h] at hnumber
    cases hnumber
  | cons c cs =>
    rw [h] at hnumber hnumeric
    obtain ⟨hc, hcs⟩ := List.forall_mem_cons.1 hnumeric
    have htake := takeWhile_append hcs fun c hc => (hrest c hc).1
    have hdrop := dropWhile_append hcs fun c hc => (hrest c hc).1
    have hspace := not_space_of_numeric (.inl hc)
    rw [List.cons_append, lexemes?]
    simp [hspace, hc, htake, hdrop, hnumber]

lemma lexemes?_word {v : Json} (hword : wordValue? cs = some v) (hcs : cs.all Char.isAlpha)
    (hnumeric : cs.head?.any isNumeric = false) (hrest : Stops rest) :
    lexemes? (cs ++ rest) = (lexemes? rest).map (.scalar v :: ·) := by
  cases cs with
  | nil => cases hword
  | cons c cs =>
    obtain ⟨hc, hcs⟩ := List.forall_mem_cons.1 (List.all_eq_true.1 hcs)
    have hnumeric : isNumeric c = false := hnumeric
    have htake := takeWhile_append hcs fun c hc => (hrest c hc).2
    have hdrop := dropWhile_append hcs fun c hc => (hrest c hc).2
    have hspace := not_space_of_numeric (.inr hc)
    rw [List.cons_append, lexemes?]
    simp [hspace, hnumeric, hc, htake, hdrop, hword]

/-! ## Strings -/

/-- How a character stands in a string: control characters without a letter of their own are written by
their code. -/
def pieceOf (c : Char) : Piece :=
  if c.toNat < 32 ∧ c ≠ '\n' ∧ c ≠ '\r' ∧ c ≠ '\t' ∧ c.toNat ≠ 8 ∧ c.toNat ≠ 12 then .unit c.toNat
  else .char c

/-- The two digits of a code below 32. -/
lemma natOfHex?_hexDigit {n : Nat} (hn : n < 32) :
    Text.natOfHex? ['0', '0', hexDigit (n / 16), hexDigit (n % 16)] = some n := by
  have h : ∀ n < 32, Text.natOfHex? ['0', '0', hexDigit (n / 16), hexDigit (n % 16)] = some n := by
    decide
  exact h n hn

/-- A letter behind a backslash. -/
lemma pieces?_escape {e c : Char} (he : escapedPiece? e = some c) :
    pieces? ('\\' :: e :: rest) = (pieces? rest).map fun x => (.char c :: x.1, x.2) := by
  have hu : e ≠ 'u' := by
    rintro rfl
    cases he
  rw [pieces?.eq_4 e rest fun _ _ _ _ _ h _ => hu h, he]
  cases pieces? rest <;> rfl

/-- A code behind a backslash. -/
lemma pieces?_unit {a b c d : Char} {n : Nat} (hn : Text.natOfHex? [a, b, c, d] = some n) :
    pieces? ('\\' :: 'u' :: a :: b :: c :: d :: rest) =
      (pieces? rest).map fun x => (.unit n :: x.1, x.2) := by
  rw [pieces?.eq_3, hn]
  cases pieces? rest <;> rfl

/-- A character that stands for itself. -/
lemma pieces?_plain {c : Char} (hquote : c ≠ '"') (hslash : c ≠ '\\') (hc : ¬c.toNat < 32) :
    pieces? (c :: rest) = (pieces? rest).map fun x => (.char c :: x.1, x.2) := by
  rw [pieces?.eq_5 c rest hquote (fun _ _ _ _ _ h _ => hslash h) fun _ _ h _ => hslash h, if_neg hc]
  cases pieces? rest <;> rfl

lemma pieces?_escapedChar (c : Char) :
    pieces? (escapedChar c ++ rest) = (pieces? rest).map fun x => (pieceOf c :: x.1, x.2) := by
  unfold escapedChar
  split_ifs with hquote hslash hn hr ht hb hf hlt
  · subst hquote
    exact pieces?_escape rfl
  · subst hslash
    exact pieces?_escape rfl
  · subst hn
    exact pieces?_escape rfl
  · subst hr
    exact pieces?_escape rfl
  · subst ht
    exact pieces?_escape rfl
  · obtain rfl : c = Char.ofNat 8 := by rw [← hb, Char.ofNat_toNat]
    exact pieces?_escape rfl
  · obtain rfl : c = Char.ofNat 12 := by rw [← hf, Char.ofNat_toNat]
    exact pieces?_escape rfl
  · have hpiece : pieceOf c = .unit c.toNat := if_pos ⟨hlt, hn, hr, ht, hb, hf⟩
    rw [hpiece]
    exact pieces?_unit (natOfHex?_hexDigit hlt)
  · have hpiece : pieceOf c = .char c := if_neg fun h => hlt h.1
    rw [hpiece]
    exact pieces?_plain hquote hslash hlt

lemma joined?_unit {n : Nat} (hn : n < 32) (pieces : List Piece) :
    joined? (.unit n :: pieces) = (joined? pieces).map (Char.ofNat n :: ·) := by
  have hhigh : isHighSurrogate n = false := by simp [isHighSurrogate]; omega
  have hlow : isLowSurrogate n = false := by simp [isLowSurrogate]; omega
  match pieces with
  | [] => simp [joined?, hhigh, hlow]
  | .unit m :: rest => simp [joined?, hhigh, hlow]
  | .char c :: rest => simp [joined?, hhigh, hlow, Function.comp_def]

lemma joined?_pieceOf (cs : List Char) : joined? (cs.map pieceOf) = some cs := by
  induction cs with
  | nil => rfl
  | cons c cs ih =>
    rw [List.map_cons, pieceOf]
    split_ifs with hc
    · rw [joined?_unit hc.1, ih, Option.map_some, Char.ofNat_toNat]
    · rw [joined?, ih, Option.map_some]

lemma pieces?_string (cs rest : List Char) :
    pieces? (cs.flatMap escapedChar ++ '"' :: rest) = some (cs.map pieceOf, rest) := by
  induction cs with
  | nil => rfl
  | cons c cs ih => rw [List.flatMap_cons, List.append_assoc, pieces?_escapedChar, ih]; rfl

/-- A string is read back as it was, whatever its characters are. -/
lemma lexemes?_string (s : String) :
    lexemes? (stringChars s ++ rest) = (lexemes? rest).map (.text (some s) :: ·) := by
  have hpieces := pieces?_string s.toList rest
  have hquote : isSpace '"' = false := rfl
  have hchars : stringChars s ++ rest = '"' :: (s.toList.flatMap escapedChar ++ '"' :: rest) := by
    simp [stringChars]
  rw [hchars, lexemes?]
  simp only [hquote, Bool.false_eq_true, if_false, if_true]
  split
  · rename_i h
    cases h.symm.trans hpieces
  · rename_i pieces rest' h
    obtain ⟨rfl, rfl⟩ := Prod.mk.inj (Option.some.inj (h.symm.trans hpieces))
    rw [joined?_pieceOf, Option.map_some, String.ofList_toList]

/-! ## Values -/

mutual

/-- Whether all parts of a value are ones that data of this library can hold. -/
def isPlain : Json → Bool
  | arr items => allPlain items
  | obj fields => fieldsPlain fields
  | foreign => false
  | _ => true

/-- Whether all items of an array are plain. -/
def allPlain : List Json → Bool
  | [] => true
  | v :: rest => v.isPlain && allPlain rest

/-- Whether all fields of an object are plain. -/
def fieldsPlain : List (String × Json) → Bool
  | [] => true
  | (_, v) :: rest => v.isPlain && fieldsPlain rest

end

/-- A machine that takes a lexeme as the beginning of a value, unless it closes an array. -/
def Ready (m : Machine) : Prop :=
  ∀ l, l ≠ .closeArray → m.step? l = m.begin? l

lemma ready_value (stack : List Frame) : Ready ⟨stack, .value⟩ :=
  fun _ _ => rfl

lemma ready_valueOrClose (stack : List Frame) : Ready ⟨stack, .valueOrClose⟩ := by
  intro l hl
  cases l with
  | closeArray => exact absurd rfl hl
  | _ => rfl

/-- The beginning of a value is taken. -/
lemma resume_begin {m m' : Machine} {l : Lexeme} (hm : Ready m) (hbegin : m.begin? l = some m')
    (h : lexemes? cs = (lexemes? rest).map (l :: ·)) : resume m cs = resume m' rest := by
  have hl : l ≠ .closeArray := by
    rintro rfl
    cases hbegin
  rw [resume_of_lexeme h, hm l hl, hbegin]
  rfl

/-- A mark is taken. -/
lemma resume_mark {m m' : Machine} {c : Char} {l : Lexeme} (hmark : mark? c = some l)
    (hstep : m.step? l = some m') : resume m (c :: rest) = resume m' rest := by
  rw [resume_of_lexeme (lexemes?_mark hmark), hstep]
  rfl

/-- Fields as an open object keeps them. -/
def kept (fields : List (String × Json)) : List (Option String × Json) :=
  fields.map fun f => (some f.1, f.2)

lemma closeObject_kept (fields : List (String × Json)) :
    closeObject (kept fields).reverse = .obj fields := by
  have hmap : (kept fields).mapM (fun (f : Option String × Json) =>
      f.1.map fun key => (key, f.2)) = some fields := by
    induction fields with
    | nil => rfl
    | cons f fields ih =>
      simp only [kept, List.map_cons, List.mapM_cons] at ih ⊢
      rw [ih]
      rfl
  simp only [closeObject, List.reverse_reverse, hmap]

/-- One more field of an open object. -/
lemma cons_reverse_kept (fields : List (String × Json)) (key : String) (v : Json) :
    (some key, v) :: (kept fields).reverse = (kept (fields ++ [(key, v)])).reverse := by
  simp [kept]

lemma stops_compactItems (items : List Json) (rest : List Char) :
    Stops (compactItems false items ++ ']' :: rest) := by
  cases items with
  | nil => exact stops_cons rfl rfl
  | cons v items => exact stops_cons rfl rfl

lemma stops_compactFields (fields : List (String × Json)) (rest : List Char) :
    Stops (compactFields false fields ++ '}' :: rest) := by
  cases fields with
  | nil => exact stops_cons rfl rfl
  | cons f fields => exact stops_cons rfl rfl

mutual

/-- A machine that is to take a value takes all of it. -/
lemma resume_compactChars {m : Machine} (hm : Ready m) {rest : List Char} (hrest : Stops rest) :
    ∀ v : Json, v.isPlain → resume m (v.compactChars ++ rest) = resume ⟨m.stack, .more v⟩ rest
  | .null, _ => resume_begin hm rfl (lexemes?_word rfl rfl rfl hrest)
  | .bool true, _ => resume_begin hm rfl (lexemes?_word rfl rfl rfl hrest)
  | .bool false, _ => resume_begin hm rfl (lexemes?_word rfl rfl rfl hrest)
  | .int n, _ => resume_begin hm rfl (lexemes?_int n hrest)
  | .str s, _ => resume_begin hm rfl (lexemes?_string s)
  | .foreign, h => nomatch h
  | .arr [], _ => by
    refine (resume_begin hm rfl (lexemes?_mark rfl)).trans ?_
    exact resume_mark rfl rfl
  | .arr (v :: items), h => by
    obtain ⟨hv, hitems⟩ := Bool.and_eq_true_iff.1 h
    have hchars : (arr (v :: items)).compactChars ++ rest =
        '[' :: (v.compactChars ++ (compactItems false items ++ ']' :: rest)) := by
      simp [compactChars, compactItems]
    -- the first item may also be the end of the array, which no value begins with
    rw [hchars, resume_begin hm rfl (lexemes?_mark rfl),
      resume_compactChars (ready_valueOrClose _) (stops_compactItems items rest) v hv]
    exact resume_compactItems items hitems v
  | .obj [], _ => by
    refine (resume_begin hm rfl (lexemes?_mark rfl)).trans ?_
    exact resume_mark rfl rfl
  | .obj ((key, v) :: fields), h => by
    obtain ⟨hv, hfields⟩ := Bool.and_eq_true_iff.1 h
    have hchars : (obj ((key, v) :: fields)).compactChars ++ rest =
        '{' :: (stringChars key ++
          (':' :: (v.compactChars ++ (compactFields false fields ++ '}' :: rest)))) := by
      simp [compactChars, compactFields]
    rw [hchars, resume_begin hm rfl (lexemes?_mark rfl), resume_of_lexeme (lexemes?_string key)]
    refine (resume_mark rfl rfl).trans ?_
    -- key and colon are taken, the value is next
    rw [resume_compactChars (ready_value _) (stops_compactFields fields rest) v hv]
    exact resume_compactFields [] fields hfields key v

/-- Behind an item of an array, all further items are taken, up to the end of the array. -/
lemma resume_compactItems {stack : List Frame} {items : List Json} {rest : List Char} :
    ∀ others : List Json, allPlain others → ∀ v,
      resume ⟨.arr items :: stack, .more v⟩ (compactItems false others ++ ']' :: rest) =
        resume ⟨stack, .more (.arr (items.reverse ++ v :: others))⟩ rest
  | [], _, v => by
    refine (resume_mark rfl rfl).trans ?_
    rw [List.reverse_cons]
  | w :: others, h, v => by
    obtain ⟨hw, hothers⟩ := Bool.and_eq_true_iff.1 h
    have hchars : compactItems false (w :: others) ++ ']' :: rest =
        ',' :: (w.compactChars ++ (compactItems false others ++ ']' :: rest)) := by
      simp [compactItems]
    rw [hchars, resume_mark rfl rfl,
      resume_compactChars (ready_value _) (stops_compactItems others rest) w hw,
      resume_compactItems others hothers w]
    simp

/-- Behind a field of an object, all further fields are taken, up to the end of the object. -/
lemma resume_compactFields {stack : List Frame} {rest : List Char} (fields : List (String × Json)) :
    ∀ others : List (String × Json), fieldsPlain others → ∀ key v,
      resume ⟨.obj (kept fields).reverse (some key) :: stack, .more v⟩
        (compactFields false others ++ '}' :: rest) =
        resume ⟨stack, .more (.obj (fields ++ (key, v) :: others))⟩ rest
  | [], _, key, v => by
    refine (resume_mark rfl rfl).trans ?_
    rw [cons_reverse_kept, closeObject_kept]
  | (key', w) :: others, h, key, v => by
    obtain ⟨hw, hothers⟩ := Bool.and_eq_true_iff.1 h
    have hchars : compactFields false ((key', w) :: others) ++ '}' :: rest =
        ',' :: (stringChars key' ++
          (':' :: (w.compactChars ++ (compactFields false others ++ '}' :: rest)))) := by
      simp [compactFields]
    rw [hchars, resume_mark rfl rfl, resume_of_lexeme (lexemes?_string key')]
    refine (resume_mark rfl rfl).trans ?_
    rw [resume_compactChars (ready_value _) (stops_compactFields others rest) w hw,
      cons_reverse_kept, resume_compactFields (fields ++ [(key, v)]) others hothers key' w,
      List.append_assoc]
    rfl

end

/-- The compact text of a value is read back as the value. -/
theorem ofText?_compact {v : Json} (h : v.isPlain) : ofText? v.compact = some v := by
  have hresume : ofText? v.compact = resume {} (v.compactChars ++ []) := by
    rw [List.append_nil, ofText?, compact, String.toList_ofList, resume]
  have hend : lexemes? [] = some [] := by rw [lexemes?]
  rw [hresume, resume_compactChars (ready_value []) (by simp [Stops]) v h, resume, hend]
  rfl

/-! ## Nesting -/

mutual

/-- How many arrays and objects lie inside each other in a value. -/
def depth : Json → Nat
  | arr items => itemsDepth items + 1
  | obj fields => fieldsDepth fields + 1
  | _ => 0

/-- The depth of the deepest item of an array. -/
def itemsDepth : List Json → Nat
  | [] => 0
  | v :: rest => max v.depth (itemsDepth rest)

/-- The depth of the deepest field of an object. -/
def fieldsDepth : List (String × Json) → Nat
  | [] => 0
  | (_, v) :: rest => max v.depth (fieldsDepth rest)

end

/-- What has been seen of a text, from its start up to some character. -/
structure Scan where
  /-- How many arrays and objects are open. -/
  depth : Nat := 0
  /-- How many have been open at once, at the most. -/
  most : Nat := 0
  /-- Whether a string is open. -/
  inString : Bool := false
  /-- Whether the last character was a backslash in a string that is not escaped itself. -/
  escaped : Bool := false

/-- Looks at one more character. -/
def Scan.step (s : Scan) (c : Char) : Scan :=
  if s.inString then
    if s.escaped then { s with escaped := false }
    else if c = '\\' then { s with escaped := true }
    else if c = '"' then { s with inString := false }
    else s
  else if c = '"' then { s with inString := true }
  else if c = '[' ∨ c = '{' then
    { s with depth := s.depth + 1, most := max s.most (s.depth + 1) }
  else if c = ']' ∨ c = '}' then { s with depth := s.depth - 1 }
  else s

/-- How many arrays and objects are open at once in a text, at the most. -/
def nesting (text : String) : Nat :=
  (text.toList.foldl Scan.step {}).most

/-- A character that is neither a backslash nor a quote stands in a string for itself. -/
lemma step_inString {d m : Nat} {c : Char} (hslash : c ≠ '\\') (hquote : c ≠ '"') :
    Scan.step ⟨d, m, true, false⟩ c = ⟨d, m, true, false⟩ := by
  simp [Scan.step, hslash, hquote]

lemma foldl_step_escapedChar (d m : Nat) (c : Char) :
    (escapedChar c).foldl Scan.step ⟨d, m, true, false⟩ = ⟨d, m, true, false⟩ := by
  have hhex : ∀ n < 16, hexDigit n ≠ '\\' ∧ hexDigit n ≠ '"' := by decide
  have hescape : ∀ e, ['\\', e].foldl Scan.step ⟨d, m, true, false⟩ = ⟨d, m, true, false⟩ :=
    fun e => rfl
  unfold escapedChar
  split_ifs with hquote hslash hn hr ht hb hf hlt
  · exact hescape _
  · exact hescape _
  · exact hescape _
  · exact hescape _
  · exact hescape _
  · exact hescape _
  · exact hescape _
  · -- behind the backslash, the letter and two zeros come two more digits
    have hfirst := hhex (c.toNat / 16) (by omega)
    have hsecond := hhex (c.toNat % 16) (by omega)
    change [hexDigit (c.toNat / 16), hexDigit (c.toNat % 16)].foldl Scan.step
      ⟨d, m, true, false⟩ = _
    rw [List.foldl_cons, step_inString hfirst.1 hfirst.2, List.foldl_cons,
      step_inString hsecond.1 hsecond.2, List.foldl_nil]
  · exact step_inString hslash hquote

lemma foldl_step_stringChars (d m : Nat) (s : String) :
    (stringChars s).foldl Scan.step ⟨d, m, false, false⟩ = ⟨d, m, false, false⟩ := by
  have hinside : ∀ cs : List Char, (cs.flatMap escapedChar).foldl Scan.step ⟨d, m, true, false⟩ =
      ⟨d, m, true, false⟩ := by
    intro cs
    induction cs with
    | nil => rfl
    | cons c cs ih => rw [List.flatMap_cons, List.foldl_append, foldl_step_escapedChar, ih]
  rw [stringChars, List.foldl_append, List.foldl_cons]
  change (['"'] : List Char).foldl Scan.step
    ((s.toList.flatMap escapedChar).foldl Scan.step ⟨d, m, true, false⟩) = _
  rw [hinside]
  rfl

/-- Characters that open and close nothing. -/
lemma foldl_step_of_numeric (d m : Nat) {cs : List Char} (hcs : ∀ c ∈ cs, isNumeric c) :
    cs.foldl Scan.step ⟨d, m, false, false⟩ = ⟨d, m, false, false⟩ := by
  induction cs with
  | nil => rfl
  | cons c cs ih =>
    obtain ⟨hc, hcs⟩ := List.forall_mem_cons.1 hcs
    have hkind : ∀ e ∈ ['"', '[', '{', ']', '}'], c ≠ e := by
      rintro e he rfl
      have hall : ['"', '[', '{', ']', '}'].all fun e => !isNumeric e := by decide
      have hnot := List.all_eq_true.1 hall c he
      rw [hc] at hnot
      cases hnot
    simp only [List.forall_mem_cons] at hkind
    rw [List.foldl_cons]
    have hstep : Scan.step ⟨d, m, false, false⟩ c = ⟨d, m, false, false⟩ := by
      simp [Scan.step, hkind]
    rw [hstep, ih hcs]

/-- A comma stands in front of all items but the first. -/
lemma foldl_step_comma (d m : Nat) (first : Bool) :
    (if first then [] else [',']).foldl Scan.step ⟨d, m, false, false⟩ = ⟨d, m, false, false⟩ := by
  cases first <;> rfl

mutual

/-- Behind the text of a value as much is open as in front of it, and inside it at most as much more as
the value is deep. -/
lemma foldl_step_compactChars {d m : Nat} (h : d ≤ m) : ∀ v : Json,
    v.compactChars.foldl Scan.step ⟨d, m, false, false⟩ = ⟨d, max m (d + v.depth), false, false⟩
  | .null => by simp [compactChars, scalarChars, Scan.step, depth, h]
  | .bool true => by simp [compactChars, scalarChars, Scan.step, depth, h]
  | .bool false => by simp [compactChars, scalarChars, Scan.step, depth, h]
  | .int n => by
    have hnumeric : ∀ c ∈ Text.intChars n, isNumeric c := fun c hc => isNumeric_of_mem_intChars hc
    rw [compactChars, scalarChars, foldl_step_of_numeric d m hnumeric]
    simp [depth, h]
  | .str s => by
    rw [compactChars, scalarChars, foldl_step_stringChars]
    simp [depth, h]
  | .foreign => by simp [compactChars, scalarChars, Scan.step, depth, h]
  | .arr items => by
    have hitems := foldl_step_compactItems (d := d + 1) (m := max m (d + 1)) (by omega) true items
    have hmost : max (max m (d + 1)) (d + 1 + itemsDepth items) =
        max m (d + (itemsDepth items + 1)) := by omega
    rw [compactChars, List.foldl_append, List.foldl_cons]
    change [']'].foldl Scan.step ((compactItems true items).foldl Scan.step
      ⟨d + 1, max m (d + 1), false, false⟩) = _
    rw [hitems, depth, hmost]
    rfl
  | .obj fields => by
    have hfields := foldl_step_compactFields (d := d + 1) (m := max m (d + 1)) (by omega) true fields
    have hmost : max (max m (d + 1)) (d + 1 + fieldsDepth fields) =
        max m (d + (fieldsDepth fields + 1)) := by omega
    rw [compactChars, List.foldl_append, List.foldl_cons]
    change ['}'].foldl Scan.step ((compactFields true fields).foldl Scan.step
      ⟨d + 1, max m (d + 1), false, false⟩) = _
    rw [hfields, depth, hmost]
    rfl

lemma foldl_step_compactItems {d m : Nat} (h : d ≤ m) (first : Bool) : ∀ items : List Json,
    (compactItems first items).foldl Scan.step ⟨d, m, false, false⟩ =
      ⟨d, max m (d + itemsDepth items), false, false⟩
  | [] => by simp [compactItems, itemsDepth, h]
  | v :: items => by
    have hitems := foldl_step_compactItems (d := d) (m := max m (d + v.depth)) (by omega) false items
    have hmost : max (max m (d + v.depth)) (d + itemsDepth items) =
        max m (d + max v.depth (itemsDepth items)) := by omega
    rw [compactItems, List.foldl_append, List.foldl_append, foldl_step_comma,
      foldl_step_compactChars h v,
      hitems, itemsDepth, hmost]

lemma foldl_step_compactFields {d m : Nat} (h : d ≤ m) (first : Bool) :
    ∀ fields : List (String × Json),
      (compactFields first fields).foldl Scan.step ⟨d, m, false, false⟩ =
        ⟨d, max m (d + fieldsDepth fields), false, false⟩
  | [] => by simp [compactFields, fieldsDepth, h]
  | (key, v) :: fields => by
    have hfields :=
      foldl_step_compactFields (d := d) (m := max m (d + v.depth)) (by omega) false fields
    have hmost : max (max m (d + v.depth)) (d + fieldsDepth fields) =
        max m (d + max v.depth (fieldsDepth fields)) := by omega
    have hcolon : Scan.step ⟨d, m, false, false⟩ ':' = ⟨d, m, false, false⟩ := rfl
    rw [compactFields, List.foldl_append, List.foldl_append, List.foldl_append, foldl_step_comma,
      foldl_step_stringChars, List.foldl_cons, hcolon, foldl_step_compactChars h v, hfields,
      fieldsDepth, hmost]

end

/-- The compact text of a value is nested as deep as the value. -/
theorem nesting_compact (v : Json) : nesting v.compact = v.depth := by
  rw [nesting, compact, String.toList_ofList, foldl_step_compactChars (Nat.le_refl 0) v]
  exact (Nat.zero_max _).trans (Nat.zero_add _)

end TriggerScript.Json
