import TriggerScript.Text.Decimal

/-!
# Strings in TOML

Basic strings stand between double quotes and have escapes; literal strings stand between single
quotes and are taken as they are. Between three quotes of either kind a string can have several
lines. Each reader here takes the text behind the opening quotes and yields the string and the text
behind the closing ones.
-/

namespace TriggerScript.Toml

/-- Whether `c` is a blank inside a line. -/
def isBlank (c : Char) : Bool :=
  c == ' ' || c == '\t'

/-- Whether `c` can stand in a string or a comment as it is: no control character but the tab. -/
def isPlain (c : Char) : Bool :=
  c == '\t' || (32 ≤ c.toNat && c.toNat ≠ 127)

/-- The character of a code point. -/
def charOfCode? (n : Nat) : Option Char :=
  if n.isValidChar then some (Char.ofNat n) else none

/-- The character that an escape stands for, and the text behind the escape. -/
def escape? : List Char → Option (Char × List Char)
  | 'b' :: rest => some (Char.ofNat 8, rest)
  | 't' :: rest => some ('\t', rest)
  | 'n' :: rest => some ('\n', rest)
  | 'f' :: rest => some (Char.ofNat 12, rest)
  | 'r' :: rest => some ('\r', rest)
  | '"' :: rest => some ('"', rest)
  | '\\' :: rest => some ('\\', rest)
  | 'u' :: rest => do
    if rest.length < 4 then none
    else return (← charOfCode? (← Text.natOfHex? (rest.take 4)), rest.drop 4)
  | 'U' :: rest => do
    if rest.length < 8 then none
    else return (← charOfCode? (← Text.natOfHex? (rest.take 8)), rest.drop 8)
  | _ => none

theorem length_of_escape? {cs rest : List Char} {c : Char} (h : escape? cs = some (c, rest)) :
    rest.length < cs.length := by
  unfold escape? at h
  split at h
  all_goals try
    obtain ⟨_, rfl⟩ : _ ∧ _ = rest := by simpa using h
    simp
  · simp only [Option.bind_eq_bind, Option.pure_def] at h
    split at h
    · simp at h
    · simp only [Option.bind_eq_some_iff, Option.some.injEq, Prod.mk.injEq] at h
      obtain ⟨_, _, _, _, _, rfl⟩ := h
      simp only [List.length_drop, List.length_cons]
      omega
  · simp only [Option.bind_eq_bind, Option.pure_def] at h
    split at h
    · simp at h
    · simp only [Option.bind_eq_some_iff, Option.some.injEq, Prod.mk.injEq] at h
      obtain ⟨_, _, _, _, _, rfl⟩ := h
      simp only [List.length_drop, List.length_cons]
      omega
  · simp at h

/-- A basic string. -/
def basic? (cs : List Char) : Option (List Char × List Char) :=
  match cs with
  | [] => none
  | '"' :: rest => some ([], rest)
  | '\\' :: rest =>
    match _h : escape? rest with
    | some (c, rest') => (basic? rest').map fun (s, rest) => (c :: s, rest)
    | none => none
  | c :: rest =>
    if isPlain c then (basic? rest).map fun (s, rest) => (c :: s, rest) else none
termination_by cs.length
decreasing_by
  · have := length_of_escape? _h
    simp only [List.length_cons]
    omega
  · simp

/-- A literal string. -/
def literal? : List Char → Option (List Char × List Char)
  | [] => none
  | '\'' :: rest => some ([], rest)
  | c :: rest =>
    if isPlain c then (literal? rest).map fun (s, rest) => (c :: s, rest) else none

/-- Whether `c` is a blank or a line feed. -/
def isSpace (c : Char) : Bool :=
  isBlank c || c == '\n'

/-- A text whose line ends are single line feeds. -/
def unixLines : List Char → List Char
  | '\r' :: '\n' :: rest => '\n' :: unixLines rest
  | c :: rest => c :: unixLines rest
  | [] => []

/-- A text without a line feed at its start. -/
def withoutFirstLineEnd : List Char → List Char
  | '\n' :: rest => rest
  | cs => cs

/-- A string between three quotes; `escapes` if it is a basic one. The last two quotes of four or
five are part of the string. The text has line feeds as its only line ends. -/
def multiline? (escapes : Bool) (quote : Char) (cs : List Char) :
    Option (List Char × List Char) :=
  match cs with
  | [] => none
  | c :: rest =>
    if c = quote ∧ rest.take 2 = [quote, quote] then
      let extra := ((rest.drop 2).takeWhile (· = quote)).take 2
      some (extra, rest.drop (2 + extra.length))
    else if escapes ∧ c = '\\' then
      if (rest.dropWhile isBlank).head? = some '\n' then
        multiline? escapes quote (rest.dropWhile isSpace)
      else
        match _h : escape? rest with
        | some (c, rest') => (multiline? escapes quote rest').map fun (s, rest) => (c :: s, rest)
        | none => none
    else if isPlain c ∨ c = '\n' then
      (multiline? escapes quote rest).map fun (s, rest) => (c :: s, rest)
    else none
termination_by cs.length
decreasing_by
  · have := (List.dropWhile_sublist isSpace (l := rest)).length_le
    simp only [List.length_cons]
    omega
  · have := length_of_escape? _h
    simp only [List.length_cons]
    omega
  · simp

/-- A string from its opening quote on, and the text behind it. -/
def quoted? : List Char → Option (List Char × List Char)
  | '"' :: '"' :: '"' :: rest => multiline? true '"' (withoutFirstLineEnd rest)
  | '"' :: rest => basic? rest
  | '\'' :: '\'' :: '\'' :: rest => multiline? false '\'' (withoutFirstLineEnd rest)
  | '\'' :: rest => literal? rest
  | _ => none

/-- A quoted key from its opening quote on, and the text behind it. A key has one line. -/
def quotedKey? : List Char → Option (List Char × List Char)
  | '"' :: rest => basic? rest
  | '\'' :: rest => literal? rest
  | _ => none

end TriggerScript.Toml
