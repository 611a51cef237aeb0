import TriggerScript.Json

/-!
# Reading JSON

A text is first split into lexemes, and the lexemes are then put together by a machine that keeps
the open arrays and objects on a stack. Both steps take the text as it stands: nothing is
limited in depth or size here.

The main definitions are `Json.ofText?` and, for bytes that may be no text, `Json.ofBytes?`.
-/

namespace TriggerScript.Json

/-- A unit of a JSON text. A string is `none` if it is no text, because it has half a surrogate
pair. -/
inductive Lexeme where
  | openArray
  | closeArray
  | openObject
  | closeObject
  | comma
  | colon
  | text (s : Option String)
  /-- A value of its own that is no string. -/
  | scalar (v : Json)
deriving Repr

/-- A piece of a string: a character, or a unit written by its hexadecimal code. -/
inductive Piece where
  | char (c : Char)
  | unit (n : Nat)
deriving Repr, DecidableEq

/-- The character that a letter behind a backslash stands for. -/
def escapedPiece? : Char → Option Char
  | '"' => some '"'
  | '\\' => some '\\'
  | '/' => some '/'
  | 'b' => some (Char.ofNat 8)
  | 'f' => some (Char.ofNat 12)
  | 'n' => some '\n'
  | 'r' => some '\r'
  | 't' => some '\t'
  | _ => none

/-- The pieces of a string up to its closing quote, and the text behind that. -/
def pieces? : List Char → Option (List Piece × List Char)
  | [] => none
  | '"' :: rest => some ([], rest)
  | '\\' :: 'u' :: a :: b :: c :: d :: rest => do
    let unit ← Text.natOfHex? [a, b, c, d]
    let (pieces, rest) ← pieces? rest
    return (.unit unit :: pieces, rest)
  | '\\' :: e :: rest => do
    let c ← escapedPiece? e
    let (pieces, rest) ← pieces? rest
    return (.char c :: pieces, rest)
  | c :: rest =>
    if c.toNat < 32 then none
    else do
      let (pieces, rest) ← pieces? rest
      return (.char c :: pieces, rest)

/-- Whether a unit is the first half of a surrogate pair. -/
def isHighSurrogate (n : Nat) : Bool :=
  0xD800 ≤ n && n ≤ 0xDBFF

/-- Whether a unit is the second half of a surrogate pair. -/
def isLowSurrogate (n : Nat) : Bool :=
  0xDC00 ≤ n && n ≤ 0xDFFF

/-- The characters of a string; `none` if it has half a surrogate pair. -/
def joined? : List Piece → Option (List Char)
  | [] => some []
  | .char c :: rest => (joined? rest).map (c :: ·)
  | [.unit n] =>
    if isHighSurrogate n || isLowSurrogate n then none else some [Char.ofNat n]
  | .unit n :: .unit m :: rest =>
    if isHighSurrogate n then
      if isLowSurrogate m then
        (joined? rest).map (Char.ofNat (0x10000 + (n - 0xD800) * 0x400 + (m - 0xDC00)) :: ·)
      else none
    else if isLowSurrogate n then none
    else (joined? (.unit m :: rest)).map (Char.ofNat n :: ·)
  | .unit n :: .char c :: rest =>
    if isHighSurrogate n || isLowSurrogate n then none
    else (joined? rest).map fun cs => Char.ofNat n :: c :: cs

/-- Whether `c` can stand in a number. -/
def isNumeric (c : Char) : Bool :=
  c.isDigit || c == '-' || c == '+' || c == '.' || c == 'e' || c == 'E'

/-- Whether digits are a numeral without a leading zero. -/
def isPlainNumeral : List Char → Bool
  | [] => false
  | ['0'] => true
  | '0' :: _ => false
  | digits => digits.all Char.isDigit

/-- Whether a text is empty or an exponent. -/
def isExponent : List Char → Bool
  | [] => true
  | e :: '+' :: digits => (e == 'e' || e == 'E') && !digits.isEmpty && digits.all Char.isDigit
  | e :: '-' :: digits => (e == 'e' || e == 'E') && !digits.isEmpty && digits.all Char.isDigit
  | e :: digits => (e == 'e' || e == 'E') && !digits.isEmpty && digits.all Char.isDigit

/-- Whether a text is empty or a fraction, with an exponent behind it or not. -/
def isFraction : List Char → Bool
  | '.' :: rest =>
    !(rest.takeWhile Char.isDigit).isEmpty && isExponent (rest.dropWhile Char.isDigit)
  | rest => isExponent rest

/-- The value of a number without its sign: an integer where it is written as one. -/
def unsigned? (negative : Bool) (cs : List Char) : Option Json :=
  let digits := cs.takeWhile Char.isDigit
  let rest := cs.dropWhile Char.isDigit
  if isPlainNumeral digits && isFraction rest then
    let n := Text.numeral 10 Text.digitValue digits
    if !rest.isEmpty || (negative && n == 0) then some .foreign
    else some (.int (if negative then -(n : Int) else n))
  else none

/-- The value of a number. -/
def number? : List Char → Option Json
  | '-' :: rest => unsigned? true rest
  | cs => unsigned? false cs

/-- The value of a word. -/
def wordValue? (cs : List Char) : Option Json :=
  if cs = ['n', 'u', 'l', 'l'] then some .null
  else if cs = ['t', 'r', 'u', 'e'] then some (.bool true)
  else if cs = ['f', 'a', 'l', 's', 'e'] then some (.bool false)
  else none

/-- The lexeme that one character is. -/
def mark? : Char → Option Lexeme
  | '[' => some .openArray
  | ']' => some .closeArray
  | '{' => some .openObject
  | '}' => some .closeObject
  | ',' => some .comma
  | ':' => some .colon
  | _ => none

/-- Whether `c` is white space between lexemes. -/
def isSpace (c : Char) : Bool :=
  c == ' ' || c == '\n' || c == '\t' || c == '\r'

theorem length_of_pieces? {cs : List Char} {pieces : List Piece} {rest : List Char}
    (h : pieces? cs = some (pieces, rest)) : rest.length < cs.length := by
  fun_induction pieces? cs generalizing pieces rest with
  | case1 => simp at h
  | case2 => simp_all
  | case3 a b c d rest' ih =>
    simp only [Option.bind_eq_bind, Option.bind_eq_some_iff, Option.pure_def, Option.some.injEq,
      Prod.mk.injEq, Prod.exists] at h
    obtain ⟨_, _, _, _, hrest, _, rfl⟩ := h
    have := ih hrest
    simp only [List.length_cons]
    omega
  | case4 e rest' _ ih =>
    simp only [Option.bind_eq_bind, Option.bind_eq_some_iff, Option.pure_def, Option.some.injEq,
      Prod.mk.injEq, Prod.exists] at h
    obtain ⟨_, _, _, _, hrest, _, rfl⟩ := h
    have := ih hrest
    simp only [List.length_cons]
    omega
  | case5 => simp at h
  | case6 c rest' _ _ _ _ ih =>
    simp only [Option.bind_eq_bind, Option.bind_eq_some_iff, Option.pure_def, Option.some.injEq,
      Prod.mk.injEq, Prod.exists] at h
    obtain ⟨_, _, hrest, _, rfl⟩ := h
    have := ih hrest
    simp only [List.length_cons]
    omega

/-- The lexemes of a text; `none` if some part of it is no lexeme. -/
def lexemes? (cs : List Char) : Option (List Lexeme) :=
  match cs with
  | [] => some []
  | c :: rest =>
    if isSpace c then lexemes? rest
    else if c = '"' then
      match _h : pieces? rest with
      | none => none
      | some (pieces, rest') =>
        (lexemes? rest').map (.text ((joined? pieces).map String.ofList) :: ·)
    else if isNumeric c then
      match number? (c :: rest.takeWhile isNumeric) with
      | none => none
      | some v => (lexemes? (rest.dropWhile isNumeric)).map (.scalar v :: ·)
    else if c.isAlpha then
      match wordValue? (c :: rest.takeWhile Char.isAlpha) with
      | none => none
      | some v => (lexemes? (rest.dropWhile Char.isAlpha)).map (.scalar v :: ·)
    else
      match mark? c with
      | none => none
      | some lexeme => (lexemes? rest).map (lexeme :: ·)
termination_by cs.length
decreasing_by
  · simp
  · have := length_of_pieces? _h
    simp only [List.length_cons]
    omega
  · have := (List.dropWhile_sublist isNumeric (l := rest)).length_le
    simp only [List.length_cons]
    omega
  · have := (List.dropWhile_sublist Char.isAlpha (l := rest)).length_le
    simp only [List.length_cons]
    omega
  · simp

/-- An array or object that is still open, with its last part first. -/
inductive Frame where
  | arr (items : List Json)
  /-- The fields so far, and the key of the value that is being read. -/
  | obj (fields : List (Option String × Json)) (key : Option String)

/-- What may come next. -/
inductive Expect where
  | value
  /-- A value, or the end of the array that was just opened. -/
  | valueOrClose
  /-- A key, or the end of the object that was just opened. -/
  | keyOrClose (fields : List (Option String × Json))
  | key (fields : List (Option String × Json))
  | colon (fields : List (Option String × Json)) (key : Option String)
  /-- A comma, or the end of the innermost array or object, behind this value. -/
  | more (v : Json)

/-- A value that is being read: the open arrays and objects, the innermost first, and what may come
next. -/
structure Machine where
  stack : List Frame := []
  expect : Expect := .value

/-- The object of fields, the last one first. -/
def closeObject (fields : List (Option String × Json)) : Json :=
  match fields.reverse.mapM fun (key, v) => key.map fun key => (key, v) with
  | some fields => .obj fields
  | none => .foreign

namespace Machine

/-- Takes a lexeme that begins a value. -/
def begin? (m : Machine) : Lexeme → Option Machine
  | .openArray => some ⟨.arr [] :: m.stack, .valueOrClose⟩
  | .openObject => some { m with expect := .keyOrClose [] }
  | .text none => some { m with expect := .more .foreign }
  | .text (some s) => some { m with expect := .more (.str s) }
  | .scalar v => some { m with expect := .more v }
  | _ => none

/-- Takes a lexeme behind the value `v`. -/
def more? (m : Machine) (v : Json) : Lexeme → Option Machine
  | .comma =>
    match m.stack with
    | .arr items :: stack => some ⟨.arr (v :: items) :: stack, .value⟩
    | .obj fields key :: stack => some ⟨stack, .key ((key, v) :: fields)⟩
    | [] => none
  | .closeArray =>
    match m.stack with
    | .arr items :: stack => some ⟨stack, .more (.arr (v :: items).reverse)⟩
    | _ => none
  | .closeObject =>
    match m.stack with
    | .obj fields key :: stack => some ⟨stack, .more (closeObject ((key, v) :: fields))⟩
    | _ => none
  | _ => none

/-- Takes one lexeme. -/
def step? (m : Machine) (l : Lexeme) : Option Machine :=
  match m.expect with
  | .value => m.begin? l
  | .valueOrClose =>
    match l, m.stack with
    | .closeArray, .arr _ :: stack => some ⟨stack, .more (.arr [])⟩
    | l, _ => m.begin? l
  | .keyOrClose fields =>
    match l with
    | .closeObject => some { m with expect := .more (closeObject fields) }
    | .text key => some { m with expect := .colon fields key }
    | _ => none
  | .key fields =>
    match l with
    | .text key => some { m with expect := .colon fields key }
    | _ => none
  | .colon fields key =>
    match l with
    | .colon => some ⟨.obj fields key :: m.stack, .value⟩
    | _ => none
  | .more v => m.more? v l

/-- The value, if it is complete. -/
def finish? (m : Machine) : Option Json :=
  match m.stack, m.expect with
  | [], .more v => some v
  | _, _ => none

end Machine

/-- The value that a text denotes; `none` if the text is malformed. -/
def ofText? (s : String) : Option Json := do
  let units ← lexemes? s.toList
  let machine ← units.foldlM Machine.step? {}
  machine.finish?

/-! ### Bytes -/

/-- The character at the start of bytes, if there is one, and the number of its bytes. -/
def firstChar? (bytes : List UInt8) : Option (Char × Nat) :=
  [1, 2, 3, 4].findSome? fun n =>
    match (String.fromUTF8? (bytes.take n).toByteArray).map String.toList with
    | some [c] => some (c, n)
    | _ => none

/-- What a byte outside of all characters is read as: half a surrogate pair, which can stand in a
string and makes it no text. Behind a backslash it is a character that cannot stand there. -/
def strayChars (escaped : Bool) : List Char :=
  if escaped then [Char.ofNat 0] else ['\\', 'u', 'd', '8', '0', '0']

/-- The characters of bytes. The first `skip` bytes belong to a character that has been read;
`escaped` says whether it is a backslash that is not escaped itself. -/
def charsOfBytes (skip : Nat) (escaped : Bool) : List UInt8 → List Char
  | [] => []
  | b :: rest =>
    match skip with
    | skip + 1 => charsOfBytes skip escaped rest
    | 0 =>
      match firstChar? (b :: rest) with
      | some (c, n) => c :: charsOfBytes (n - 1) (c = '\\' && !escaped) rest
      | none => strayChars escaped ++ charsOfBytes 0 false rest

/-- The value that bytes denote. They need not be a text in strings that are no part of the data. -/
def ofBytes? (bytes : List UInt8) : Option Json :=
  match String.fromUTF8? bytes.toByteArray with
  | some s => ofText? s
  | none => ofText? (String.ofList (charsOfBytes 0 false bytes))

end TriggerScript.Json
