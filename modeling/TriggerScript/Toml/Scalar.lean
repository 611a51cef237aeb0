import TriggerScript.Toml

/-!
# Numbers, truth values, dates and times in TOML

These values are words without blanks in them, but for a date and a time that stand together. Digits
of numbers can be set apart by single underscores. A date and a time are kept in one spelling: with a
`T` between them and without zeros behind the last place of the second.
-/

namespace TriggerScript.Toml

/-- The digits of a numeral whose underscores each stand between two digits. -/
def digits? (isDigit : Char → Bool) : List Char → Option (List Char)
  | [] => none
  | [c] => if isDigit c then some [c] else none
  | c :: '_' :: rest =>
    if isDigit c then (digits? isDigit rest).map (c :: ·) else none
  | c :: rest => if isDigit c then (digits? isDigit rest).map (c :: ·) else none

/-- The digits of a decimal numeral without a leading zero. -/
def decimalDigits? (cs : List Char) : Option (List Char) :=
  match digits? Char.isDigit cs with
  | some ('0' :: _ :: _) => none
  | digits => digits

/-- The sign in front of a text, and the text behind it. -/
def signed : List Char → Bool × List Char
  | '-' :: rest => (true, rest)
  | '+' :: rest => (false, rest)
  | cs => (false, cs)

/-- Whether `c` is an octal digit. -/
def isOctal (c : Char) : Bool :=
  '0' ≤ c && c ≤ '7'

/-- Whether `c` is a binary digit. -/
def isBinary (c : Char) : Bool :=
  c == '0' || c == '1'

/-- An integer in one of the four bases. -/
def integer? : List Char → Option Int
  | '0' :: 'x' :: rest =>
    (digits? Text.isHexDigit rest).map fun ds => (Text.numeral 16 Text.hexValue ds : Nat)
  | '0' :: 'o' :: rest =>
    (digits? isOctal rest).map fun ds => (Text.numeral 8 Text.digitValue ds : Nat)
  | '0' :: 'b' :: rest =>
    (digits? isBinary rest).map fun ds => (Text.numeral 2 Text.digitValue ds : Nat)
  | cs =>
    let (negative, rest) := signed cs
    (decimalDigits? rest).map fun ds =>
      let n : Int := (Text.numeral 10 Text.digitValue ds : Nat)
      if negative then -n else n

/-- The exponent behind its mark. -/
def exponent? (cs : List Char) : Option Int :=
  let (negative, rest) := signed cs
  (digits? Char.isDigit rest).map fun ds =>
    let n : Int := (Text.numeral 10 Text.digitValue ds : Nat)
    if negative then -n else n

/-- A number, if it is not beyond the greatest one. -/
def bounded? (x : Binary64) : Option Binary64 :=
  if x = .infinite false then none else some x

/-- A number with a fraction, an exponent, or both. -/
def fraction? (cs : List Char) : Option Binary64 :=
  let (negative, rest) := signed cs
  if rest = ['i', 'n', 'f'] then some (.infinite negative)
  else if rest = ['n', 'a', 'n'] then some .notANumber
  else
    let mantissa := rest.takeWhile fun c => c ≠ 'e' && c ≠ 'E'
    let whole := mantissa.takeWhile (· ≠ '.')
    if mantissa.length = rest.length ∧ whole.length = mantissa.length then none
    else do
      let wholeDigits ← decimalDigits? whole
      let places ← match mantissa.drop whole.length with
        | [] => some []
        | _ :: places => digits? Char.isDigit places
      let exponent ← match rest.drop mantissa.length with
        | [] => some 0
        | _ :: exponent => exponent? exponent
      bounded? (.ofDecimal negative (Text.numeral 10 Text.digitValue (wholeDigits ++ places))
        (exponent - places.length))

/-- The number of two digits, if it is within bounds. -/
def pair? (least greatest : Nat) (a b : Char) : Option Nat := do
  let n ← Text.natOfChars? [a, b]
  if least ≤ n ∧ n ≤ greatest then some n else none

/-- The number of days of a month. -/
def daysOf (year month : Nat) : Nat :=
  if month = 2 then
    if year % 4 = 0 ∧ (year % 100 ≠ 0 ∨ year % 400 = 0) then 29 else 28
  else if month = 4 ∨ month = 6 ∨ month = 9 ∨ month = 11 then 30
  else 31

/-- The date at the start of a text, and the text behind it. -/
def date? : List Char → Option (List Char × List Char)
  | y₁ :: y₂ :: y₃ :: y₄ :: '-' :: m₁ :: m₂ :: '-' :: d₁ :: d₂ :: rest => do
    let year ← Text.natOfChars? [y₁, y₂, y₃, y₄]
    let month ← pair? 1 12 m₁ m₂
    let _ ← pair? 1 (daysOf year month) d₁ d₂
    return ([y₁, y₂, y₃, y₄, '-', m₁, m₂, '-', d₁, d₂], rest)
  | _ => none

/-- The places behind the second: nine at most, without zeros at the end. -/
def secondPlaces (digits : List Char) : List Char :=
  match ((digits.take 9).reverse.dropWhile (· = '0')).reverse with
  | [] => []
  | places => '.' :: places

/-- The time at the start of a text, and the text behind it. -/
def time? : List Char → Option (List Char × List Char)
  | h₁ :: h₂ :: ':' :: m₁ :: m₂ :: ':' :: s₁ :: s₂ :: rest => do
    let _ ← pair? 0 23 h₁ h₂
    let _ ← pair? 0 59 m₁ m₂
    let _ ← pair? 0 60 s₁ s₂
    let clock := [h₁, h₂, ':', m₁, m₂, ':', s₁, s₂]
    match rest with
    | '.' :: rest =>
      let digits := rest.takeWhile Char.isDigit
      if digits.isEmpty then none
      else return (clock ++ secondPlaces digits, rest.drop digits.length)
    | _ => return (clock, rest)
  | _ => none

/-- The offset from universal time that a text is, or nothing. -/
def offset? : List Char → Option (List Char)
  | [] => some []
  | ['Z'] => some ['Z']
  | ['z'] => some ['Z']
  | [sign, h₁, h₂, ':', m₁, m₂] => do
    let hours ← pair? 0 23 h₁ h₂
    let minutes ← pair? 0 59 m₁ m₂
    if sign = '+' ∨ (sign = '-' ∧ hours + minutes = 0) then some ['+', h₁, h₂, ':', m₁, m₂]
    else if sign = '-' then some ['-', h₁, h₂, ':', m₁, m₂]
    else none
  | _ => none

/-- A date, a time, or both. -/
def moment? (cs : List Char) : Option (List Char) :=
  match date? cs with
  | some (date, []) => some date
  | some (date, mark :: rest) => do
    if mark = 'T' ∨ mark = 't' ∨ mark = ' ' then
      let (time, rest) ← time? rest
      let offset ← offset? rest
      return date ++ 'T' :: time ++ offset
    else none
  | none =>
    match time? cs with
    | some (time, []) => some time
    | _ => none

/-- The value that a word is. -/
def scalar? (cs : List Char) : Option Value :=
  if cs = ['t', 'r', 'u', 'e'] then some (.bool true)
  else if cs = ['f', 'a', 'l', 's', 'e'] then some (.bool false)
  else
    match integer? cs with
    | some n => if Text.fitsWord n then some (.int n) else none
    | none =>
      match fraction? cs with
      | some x => some (.fraction x)
      | none => (moment? cs).map fun m => .text (String.ofList m)

/-- Whether `c` can stand in a word. -/
def isWordChar (c : Char) : Bool :=
  c.isAlphanum || c == '+' || c == '-' || c == '_' || c == '.' || c == ':'

/-- The word at the start of a text, and the text behind it. A blank and a digit behind a date belong
to it. -/
def word (cs : List Char) : List Char × List Char :=
  let first := cs.takeWhile isWordChar
  match date? first, cs.drop first.length with
  | some (_, []), ' ' :: c :: rest =>
    if c.isDigit then
      let second := (c :: rest).takeWhile isWordChar
      (first ++ ' ' :: second, (c :: rest).drop second.length)
    else (first, ' ' :: c :: rest)
  | _, rest => (first, rest)

end TriggerScript.Toml
