import TriggerScript.Text.Decimal

/-!
# JSON values and their text

The values of JSON as far as this library's data uses them, and their two written forms: the
compact one without any space and the indented one. The fields of an object keep their order.
-/

namespace TriggerScript

/-- A JSON value. -/
inductive Json where
  | null
  | bool (b : Bool)
  | int (n : Int)
  | str (s : String)
  | arr (items : List Json)
  | obj (fields : List (String × Json))
  /-- A well-formed value that the data of this library never holds: a number that is not written
  as an integer, a string that is no text, or an object with such a string as a key. -/
  | foreign
deriving Repr, Inhabited

namespace Json

/-- The hexadecimal digit of a number below sixteen. -/
def hexDigit (n : Nat) : Char :=
  if n < 10 then Char.ofNat ('0'.toNat + n) else Char.ofNat ('a'.toNat + (n - 10))

/-- A character inside a string: quotes, backslashes and control characters are escaped. -/
def escapedChar (c : Char) : List Char :=
  if c = '"' then ['\\', '"']
  else if c = '\\' then ['\\', '\\']
  else if c = '\n' then ['\\', 'n']
  else if c = '\r' then ['\\', 'r']
  else if c = '\t' then ['\\', 't']
  else if c.toNat = 8 then ['\\', 'b']
  else if c.toNat = 12 then ['\\', 'f']
  else if c.toNat < 32 then
    ['\\', 'u', '0', '0', hexDigit (c.toNat / 16), hexDigit (c.toNat % 16)]
  else [c]

/-- A string between quotes. -/
def stringChars (s : String) : List Char :=
  '"' :: s.toList.flatMap escapedChar ++ ['"']

/-- The text of a value that has no parts. -/
def scalarChars : Json → List Char
  | null => ['n', 'u', 'l', 'l']
  | bool true => ['t', 'r', 'u', 'e']
  | bool false => ['f', 'a', 'l', 's', 'e']
  | int n => Text.intChars n
  | str s => stringChars s
  | arr _ => ['[', ']']
  | obj _ => ['{', '}']
  | foreign => ['n', 'u', 'l', 'l']

mutual

/-- The compact text of a value. -/
def compactChars : Json → List Char
  | arr items => '[' :: compactItems true items ++ [']']
  | obj fields => '{' :: compactFields true fields ++ ['}']
  | null => scalarChars null
  | bool b => scalarChars (bool b)
  | int n => scalarChars (int n)
  | str s => scalarChars (str s)
  | foreign => scalarChars foreign

/-- The compact text of the items of an array; `first` if nothing stands in front of them. -/
def compactItems (first : Bool) : List Json → List Char
  | [] => []
  | v :: rest => (if first then [] else [',']) ++ compactChars v ++ compactItems false rest

/-- The compact text of the fields of an object; `first` if nothing stands in front of them. -/
def compactFields (first : Bool) : List (String × Json) → List Char
  | [] => []
  | (key, v) :: rest =>
    (if first then [] else [',']) ++ stringChars key ++ ':' :: compactChars v ++
      compactFields false rest

end

/-- The compact text of a value. -/
def compact (v : Json) : String :=
  String.ofList v.compactChars

/-- A new line and the indentation of a depth, two spaces for each level. -/
def newLine (depth : Nat) : List Char :=
  '\n' :: List.replicate (2 * depth) ' '

mutual

/-- The indented text of a value at a depth. -/
def indentedChars (depth : Nat) : Json → List Char
  | arr [] => scalarChars (arr [])
  | arr (v :: rest) => '[' :: indentedItems depth true (v :: rest) ++ newLine depth ++ [']']
  | obj [] => scalarChars (obj [])
  | obj (f :: rest) => '{' :: indentedFields depth true (f :: rest) ++ newLine depth ++ ['}']
  | null => scalarChars null
  | bool b => scalarChars (bool b)
  | int n => scalarChars (int n)
  | str s => scalarChars (str s)
  | foreign => scalarChars foreign

/-- The items of an array at a depth, each on lines of its own. -/
def indentedItems (depth : Nat) (first : Bool) : List Json → List Char
  | [] => []
  | v :: rest =>
    (if first then [] else [',']) ++ newLine (depth + 1) ++ indentedChars (depth + 1) v ++
      indentedItems depth false rest

/-- The fields of an object at a depth, each on lines of its own. -/
def indentedFields (depth : Nat) (first : Bool) : List (String × Json) → List Char
  | [] => []
  | (key, v) :: rest =>
    (if first then [] else [',']) ++ newLine (depth + 1) ++ stringChars key ++
      ':' :: ' ' :: indentedChars (depth + 1) v ++ indentedFields depth false rest

end

/-- The indented text of a value. -/
def indented (v : Json) : String :=
  String.ofList (v.indentedChars 0)

/-- A text or null. -/
def textOrNull : Option String → Json
  | none => null
  | some s => str s

/-- A natural number. -/
def nat (n : Nat) : Json :=
  int n

/-- The field of an object with this key, the first one if there are several. -/
def field? : Json → String → Option Json
  | obj fields, key => fields.lookup key
  | _, _ => none

end Json

end TriggerScript
