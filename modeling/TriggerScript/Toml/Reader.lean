import TriggerScript.Toml.Quoted
import TriggerScript.Toml.Scalar
import TriggerScript.Toml.Section

/-!
# Reading TOML

A document is read line by line. Arrays can go over several lines; all else stands on one line, with
a comment behind it or not. Values are nested to a limited depth, and a path has a limited number of
keys.

Every step of reading takes at least one character, so the length of the text bounds the number of
steps: that is what the functions with a number of steps are given.

The main definition is `Toml.read?`.
-/

namespace TriggerScript.Toml

/-- How deep values can be nested and how many keys a path can have. -/
def nestingLimit : Nat :=
  79

/-- A text without the blanks at its start. -/
def skipBlanks (cs : List Char) : List Char :=
  cs.dropWhile isBlank

/-- A text without the comment at its start. -/
def skipComment : List Char → List Char
  | '#' :: rest => rest.dropWhile isPlain
  | cs => cs

/-- A text without the blanks, line ends and comments at its start. -/
def skipLines : Nat → List Char → List Char
  | 0, cs => cs
  | steps + 1, cs =>
    match skipComment (skipBlanks cs) with
    | '\n' :: rest => skipLines steps rest
    | rest => rest

/-- Whether `c` can stand in a key without quotes. -/
def isBare (c : Char) : Bool :=
  c.isAlphanum || c == '_' || c == '-'

/-- The key at the start of a text, and the text behind it. -/
def key? (cs : List Char) : Option (String × List Char) :=
  match cs.head? with
  | some '"' => (quotedKey? cs).map fun (s, rest) => (String.ofList s, rest)
  | some '\'' => (quotedKey? cs).map fun (s, rest) => (String.ofList s, rest)
  | _ =>
    match cs.takeWhile isBare with
    | [] => none
    | bare => some (String.ofList bare, cs.drop bare.length)

/-- The path of keys at the start of a text, and the text behind it and its blanks. -/
def path? : Nat → List Char → Option (List String × List Char)
  | 0, _ => none
  | keys + 1, cs => do
    let (key, rest) ← key? (skipBlanks cs)
    match skipBlanks rest with
    | '.' :: rest =>
      let (path, rest) ← path? keys rest
      return (key :: path, rest)
    | rest => return ([key], rest)

/-- A path, an equals sign and a value, and the text behind them and their blanks. -/
def entry? (value? : List Char → Option (Value × List Char)) (cs : List Char) :
    Option ((List String × Value) × List Char) := do
  let (path, rest) ← path? nestingLimit cs
  match rest with
  | '=' :: rest =>
    let (v, rest) ← value? (skipBlanks rest)
    return ((path, v), skipBlanks rest)
  | _ => none

/-- The items of an array up to its closing bracket, and the text behind that. -/
def items? (value? : List Char → Option (Value × List Char)) :
    Nat → List Char → Option (List Value × List Char)
  | 0, _ => none
  | steps + 1, cs =>
    match skipLines cs.length cs with
    | ']' :: rest => some ([], rest)
    | cs => do
      let (v, rest) ← value? cs
      match skipLines rest.length rest with
      | ']' :: rest => return ([v], rest)
      | ',' :: rest =>
        let (others, rest) ← items? value? steps rest
        return (v :: others, rest)
      | _ => none

/-- The entries of a table on one line up to its closing brace, and the text behind that. There is
at least one. -/
def entries? (value? : List Char → Option (Value × List Char)) :
    Nat → List Char → Option (List (List String × Value) × List Char)
  | 0, _ => none
  | steps + 1, cs => do
    let (entry, rest) ← entry? value? cs
    match rest with
    | '}' :: rest => return ([entry], rest)
    | ',' :: rest =>
      let (others, rest) ← entries? value? steps rest
      return (entry :: others, rest)
    | _ => none

/-- The value at the start of a text, and the text behind it. Arrays and tables are nested in it to
this depth at most. -/
def value? : Nat → List Char → Option (Value × List Char)
  | _, '"' :: rest => (quoted? ('"' :: rest)).map fun (s, rest) => (.text (String.ofList s), rest)
  | _, '\'' :: rest => (quoted? ('\'' :: rest)).map fun (s, rest) => (.text (String.ofList s), rest)
  | depth + 1, '[' :: rest =>
    (items? (value? depth) (rest.length + 1) rest).map fun (items, rest) => (.array items, rest)
  | depth + 1, '{' :: rest =>
    match skipBlanks rest with
    | '}' :: rest => some (.table [], rest)
    | rest => do
      let (entries, rest) ← entries? (value? depth) rest.length rest
      return (.table (← inlineFields? entries), rest)
  | _, cs =>
    let (word, rest) := word cs
    (scalar? word).map fun v => (v, rest)

/-- A line of a document. -/
inductive Line where
  | blank
  | header (isList : Bool) (path : List String)
  | entry (path : List String) (v : Value)

/-- The line at the start of a text, and the text behind it and its blanks. -/
def line? (cs : List Char) : Option (Line × List Char) :=
  match skipBlanks cs with
  | [] => some (.blank, [])
  | '\n' :: rest => some (.blank, '\n' :: rest)
  | '#' :: rest => some (.blank, '#' :: rest)
  | '[' :: '[' :: rest => do
    match ← path? nestingLimit rest with
    | (path, ']' :: ']' :: rest) => return (.header true path, skipBlanks rest)
    | _ => none
  | '[' :: rest => do
    match ← path? nestingLimit rest with
    | (path, ']' :: rest) => return (.header false path, skipBlanks rest)
    | _ => none
  | rest => do
    let ((path, v), rest) ← entry? (value? nestingLimit) rest
    return (.entry path v, rest)

/-- The lines of a text. -/
def lines? : Nat → List Char → Option (List Line)
  | 0, _ => none
  | steps + 1, cs => do
    let (line, rest) ← line? cs
    match skipComment rest with
    | [] => return [line]
    | '\n' :: rest => return line :: (← lines? steps rest)
    | _ => none

/-- The values in front of all headers, and the sections behind them. -/
def sections : List Line → List (List String × Value) × List Section
  | [] => ([], [])
  | .blank :: rest => sections rest
  | .entry path v :: rest =>
    let (entries, others) := sections rest
    ((path, v) :: entries, others)
  | .header isList path :: rest =>
    let (entries, others) := sections rest
    ([], ⟨path, isList, entries⟩ :: others)

/-- A text without the mark that can stand in front of it. -/
def withoutMark : List Char → List Char
  | c :: rest => if c.toNat = 0xFEFF then rest else c :: rest
  | [] => []

/-- The table of a document; `none` if it is malformed. -/
def read? (s : String) : Option (List (String × Value)) := do
  let cs := unixLines (withoutMark s.toList)
  let lines ← lines? (cs.length + 1) cs
  let (entries, others) := sections lines
  assemble? entries others

end TriggerScript.Toml
