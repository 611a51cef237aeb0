import TriggerScript.Toml

/-!
# Layered values

Settings are put together from layers. A table of a later layer is merged into that of an earlier
one key by key; any other value replaces what was there before. Keys of merged tables are the same in
upper and lower case. The items of a list are taken as they are.

A single value can be set by a path such as `output.directory` or `rows[2].key`; a negative index
counts from the end of a list. What stands in its way is replaced, so that a path leads to its value
unless one of its indices lies outside of its list.
-/

namespace TriggerScript.Settings

/-- A value of the settings. -/
inductive Setting where
  /-- An item of a list that has not been given a value. -/
  | missing
  | bool (b : Bool)
  | int (n : Int)
  | fraction (x : Binary64)
  | text (s : String)
  | list (items : List Setting)
  | table (fields : List (String × Setting))
deriving Repr, Inhabited

/-- A key as it is compared. -/
def normalKey (key : String) : String :=
  String.ofList (key.toList.map Char.toLower)

/-- Changes the value of a key; there is none before if the key is new. -/
def modifyField (key : String) (f : Option Setting → Setting) :
    List (String × Setting) → List (String × Setting)
  | [] => [(key, f none)]
  | (k, v) :: rest => if k = key then (k, f (some v)) :: rest else (k, v) :: modifyField key f rest

/-- The fields of a table; any other value has none. -/
def Setting.fields : Setting → List (String × Setting)
  | table fields => fields
  | _ => []

/-- The items of a list; any other value has none. -/
def Setting.items : Setting → List Setting
  | list items => items
  | _ => []

mutual

/-- A TOML value as a setting. -/
def ofToml : Toml.Value → Setting
  | .bool b => .bool b
  | .int n => .int n
  | .fraction x => .fraction x
  | .text s => .text s
  | .array items => .list (ofTomlItems items)
  | .table fields => .table (ofTomlFields fields)

/-- TOML values as settings. -/
def ofTomlItems : List Toml.Value → List Setting
  | [] => []
  | v :: rest => ofToml v :: ofTomlItems rest

/-- The fields of a TOML table as settings. -/
def ofTomlFields : List (String × Toml.Value) → List (String × Setting)
  | [] => []
  | (key, v) :: rest => (key, ofToml v) :: ofTomlFields rest

end

mutual

/-- Puts a value in the place of a key, over the value that is there. A table without fields changes
nothing. -/
def merged (old : Option Setting) : Setting → Setting
  | .table fields =>
    let base := old.getD (.table [])
    if fields.isEmpty then base else .table (mergedFields base.fields fields)
  | v => v

/-- Puts fields over others. -/
def mergedFields (base : List (String × Setting)) :
    List (String × Setting) → List (String × Setting)
  | [] => base
  | (key, v) :: rest =>
    mergedFields (modifyField (normalKey key) (fun old => merged old v) base) rest

end

/-! ### Paths -/

/-- A step of a path. -/
inductive Step where
  | key (name : String)
  /-- An item of a list; a negative index counts from its end. -/
  | index (i : Int)
deriving Repr, DecidableEq

/-- Whether `c` can stand in a key of a path. -/
def isKeyChar (c : Char) : Bool :=
  c.isAlphanum || c == ' ' || c == '_' || c == '-'

/-- The key at the start of a text, and the text behind it. -/
def key? (cs : List Char) : Option (Step × List Char) :=
  match cs.takeWhile isKeyChar with
  | [] => none
  | name => some (.key (normalKey (String.ofList name)), cs.drop name.length)

/-- A text without the spaces and tabs around it. -/
def trimmed (cs : List Char) : List Char :=
  let isGap (c : Char) : Bool := c == ' ' || c == '\t'
  ((cs.dropWhile isGap).reverse.dropWhile isGap).reverse

/-- The index that stands between brackets. -/
def index? (cs : List Char) : Option Int := do
  let i : Int ← match trimmed cs with
    | '-' :: digits => (Text.natOfChars? digits).map fun n => -(n : Int)
    | digits => (Text.natOfChars? digits).map fun n => (n : Int)
  if Text.fitsWord i then some i else none

/-- The steps behind the first key of a path; there are at most as many as characters. -/
def steps? : Nat → List Char → Option (List Step)
  | _, [] => some []
  | limit + 1, '.' :: rest => do
    let (step, rest) ← key? rest
    return step :: (← steps? limit rest)
  | limit + 1, '[' :: rest => do
    let number := rest.takeWhile (· ≠ ']')
    let i ← index? number
    match rest.drop number.length with
    | ']' :: rest => return .index i :: (← steps? limit rest)
    | _ => none
  | _, _ => none

/-- The steps of a path. -/
def path? (s : String) : Option (List Step) := do
  let (first, rest) ← key? s.toList
  return first :: (← steps? rest.length rest)

/-- The bound of the lengths of lists. -/
def lengthLimit : Nat :=
  4294967296

/-- The place of an item in a list of a length, or behind it. -/
def place? (i : Int) (length : Nat) : Option Nat :=
  if i < 0 then if i.natAbs ≤ length then some (length - i.natAbs) else none
  else if i.toNat < lengthLimit then some i.toNat
  else none

/-- Sets an item of a list; the items in front of a new one are missing. -/
def setItem (v : Setting) (n : Nat) (items : List Setting) : List Setting :=
  if n < items.length then items.set n v
  else items ++ List.replicate (n - items.length) .missing ++ [v]

/-- Puts a value at the end of a path: over what a key stands for, and in place of an item. There is
no result if an index lies outside of its list. -/
def put? (v : Setting) : List Step → Setting → Option Setting
  | [], _ => some v
  | [.key name], base => some (.table (modifyField name (fun old => merged old v) base.fields))
  | .key name :: rest, base => do
    let inner ← put? v rest ((base.fields.lookup name).getD .missing)
    return .table (modifyField name (fun _ => inner) base.fields)
  | .index i :: rest, base => do
    let n ← place? i base.items.length
    let inner ← put? v rest (base.items.getD n .missing)
    return .list (setItem inner n base.items)

/-- The steps that a key of a document stands for: it is a path where it can be read as such. -/
def stepsOfKey (key : String) : List Step :=
  (path? key).getD [.key (normalKey key)]

/-- Puts the table of a document over other settings. -/
def putAll? (base : Setting) (fields : List (String × Setting)) : Option Setting :=
  fields.foldlM (fun base (key, v) => put? v (stepsOfKey key) base) base

end TriggerScript.Settings
