import TriggerScript.Toml

/-!
# Tables of TOML documents

A document is written in sections: a header names a table, and the lines behind it give values to
keys of that table. Keys can be paths. The tables on the way come into being by being named, and a
table that a header or a path has defined is closed for the other one of the two.

The main definition is `Toml.assemble?`.
-/

namespace TriggerScript.Toml

/-- What a key stands for while a document is being read. -/
inductive Item where
  | value (v : Value)
  /-- A table; `named` if it has only been named on the way to another one, and `dotted` if that was
  in the path of a key. -/
  | table (named dotted : Bool) (fields : List (String × Item))
  /-- A list of tables, the last one first. -/
  | tables (last : List (String × Item)) (earlier : List (List (String × Item)))

/-- The items of a table. -/
abbrev Items := List (String × Item)

/-- Puts an item in the place of a key, or at the end. -/
def setItem (key : String) (item : Item) : Items → Items
  | [] => [(key, item)]
  | (k, i) :: rest => if k = key then (k, item) :: rest else (k, i) :: setItem key item rest

/-- Gives a value to a path of keys inside a table; `open_` if the last key may be in the table
itself. -/
def insert? (open_ : Bool) : List String → Value → Items → Option Items
  | [], _, _ => none
  | [key], v, items =>
    if open_ ∧ (items.lookup key).isNone then some (items ++ [(key, .value v)]) else none
  | key :: rest, v, items =>
    match items.lookup key with
    | none => (insert? true rest v []).map fun sub => items ++ [(key, .table true true sub)]
    | some (.table true dotted fields) =>
      (insert? dotted rest v fields).map fun sub => setItem key (.table true dotted sub) items
    | some (.tables last earlier) =>
      (insert? false rest v last).map fun sub => setItem key (.tables sub earlier) items
    | some _ => none

/-- Gives values to paths of keys, one after the other. -/
def insertAll? : List (List String × Value) → Items → Option Items
  | [], items => some items
  | (path, v) :: rest, items => (insert? true path v items).bind (insertAll? rest)

/-- Changes what a path of keys leads to. -/
def place? (f : Option Item → Option Item) : List String → Items → Option Items
  | [], _ => none
  | [key], items => (f (items.lookup key)).map fun item => setItem key item items
  | key :: rest, items =>
    match items.lookup key with
    | none => (place? f rest []).map fun sub => items ++ [(key, .table true false sub)]
    | some (.table named dotted fields) =>
      (place? f rest fields).map fun sub => setItem key (.table named dotted sub) items
    | some (.tables last earlier) =>
      (place? f rest last).map fun sub => setItem key (.tables sub earlier) items
    | some (.value _) => none

/-- A section: the path in its header, whether the header is that of a list of tables, and the values
of its keys. -/
structure Section where
  path : List String
  isList : Bool
  entries : List (List String × Value) := []

/-- The table of a section; it may have been named before. -/
def sectionTable? (entries : List (List String × Value)) : Option Item → Option Item
  | none => (insertAll? entries []).map (.table false false)
  | some (.table true false fields) => (insertAll? entries fields).map (.table false false)
  | some _ => none

/-- The list of tables with that of a section at its end. -/
def sectionTables? (entries : List (List String × Value)) : Option Item → Option Item
  | none => (insertAll? entries []).map fun items => .tables items []
  | some (.tables last earlier) =>
    (insertAll? entries []).map fun items => .tables items (last :: earlier)
  | some _ => none

/-- Adds a section to a document. -/
def addSection? (items : Items) (s : Section) : Option Items :=
  place? (if s.isList then sectionTables? s.entries else sectionTable? s.entries) s.path items

mutual

/-- The value that an item has become. -/
def Item.toValue : Item → Value
  | .value v => v
  | .table _ _ fields => .table (fieldValues fields)
  | .tables last earlier => .array (tableValues earlier [.table (fieldValues last)])

/-- The values of the items of a table. -/
def fieldValues : List (String × Item) → List (String × Value)
  | [] => []
  | (key, item) :: rest => (key, item.toValue) :: fieldValues rest

/-- The values of tables, the last one first, in front of others. -/
def tableValues : List (List (String × Item)) → List Value → List Value
  | [], others => others
  | fields :: earlier, others => tableValues earlier (.table (fieldValues fields) :: others)

end

/-- The table of a document, from the values in front of all headers and the sections. -/
def assemble? (entries : List (List String × Value)) (sections : List Section) :
    Option (List (String × Value)) := do
  let items ← insertAll? entries []
  return fieldValues (← sections.foldlM addSection? items)

/-- The fields of a table that is written as one value. -/
def inlineFields? (entries : List (List String × Value)) : Option (List (String × Value)) :=
  (insertAll? entries []).map fieldValues

end TriggerScript.Toml
