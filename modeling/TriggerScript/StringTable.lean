import TriggerScript.Event

/-!
# String tables

A string table gives texts to keys. It keeps its rows in the order in which their keys were first
written, and each key has the text that was written last. Writing a key again is reported.

A table is stored as a text with one line `key=text` for each row.
-/

namespace TriggerScript

/-- A table of texts by key. -/
@[ext]
structure StringTable where
  rows : List (String × String)
  /-- No key has two rows. -/
  distinct : (rows.map Prod.fst).Nodup
deriving Repr, DecidableEq

namespace StringTable

/-- A table without rows. -/
def empty : StringTable :=
  ⟨[], List.nodup_nil⟩

/-- The text of a key. -/
def get? (t : StringTable) (key : String) : Option String :=
  t.rows.lookup key

/-- The number of rows. -/
def size (t : StringTable) : Nat :=
  t.rows.length

/-- Rows with a new text for a key: in the place of the key if it has one, else at the end. -/
def putRow (key value : String) : List (String × String) → List (String × String)
  | [] => [(key, value)]
  | (k, v) :: rest => if k = key then (k, value) :: rest else (k, v) :: putRow key value rest

section PutRow

variable {key value : String} {rows : List (String × String)}

theorem keys_putRow_of_mem (h : key ∈ rows.map Prod.fst) :
    (putRow key value rows).map Prod.fst = rows.map Prod.fst := by
  induction rows with
  | nil => cases h
  | cons row rows ih =>
    rw [putRow]
    split
    · rfl
    · rename_i heq
      have htail : key ∈ rows.map Prod.fst := (List.mem_cons.1 h).resolve_left (Ne.symm heq)
      rw [List.map_cons, List.map_cons, ih htail]

/-- A new key gets a row at the end. -/
theorem putRow_of_not_mem (h : key ∉ rows.map Prod.fst) :
    putRow key value rows = rows ++ [(key, value)] := by
  induction rows with
  | nil => rfl
  | cons row rows ih =>
    rw [List.map_cons, List.mem_cons, not_or] at h
    rw [putRow, if_neg (Ne.symm h.1), ih h.2, List.cons_append]

theorem distinct_putRow (h : (rows.map Prod.fst).Nodup) :
    ((putRow key value rows).map Prod.fst).Nodup := by
  by_cases hkey : key ∈ rows.map Prod.fst
  -- a known key keeps its place, a new one stands behind all others
  · rw [keys_putRow_of_mem hkey]
    exact h
  · rw [putRow_of_not_mem hkey, List.map_append, List.nodup_append]
    refine ⟨h, List.pairwise_singleton .., ?_⟩
    rintro k hk _ hnew rfl
    rw [List.map_singleton, List.mem_singleton] at hnew
    rw [hnew] at hk
    exact hkey hk

end PutRow

/-- Writes the text of a key. -/
def put (t : StringTable) (key value : String) : StringTable :=
  ⟨putRow key value t.rows, distinct_putRow t.distinct⟩

/-- What is reported when the text of a key is written. -/
def putEvents (t : StringTable) (key value : String) : List Event :=
  match t.get? key with
  | none => []
  | some previous =>
    [⟨.warn, "string table key written twice, keeping the last value",
      [("key", key), ("previous", previous), ("value", value)]⟩]

/-- Writes rows one after the other. -/
def putAll (t : StringTable) (rows : List (String × String)) : StringTable :=
  rows.foldl (fun t row => t.put row.1 row.2) t

/-- What is reported when rows are written one after the other. -/
def putAllEvents : StringTable → List (String × String) → List Event
  | _, [] => []
  | t, (key, value) :: rest => t.putEvents key value ++ (t.put key value).putAllEvents rest

/-- The table of a list of rows. -/
def ofRows (rows : List (String × String)) : StringTable :=
  empty.putAll rows

/-- Writes the rows of another table. -/
def extend (t other : StringTable) : StringTable :=
  t.putAll other.rows

/-- The line of a row. -/
def rowChars (row : String × String) : List Char :=
  row.1.toList ++ '=' :: row.2.toList

/-- The lines of rows, with a line feed between two of them. -/
def rowsChars : List (String × String) → List Char
  | [] => []
  | [row] => rowChars row
  | row :: rest => rowChars row ++ '\n' :: rowsChars rest

/-- The text of a table. -/
def render (t : StringTable) : String :=
  String.ofList (rowsChars t.rows)

/-- Whether a line ends at this character. -/
def isLineEnd (c : Char) : Bool :=
  c == '\r' || c == '\n'

/-- The lines of a text that are not empty; `line` is what has been read of the first one, the last
character first. -/
def linesFrom (line : List Char) : List Char → List (List Char)
  | [] => if line.isEmpty then [] else [line.reverse]
  | c :: rest =>
    if isLineEnd c then
      if line.isEmpty then linesFrom [] rest else line.reverse :: linesFrom [] rest
    else linesFrom (c :: line) rest

/-- The row of a line: the key stands in front of the first equals sign and is not empty. -/
def rowOfLine? (line : List Char) : Option (String × String) :=
  match line.takeWhile (· ≠ '='), line.dropWhile (· ≠ '=') with
  | [], _ => none
  | _, [] => none
  | key, _ :: value => some (String.ofList key, String.ofList value)

/-- The lines of a text that are not empty. -/
def lines (s : String) : List (List Char) :=
  linesFrom [] s.toList

/-- The table that a text stores; lines without a key are left out. -/
def ofText (s : String) : StringTable :=
  ofRows ((lines s).filterMap rowOfLine?)

/-- What is reported when the lines of a text are written into a table. -/
def linesEvents : StringTable → List (List Char) → List Event
  | _, [] => []
  | t, line :: rest =>
    match rowOfLine? line with
    | some (key, value) => t.putEvents key value ++ (t.put key value).linesEvents rest
    | none =>
      ⟨.warn, "skipping string table line without a key", [("line", String.ofList line)]⟩ ::
        t.linesEvents rest

/-- What is reported when a text is read. -/
def ofTextEvents (s : String) : List Event :=
  empty.linesEvents (lines s)

end StringTable

end TriggerScript
