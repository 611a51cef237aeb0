import TriggerScript.Allocation
import TriggerScript.Text.Sorted

/-!
# Id counters

Each library has a counter for its ids. It starts at a fixed base, and the next id is one more than
the counter. Counters are words of 32 bits; to count beyond their range is an error.
-/

namespace TriggerScript

/-- The counters of the libraries. -/
@[ext]
structure Counters where
  entries : List (String × UInt32)
  /-- The libraries stand in order, each of them once. -/
  sorted : (entries.map Prod.fst).Pairwise (· < ·)
deriving Repr, DecidableEq

/-- A counter would leave its range. -/
structure CounterFault where
deriving Repr, DecidableEq

namespace Counters

/-- No counters. -/
def empty : Counters :=
  ⟨[], List.Pairwise.nil⟩

/-- Where counters start. -/
def base : UInt32 :=
  0x10000000

/-- The counter of a library that has one. -/
def get? (c : Counters) (library : String) : Option UInt32 :=
  c.entries.lookup library

/-- Sets the counter of a library in sorted entries. -/
def setEntry (library : String) (n : UInt32) : List (String × UInt32) → List (String × UInt32)
  | [] => [(library, n)]
  | (l, m) :: rest =>
    if library < l then (library, n) :: (l, m) :: rest
    else if library = l then (l, n) :: rest
    else (l, m) :: setEntry library n rest

theorem keys_setEntry {library : String} {n : UInt32} {entries : List (String × UInt32)} :
    (setEntry library n entries).map Prod.fst = Text.insertSorted library (entries.map Prod.fst) := by
  induction entries with
  | nil => rfl
  | cons entry entries ih =>
    rw [setEntry, List.map_cons, Text.insertSorted]
    split
    · rfl
    · split
      · rfl
      · rw [List.map_cons, ih]

/-- Sets the counter of a library. -/
def set (c : Counters) (library : String) (n : UInt32) : Counters where
  entries := setEntry library n c.entries
  sorted := by
    rw [keys_setEntry]
    exact Text.sorted_insertSorted c.sorted

/-- The counters of a list of libraries; a later entry replaces an earlier one. -/
def ofList (entries : List (String × UInt32)) : Counters :=
  entries.foldl (fun c entry => c.set entry.1 entry.2) empty

/-- The next id of a library. -/
def next (c : Counters) (library : String) : Except CounterFault (ElementId × Counters) :=
  let n := (c.get? library).getD base
  if n.toNat + 1 < UInt32.size then .ok (⟨n + 1⟩, c.set library (n + 1)) else .error {}

/-- The id that a library used last. -/
def last? (c : Counters) (library : String) : Option ElementId :=
  (c.get? library).map ElementId.mk

/-- The number of ids handed out by the counters of a list. -/
def totalOf (entries : List (String × UInt32)) : Nat :=
  entries.foldr (fun entry n => (entry.2.toNat - base.toNat) + n) 0

/-- The number of ids handed out in all libraries together. -/
def total (c : Counters) : Nat :=
  totalOf c.entries

/-- The number of ids handed out, as a word; a counter below the base is an error, and so is a
number beyond the range of a word. -/
def issued (c : Counters) : Except CounterFault Nat :=
  if c.entries.all (fun entry => base ≤ entry.2) && c.total < UInt32.size then .ok c.total
  else .error {}

end Counters

end TriggerScript
