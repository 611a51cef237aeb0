import TriggerScript.Json

/-!
# Decoding JSON

A decoder takes a JSON value apart. It is told how many arrays and objects may still be opened on the
way to the innermost parts, and it refuses a value that is nested deeper. Parts that a decoder does
not look at can have any shape and depth.

A structure is an object with its fields in any order, or an array with its fields in the order of
their declaration. A field that can be empty may be left out of an object. One of several cases is an
object with the name of the case as its only key, or only the name where the case has no content.
-/

namespace TriggerScript.Json

/-- A way to take JSON values apart; the number says how many arrays and objects may be opened. -/
abbrev Decoder (α : Type) := Nat → Json → Option α

namespace Decoder

variable {α : Type}

/-- How many arrays and objects may be open at once. -/
def limit : Nat :=
  127

/-- A string. -/
def text : Decoder String
  | _, .str s => some s
  | _, _ => none

/-- A truth value. -/
def bool : Decoder Bool
  | _, .bool b => some b
  | _, _ => none

/-- An integer that fits a signed word of 64 bits. -/
def int : Decoder Int
  | _, .int n => if Text.fitsWord n then some n else none
  | _, _ => none

/-- An unsigned word of 32 bits. -/
def word : Decoder UInt32
  | _, .int n => if 0 ≤ n ∧ n < UInt32.size then some (UInt32.ofNat n.toNat) else none
  | _, _ => none

/-- A value or null. -/
def orNull (d : Decoder α) : Decoder (Option α)
  | _, .null => some none
  | n, v => (d n v).map some

/-- An array of values. -/
def list (d : Decoder α) : Decoder (List α)
  | n + 1, .arr items => items.mapM (d n)
  | _, _ => none

/-- An object with arbitrary keys. -/
def entries (d : Decoder α) : Decoder (List (String × α))
  | n + 1, .obj fields => fields.mapM fun (key, v) => (d n v).map fun a => (key, a)
  | _, _ => none

/-- The parts of a structure with these fields, in their order. -/
def parts? (names : List String) : Json → Option (List (Option Json))
  | .obj fields =>
    if names.all fun name => fields.countP (·.1 = name) ≤ 1 then
      some (names.map fun name => fields.lookup name)
    else none
  | .arr items => if items.length = names.length then some (items.map some) else none
  | _ => none

/-- A structure with these fields, put together from its parts. -/
def record (names : List String) (build : Nat → List (Option Json) → Option α) : Decoder α
  | n + 1, v => (parts? names v).bind (build n)
  | 0, _ => none

/-- A field that has to be there. -/
def required (d : Decoder α) (n : Nat) : Option Json → Option α
  | some v => d n v
  | none => none

/-- A field that may be left out or empty. -/
def optional (d : Decoder α) (n : Nat) : Option Json → Option (Option α)
  | some v => d.orNull n v
  | none => some none

/-- One of several cases, by its name and its content. -/
def cases (build : Nat → String → Option Json → Option α) : Decoder α
  | n, .str name => build n name none
  | n + 1, .obj [(name, content)] => build n name (some content)
  | _, _ => none

/-- The content of a case that has none. -/
def noContent : Option Json → Option Unit
  | none => some ()
  | some .null => some ()
  | _ => none

end Decoder

end TriggerScript.Json
