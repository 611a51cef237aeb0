import TriggerScript.Binary64

/-!
# TOML values

The values of TOML documents. Dates and times are kept as texts.
-/

namespace TriggerScript.Toml

/-- A TOML value. -/
inductive Value where
  | bool (b : Bool)
  | int (n : Int)
  /-- A number that is not written as an integer. -/
  | fraction (x : Binary64)
  /-- A string, a date or a time. -/
  | text (s : String)
  | array (items : List Value)
  | table (fields : List (String × Value))
deriving Repr

end TriggerScript.Toml
