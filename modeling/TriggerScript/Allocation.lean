import TriggerScript.Text.Decimal

/-!
# Ids and allocations

Every element of a document has an id of 32 bits that is unique in its library. The library and
the id together are the allocation of the element. The library `0` is the default: it is not
written down where an allocation is mentioned.
-/

namespace TriggerScript

/-- The id of an element within its library. -/
structure ElementId where
  val : UInt32
deriving Repr, DecidableEq, Inhabited

namespace ElementId

/-- The upper-case hexadecimal digit of a number below sixteen. -/
def hexDigit (n : Nat) : Char :=
  if n < 10 then Char.ofNat ('0'.toNat + n) else Char.ofNat ('A'.toNat + (n - 10))

/-- The lowest hexadecimal digits of a number, as many as are asked for. -/
def hexChars : Nat → Nat → List Char
  | 0, _ => []
  | count + 1, n => hexChars count (n / 16) ++ [hexDigit (n % 16)]

/-- The eight upper-case hexadecimal digits of an id. -/
def chars (id : ElementId) : List Char :=
  hexChars 8 id.val.toNat

/-- The text of an id: eight upper-case hexadecimal digits. -/
def text (id : ElementId) : String :=
  String.ofList id.chars

/-- The id that eight hexadecimal digits of either case denote. -/
def ofText? (s : String) : Option ElementId :=
  let digits := s.toList
  if digits.length = 8 ∧ digits.all Text.isHexDigit then
    some ⟨UInt32.ofNat (Text.numeral 16 Text.hexValue digits)⟩
  else none

/-- The error of a text that is no id. -/
def notAnId (s : String) : String :=
  "`" ++ s ++ "` is not an 8 digit hex id"

end ElementId

/-- The types of the elements of a document. -/
inductive ElementType where
  | trigger
  /-- A function or an action. -/
  | functionDef
  | variable
  | paramDef
  | preset
  /-- A member of a preset. -/
  | presetValue
  /-- A folder of a catalog. -/
  | category
  /-- A value that is handed to a parameter or a variable. -/
  | param
  /-- A call. -/
  | functionCall
deriving Repr, DecidableEq

/-- The name of a type of elements. -/
def ElementType.name : ElementType → String
  | .trigger => "Trigger"
  | .functionDef => "FunctionDef"
  | .variable => "Variable"
  | .paramDef => "ParamDef"
  | .preset => "Preset"
  | .presetValue => "PresetValue"
  | .category => "Category"
  | .param => "Param"
  | .functionCall => "FunctionCall"

/-- The name of the default library. -/
def defaultLibrary : String :=
  "0"

/-- The library of an element and its id there. -/
structure Allocation where
  library : String
  id : ElementId
deriving Repr, DecidableEq, Inhabited

namespace Allocation

/-- Whether the element is in the default library. -/
def isDefault (a : Allocation) : Bool :=
  a.library = defaultLibrary

/-- The library, unless it is the default one. -/
def library? (a : Allocation) : Option String :=
  if a.isDefault then none else some a.library

/-- What stands in front of the ids of a library in the keys of string tables. -/
def libraryKey (library : String) : String :=
  if library = defaultLibrary then "" else "lib_" ++ library ++ "_"

/-- The element in the keys of string tables. -/
def stringKey (a : Allocation) : String :=
  libraryKey a.library ++ a.id.text

end Allocation

end TriggerScript
