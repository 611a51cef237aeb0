import TriggerScript.Text.Decimal
import TriggerScript.Text.Upper
import TriggerScript.Token

/-!
# From the text of a token to its value

A reading turns the text of a token into its value or rejects it. The four readings of the two
languages strip quotes, read an integer, read a truth value and turn a text to upper case.
-/

namespace TriggerScript

/-- Turns the text of a token into its value; `none` rejects the token. -/
abbrev Reading := String → Option TokenValue

namespace Reading

/-- The text itself. -/
def plain : Reading :=
  fun raw => some (.text raw)

/-- The text between the first quote and the last character, which must be a quote too. -/
def unquotedChars (raw : List Char) : Option (List Char) :=
  match raw.getLast? with
  | some '"' =>
    match raw.dropLast.dropWhile (· ≠ '"') with
    | _ :: inner => some inner
    | [] => none
  | _ => none

/-- The text between the first quote and the last character, which must be a quote too. -/
def stripQuotes : Reading :=
  fun raw => (unquotedChars raw.toList).map fun inner => .text (String.ofList inner)

/-- The integer denoted by ASCII digits with an optional sign. -/
def signed? : List Char → Option Int
  | '-' :: digits => (Text.natOfChars? digits).map fun n => -(n : Int)
  | '+' :: digits => (Text.natOfChars? digits).map fun n => (n : Int)
  | digits => (Text.natOfChars? digits).map fun n => (n : Int)

/-- The integer the text denotes, if it fits a signed word of 64 bits. -/
def int : Reading :=
  fun raw => ((signed? raw.toList).filter Text.fitsWord).map .int

/-- The truth value the text names. -/
def bool : Reading :=
  fun raw =>
    if raw = "true" then some (.bool true)
    else if raw = "false" then some (.bool false)
    else none

/-- The text in upper case. -/
def upperCase : Reading :=
  fun raw => some (.text (Text.upper raw))

end Reading

end TriggerScript
