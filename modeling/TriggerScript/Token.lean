import TriggerScript.Text.Decimal
import TriggerScript.Text.Quoted

/-!
# Tokens

A token is a named piece of a source text together with the value it stands for and the byte
offset at which it begins.
-/

namespace TriggerScript

/-- What a token stands for. -/
inductive TokenValue where
  /-- Nothing: the marks at the two ends of a token stream. -/
  | none
  /-- A text. -/
  | text (s : String)
  /-- An integer. -/
  | int (n : Int)
  /-- A truth value. -/
  | bool (b : Bool)
deriving Repr, DecidableEq, Inhabited

/-- A token of a source text. -/
structure Token where
  /-- The keyword itself, or the name of the pattern that matched. -/
  name : String
  /-- The text of the token as it stands in the source. -/
  raw : String
  /-- What the token stands for. -/
  value : TokenValue
  /-- The byte offset of the token in the source. -/
  offset : Nat
deriving Repr, DecidableEq, Inhabited

/-- How a message shows the value of a token. -/
def TokenValue.describe : TokenValue → String
  | none => "None"
  | text s => "Text(" ++ Text.quoted s ++ ")"
  | int n => "Int(" ++ Text.intText n ++ ")"
  | bool b => if b then "Bool(true)" else "Bool(false)"

namespace Token

/-- The name of the mark in front of a token stream. -/
def beginName : String :=
  "%begin"

/-- The name of the mark behind a token stream. -/
def endName : String :=
  "%end"

/-- A mark at one end of a token stream. -/
def mark (name : String) (offset : Nat) : Token :=
  ⟨name, "", .none, offset⟩

/-- A token as it is shown to a reader: its name, and its text where that says more. -/
def display (t : Token) : String :=
  if t.raw = "" ∨ t.raw = t.name then "<" ++ t.name ++ ">"
  else "<" ++ t.name ++ ":" ++ t.raw ++ ">"

/-- A token stream between its two marks; `length` is the number of bytes of the source. -/
def enclose (tokens : List Token) (length : Nat) : List Token :=
  mark beginName 0 :: tokens ++ [mark endName length]

end Token

end TriggerScript
