/-!
# Decimal numerals

How integers are written in messages, tables and documents, and how ASCII numerals are read.
-/

namespace TriggerScript.Text

/-- The decimal digits of a natural number. -/
def natChars (n : Nat) : List Char :=
  Nat.toDigits 10 n

/-- An integer in decimal digits, with a minus sign in front if it is negative. -/
def intChars (n : Int) : List Char :=
  if n < 0 then '-' :: natChars n.natAbs else natChars n.natAbs

/-- The text of a natural number. -/
def natText (n : Nat) : String :=
  String.ofList (natChars n)

/-- The text of an integer. -/
def intText (n : Int) : String :=
  String.ofList (intChars n)

/-- The number that digits denote in a base. -/
def numeral (base : Nat) (digit : Char → Nat) (digits : List Char) : Nat :=
  digits.foldl (fun n c => base * n + digit c) 0

/-- The value of an ASCII digit. -/
def digitValue (c : Char) : Nat :=
  c.toNat - '0'.toNat

/-- The number that a non-empty list of ASCII digits denotes. -/
def natOfChars? (digits : List Char) : Option Nat :=
  if digits ≠ [] ∧ digits.all Char.isDigit then some (numeral 10 digitValue digits) else none

/-- Whether `c` is an ASCII hexadecimal digit. -/
def isHexDigit (c : Char) : Bool :=
  c.isDigit || ('a' ≤ c && c ≤ 'f') || ('A' ≤ c && c ≤ 'F')

/-- The value of an ASCII hexadecimal digit. -/
def hexValue (c : Char) : Nat :=
  if c.isDigit then digitValue c
  else if 'a' ≤ c && c ≤ 'f' then c.toNat - 'a'.toNat + 10
  else c.toNat - 'A'.toNat + 10

/-- The number that a non-empty list of ASCII hexadecimal digits denotes. -/
def natOfHex? (digits : List Char) : Option Nat :=
  if digits ≠ [] ∧ digits.all isHexDigit then some (numeral 16 hexValue digits) else none

/-- Whether an integer fits a signed word of 64 bits. -/
def fitsWord (n : Int) : Bool :=
  -9223372036854775808 ≤ n && n ≤ 9223372036854775807

end TriggerScript.Text
