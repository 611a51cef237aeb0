import TriggerScript.Text.Decimal

/-!
# Numbers with a binary mantissa

The numbers of the binary format of 64 bits: a mantissa of 53 bits, a power of two, and a sign. A
decimal is read as the number next to it; of two numbers that are equally near, the one with the even
mantissa is taken. A number is written with the fewest digits that are read as this number again, in
positional notation.

The main definitions are `Binary64.ofDecimal` and `Binary64.text`. All arithmetic is exact.
-/

namespace TriggerScript

/-- A number of the binary format of 64 bits. -/
inductive Binary64 where
  /-- A mantissa below `2 ^ 53`, to be multiplied by a power of two. The mantissa is at least `2 ^ 52`
  unless the exponent is the least one. -/
  | finite (negative : Bool) (mantissa : Nat) (exponent : Int)
  | infinite (negative : Bool)
  | notANumber
deriving Repr, DecidableEq

namespace Binary64

/-- The quotient of two numbers, rounded to the nearest integer; a half goes to the even one. -/
def roundedQuotient (n d : Nat) : Nat :=
  if 2 * (n % d) < d ∨ (2 * (n % d) = d ∧ n / d % 2 = 0) then n / d else n / d + 1

/-- A numerator and a denominator of a number times a power. -/
def scaled (n base : Nat) (exponent : Int) : Nat × Nat :=
  if exponent < 0 then (n, Nat.pow base exponent.natAbs) else (n * Nat.pow base exponent.toNat, 1)

/-- The least exponent of a number. -/
def leastExponent : Int :=
  -1074

/-- The greatest exponent of a number. -/
def greatestExponent : Int :=
  971

/-- The bound of the mantissas. -/
def mantissaBound : Nat :=
  Nat.pow 2 53

/-- The exponent of the numbers around a positive quotient: the mantissa is to have 53 bits, or the
exponent is the least one. -/
def exponentOf (n d : Nat) : Int :=
  let guess : Int := n.log2 - d.log2 - 52
  let (above, below) := scaled n 2 (-guess)
  max leastExponent (if 2 * above < mantissaBound * (below * d) then guess - 1 else guess)

/-- The number next to a positive quotient. -/
def ofQuotient (negative : Bool) (n d : Nat) : Binary64 :=
  let exponent := exponentOf n d
  let (above, below) := scaled n 2 (-exponent)
  let mantissa := roundedQuotient above (below * d)
  let (mantissa, exponent) :=
    if mantissa = mantissaBound then (mantissa / 2, exponent + 1) else (mantissa, exponent)
  if exponent ≤ greatestExponent then finite negative mantissa exponent else infinite negative

/-- The number next to a decimal: a mantissa times a power of ten. Decimals far outside of the range
of the numbers are not computed. -/
def ofDecimal (negative : Bool) (mantissa : Nat) (exponent : Int) : Binary64 :=
  let places := exponent + (Text.natChars mantissa).length
  if mantissa = 0 ∨ places < -330 then finite negative 0 leastExponent
  else if 330 < places then infinite negative
  else
    let (n, d) := scaled mantissa 10 exponent
    ofQuotient negative n d

/-- Whether a number is zero. -/
def isZero : Binary64 → Bool
  | finite _ mantissa _ => mantissa = 0
  | _ => false

/-! ### The text of a number -/

/-- A decimal: digits and a power of ten. -/
structure Decimal where
  digits : Nat
  exponent : Int
deriving Repr, DecidableEq

/-- The decimal next to a number among the multiples of a power of ten, if it is read as the number;
of two that are equally near the greater one. -/
def decimalAt? (mantissa : Nat) (exponent places : Int) : Option Decimal :=
  let (n, d) := scaled mantissa 2 exponent
  let (above, below) := scaled n 10 (-places)
  let low := above / (below * d)
  let isRead (digits : Nat) : Bool :=
    ofDecimal false digits places = finite false mantissa exponent
  if isRead low ∧ (2 * (above % (below * d)) < below * d ∨ !isRead (low + 1)) then
    some ⟨low, places⟩
  else if isRead (low + 1) then some ⟨low + 1, places⟩
  else none

/-- The shortest decimal that is read as a positive number. Twenty places are more than it takes
to tell all numbers apart; the exact decimal would be the answer otherwise. -/
def shortest (mantissa : Nat) (exponent : Int) : Decimal :=
  let (n, d) := scaled mantissa 2 exponent
  let places : Int := (Text.natChars n).length - (Text.natChars d).length
  match (List.range 20).findSome? fun (i : Nat) =>
      decimalAt? mantissa exponent (places - i) with
  | some decimal => decimal
  | none =>
    if exponent < 0 then ⟨mantissa * Nat.pow 5 exponent.natAbs, exponent⟩ else ⟨n, 0⟩

/-- Digits with a point in front of the last `places` of them. -/
def pointed (digits : List Char) (places : Nat) : List Char :=
  let padded := List.replicate (places + 1 - digits.length) '0' ++ digits
  let whole := padded.take (padded.length - places)
  match ((padded.drop (padded.length - places)).reverse.dropWhile (· = '0')).reverse with
  | [] => whole
  | decimals => whole ++ '.' :: decimals

/-- The digits of a decimal: no exponent, and no zeros behind the last place. -/
def Decimal.chars (x : Decimal) : List Char :=
  if x.exponent < 0 then pointed (Text.natChars x.digits) x.exponent.natAbs
  else Text.natChars x.digits ++ List.replicate x.exponent.toNat '0'

/-- The text of a number. -/
def text : Binary64 → String
  | finite negative mantissa exponent =>
    String.ofList ((if negative then ['-'] else []) ++
      if mantissa = 0 then ['0'] else (shortest mantissa exponent).chars)
  | infinite negative => if negative then "-inf" else "inf"
  | notANumber => "NaN"

end Binary64

end TriggerScript
