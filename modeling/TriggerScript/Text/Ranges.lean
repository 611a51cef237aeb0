/-!
# Sets of characters given by code point ranges

A set of characters is stored as a list of inclusive code point ranges in increasing order, so
that a look-up can stop at the first range that starts beyond the character.
-/

namespace TriggerScript.Text

/-- A set of code points: inclusive ranges, disjoint and in increasing order. -/
abbrev Ranges := List (Nat × Nat)

/-- Whether the code point `n` lies in one of the ranges. The search stops at the first range
that starts beyond `n`, which is right because the ranges are in increasing order. -/
def Ranges.contains : Ranges → Nat → Bool
  | [], _ => false
  | (lo, hi) :: rest, n => if n < lo then false else n ≤ hi || Ranges.contains rest n

end TriggerScript.Text
