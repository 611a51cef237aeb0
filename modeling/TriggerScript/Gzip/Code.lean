import TriggerScript.Gzip.Bits

/-!
# Codes of different lengths

A code stands for a symbol and is written with its most significant bit first. The codes of all
symbols follow from their lengths: shorter codes come before longer ones, codes of the same length
are in the order of their symbols, and each one is the successor of the one before.
-/

namespace TriggerScript.Gzip

/-- How many bits a code has at most. -/
def longestCode : Nat :=
  15

/-- The codes of some symbols. -/
structure Code where
  /-- How many codes of a length there are, from the length one on. -/
  counts : List Nat
  /-- The symbols in the order of their codes. -/
  symbols : Array Nat
deriving Repr, DecidableEq

namespace Code

/-- The codes whose lengths are given for the symbols from zero on; a symbol with the length zero has
no code. -/
def ofLengths (lengths : List Nat) : Code where
  counts := (List.range longestCode).map fun i => lengths.count (i + 1)
  symbols := ((List.range longestCode).flatMap fun i =>
    (lengths.zipIdx.filter fun entry => entry.1 = i + 1).map fun entry => entry.2).toArray

/-- Whether every text of bits starts with a code. -/
def isComplete (c : Code) : Bool :=
  c.counts.foldl (fun n count => 2 * n + count) 0 = Nat.pow 2 longestCode

/-- Whether the codes can be told apart and are not fewer than their lengths allow. A single code may
be of any length. -/
def isUsable (c : Code) : Bool :=
  c.isComplete || c.symbols.size ≤ 1

/-- Reads the rest of a code. `code` is what has been read of it, `first` the first code of this
length, and `index` the number of shorter codes. -/
def symbolFrom (symbols : Array Nat) : List Nat → Nat → Nat → Nat → ReadBits Nat
  | [], _, _, _ => ReadBits.malformed
  | count :: counts, code, first, index => do
    let code := 2 * code + (if ← ReadBits.bit then 1 else 0)
    if code < first + count then
      match symbols[index + (code - first)]? with
      | some symbol => return symbol
      | none => ReadBits.malformed
    else symbolFrom symbols counts code (2 * (first + count)) (index + count)

/-- Reads a code; yields its symbol. -/
def symbol (c : Code) : ReadBits Nat :=
  symbolFrom c.symbols c.counts 0 0 0

end Code

end TriggerScript.Gzip
