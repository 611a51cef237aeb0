/-!
# Reading bits

Data is read bit by bit, from the least significant bit of a byte to the most significant one. A
number is written with its least significant bit first. Whole bytes can be read as well; they start
at the next byte of which no bit has been read.
-/

namespace TriggerScript.Gzip

/-- What is left of some data. -/
structure Bits where
  /-- The bits that are left of the byte that is being read. -/
  pending : List Bool := []
  bytes : List UInt8
deriving Repr, DecidableEq

/-- The bits of a byte, the least significant one first. -/
def byteBits (b : UInt8) : List Bool :=
  (List.range 8).map b.toNat.testBit

/-- How many bits are left. -/
def Bits.length (bits : Bits) : Nat :=
  bits.pending.length + 8 * bits.bytes.length

/-- A computation that reads bits; it fails where the data ends too early or is malformed. -/
abbrev ReadBits := StateT Bits Option

namespace ReadBits

/-- The data is malformed. -/
def malformed {α : Type} : ReadBits α :=
  fun _ => none

/-- One bit. -/
def bit : ReadBits Bool
  | ⟨b :: pending, bytes⟩ => some (b, ⟨pending, bytes⟩)
  | ⟨[], byte :: bytes⟩ => some (byte.toNat.testBit 0, ⟨(byteBits byte).drop 1, bytes⟩)
  | ⟨[], []⟩ => none

/-- A number of some bits. -/
def number : Nat → ReadBits Nat
  | 0 => return 0
  | count + 1 => do
    let b ← bit
    let n ← number count
    return (if b then 1 else 0) + 2 * n

/-- Some whole bytes. -/
def bytes (count : Nat) : ReadBits (List UInt8)
  | ⟨_, bytes⟩ =>
    if bytes.length < count then none else some (bytes.take count, ⟨[], bytes.drop count⟩)

end ReadBits

end TriggerScript.Gzip
