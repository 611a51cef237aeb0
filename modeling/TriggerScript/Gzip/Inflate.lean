import TriggerScript.Gzip.Code

/-!
# Compressed blocks

Compressed data is a sequence of blocks. A block is stored as it is, or it is a sequence of codes for
single bytes and for copies of earlier data. The codes are fixed, or their lengths stand at the start
of the block and are themselves written in codes.

The main definition is `Gzip.inflate`.
-/

namespace TriggerScript.Gzip

/-! ### Codes -/

/-- The lengths of copies: the least one for a symbol, and the number of bits that are added. -/
def lengthTable : List (Nat × Nat) :=
  [(3, 0), (4, 0), (5, 0), (6, 0), (7, 0), (8, 0), (9, 0), (10, 0), (11, 1), (13, 1), (15, 1),
   (17, 1), (19, 2), (23, 2), (27, 2), (31, 2), (35, 3), (43, 3), (51, 3), (59, 3), (67, 4), (83, 4),
   (99, 4), (115, 4), (131, 5), (163, 5), (195, 5), (227, 5), (258, 0)]

/-- The distances of copies: the least one for a symbol, and the number of bits that are added. -/
def distanceTable : List (Nat × Nat) :=
  [(1, 0), (2, 0), (3, 0), (4, 0), (5, 1), (7, 1), (9, 2), (13, 2), (17, 3), (25, 3), (33, 4),
   (49, 4), (65, 5), (97, 5), (129, 6), (193, 6), (257, 7), (385, 7), (513, 8), (769, 8), (1025, 9),
   (1537, 9), (2049, 10), (3073, 10), (4097, 11), (6145, 11), (8193, 12), (12289, 12), (16385, 13),
   (24577, 13)]

/-- The number that a symbol of a table and the bits behind it stand for. -/
def tabled (table : List (Nat × Nat)) (symbol : Nat) : ReadBits Nat :=
  match table[symbol]? with
  | some (least, count) => do return least + (← ReadBits.number count)
  | none => ReadBits.malformed

/-- The symbol for the end of a block. Smaller ones stand for bytes, greater ones for the lengths of
copies. -/
def endSymbol : Nat :=
  256

/-- The codes of a block: those for bytes and lengths, and those for distances. -/
structure BlockCodes where
  literals : Code
  distances : Code
deriving Repr, DecidableEq

/-- The codes of a block that does not bring its own. -/
def fixedCodes : BlockCodes where
  literals := .ofLengths (List.replicate 144 8 ++ List.replicate 112 9 ++ List.replicate 24 7 ++
    List.replicate 8 8)
  distances := .ofLengths (List.replicate 32 5)

/-- The symbols for lengths of codes in the order in which the lengths of their own codes are
given. -/
def lengthOrder : List Nat :=
  [16, 17, 18, 0, 8, 7, 9, 6, 10, 5, 11, 4, 12, 3, 13, 2, 14, 1, 15]

/-- How often a length is repeated by a symbol, and the length. -/
def repeated (symbol : Nat) (last : Option Nat) : ReadBits (Nat × Nat) := do
  match symbol, last with
  | 16, some length => return (3 + (← ReadBits.number 2), length)
  | 16, none => ReadBits.malformed
  | 17, _ => return (3 + (← ReadBits.number 3), 0)
  | _, _ => return (11 + (← ReadBits.number 7), 0)

/-- The lengths of `left` more codes. Those in front of them are given with the last one first. -/
def codeLengths (code : Code) : (steps left : Nat) → List Nat → ReadBits (List Nat)
  | _, 0, lengths => return lengths.reverse
  | 0, _, _ => ReadBits.malformed
  | steps + 1, left, lengths => do
    let symbol ← code.symbol
    if symbol < 16 then codeLengths code steps (left - 1) (symbol :: lengths)
    else
      let (count, length) ← repeated symbol lengths.head?
      if count ≤ left then
        codeLengths code steps (left - count) (List.replicate count length ++ lengths)
      else ReadBits.malformed

/-- Some numbers of three bits. -/
def shortNumbers : Nat → ReadBits (List Nat)
  | 0 => return []
  | count + 1 => do
    let n ← ReadBits.number 3
    let rest ← shortNumbers count
    return n :: rest

/-- The codes at the start of a block. -/
def blockCodes : ReadBits BlockCodes := do
  let literals := 257 + (← ReadBits.number 5)
  let distances := 1 + (← ReadBits.number 5)
  let count := 4 + (← ReadBits.number 4)
  if literals > 286 ∨ distances > 30 then ReadBits.malformed
  else
    let lengths := lengthOrder.zip (← shortNumbers count)
    let code := Code.ofLengths ((List.range 19).map fun symbol => (lengths.lookup symbol).getD 0)
    if code.isComplete then
      let lengths ← codeLengths code (literals + distances) (literals + distances) []
      let codes : BlockCodes :=
        ⟨.ofLengths (lengths.take literals), .ofLengths (lengths.drop literals)⟩
      if codes.literals.isUsable ∧ codes.distances.isUsable then return codes
      else ReadBits.malformed
    else ReadBits.malformed

/-! ### Blocks -/

/-- Data with a copy of what stands at a distance from its end. The copy can overlap itself. -/
def copied (distance : Nat) : Nat → Array UInt8 → Array UInt8
  | 0, data => data
  | count + 1, data => copied distance count (data.push (data.getD (data.size - distance) 0))

/-- Data with that of a sequence of codes behind it; there are at most `steps` of them. -/
def decoded (codes : BlockCodes) : Nat → Array UInt8 → ReadBits (Array UInt8)
  | 0, _ => ReadBits.malformed
  | steps + 1, data => do
    let symbol ← codes.literals.symbol
    if symbol < endSymbol then decoded codes steps (data.push (UInt8.ofNat symbol))
    else if symbol = endSymbol then return data
    else
      let length ← tabled lengthTable (symbol - endSymbol - 1)
      let distance ← tabled distanceTable (← codes.distances.symbol)
      if distance ≤ data.size then decoded codes steps (copied distance length data)
      else ReadBits.malformed

/-- The number that bytes stand for, the least significant one first. -/
def ofLowBytes : List UInt8 → Nat
  | [] => 0
  | b :: rest => b.toNat + 256 * ofLowBytes rest

/-- The number of bytes that a stored block can hold. -/
def blockSize : Nat :=
  65535

/-- Data with that of a stored block behind it: its length, the complement of that, and its bytes. -/
def stored (data : Array UInt8) : ReadBits (Array UInt8) := do
  let length := ofLowBytes (← ReadBits.bytes 2)
  let complement := ofLowBytes (← ReadBits.bytes 2)
  if length + complement = blockSize then return data ++ (← ReadBits.bytes length)
  else ReadBits.malformed

/-- Data with that of a block behind it. -/
def inflateBlock (kind : Nat) (data : Array UInt8) : ReadBits (Array UInt8) := do
  match kind with
  | 0 => stored data
  | 1 => decoded fixedCodes (← get).length data
  | 2 =>
    let codes ← blockCodes
    decoded codes (← get).length data
  | _ => ReadBits.malformed

/-- Data with that of at most `steps` blocks behind it. -/
def inflateBlocks : Nat → Array UInt8 → ReadBits (Array UInt8)
  | 0, _ => ReadBits.malformed
  | steps + 1, data => do
    let isLast ← ReadBits.bit
    let kind ← ReadBits.number 2
    let data ← inflateBlock kind data
    if isLast then return data else inflateBlocks steps data

/-- The data of the blocks at the start of some bytes, and the bytes behind them. -/
def inflate (bytes : List UInt8) : Option (List UInt8 × List UInt8) :=
  (inflateBlocks (8 * bytes.length) #[] ⟨[], bytes⟩).map fun (data, bits) =>
    (data.toList, bits.bytes)

end TriggerScript.Gzip
