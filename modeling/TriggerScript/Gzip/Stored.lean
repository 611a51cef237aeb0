import TriggerScript.Gzip

/-!
# Archives without compression

Of the archives of some data, one needs no compression: it has the data in blocks that are stored as they
are. When it is opened, the inflater only ever reads the bits in front of such a block, and then whole
bytes, so the data comes back (`Gzip.unpack?_store`).
-/

namespace TriggerScript.Gzip

/-- What an archive starts with: two bytes that mark the format, the method, no flags, no time, no
hints, and no system. -/
def header : List UInt8 :=
  [0x1F, 0x8B, 8, 0, 0, 0, 0, 0, 0, 0xFF]

/-- A stored block: whether it is the last one, its length, the complement of that, and the data. -/
def block (last : Bool) (data : List UInt8) : List UInt8 :=
  (if last then 1 else 0) :: lowBytes 2 data.length ++ lowBytes 2 (blockSize - data.length) ++ data

/-- The blocks of some data. -/
def blocks (data : List UInt8) : List UInt8 :=
  if data.length ≤ blockSize then block true data
  else block false (data.take blockSize) ++ blocks (data.drop blockSize)
termination_by data.length
decreasing_by
  simp only [List.length_drop, blockSize] at *
  omega

/-- The archive that stores some data as it is. -/
def store (data : List UInt8) : List UInt8 :=
  header ++ blocks data ++ lowBytes 4 (checksum data).toNat ++ lowBytes 4 data.length

/-! ## Numbers in bytes -/

@[simp] theorem length_lowBytes (count n : Nat) : (lowBytes count n).length = count := by
  induction count generalizing n with
  | zero => rfl
  | succ count ih => rw [lowBytes, List.length_cons, ih]

/-- The length of a block fits two bytes. -/
theorem ofLowBytes_lowBytes {n : Nat} (h : n ≤ blockSize) : ofLowBytes (lowBytes 2 n) = n := by
  have hlow : (UInt8.ofNat n).toNat = n % 256 := UInt8.toNat_ofNat
  have hhigh : (UInt8.ofNat (n / 256)).toNat = n / 256 % 256 := UInt8.toNat_ofNat
  rw [blockSize] at h
  simp only [lowBytes, ofLowBytes, hlow, hhigh]
  omega

/-! ## Blocks -/

variable {pending : List Bool} {chunk rest : List UInt8}

/-- Whole bytes that stand next are read, whatever is left of the byte in front of them. -/
theorem bytes_append :
    ReadBits.bytes chunk.length ⟨pending, chunk ++ rest⟩ = some (chunk, ⟨[], rest⟩) := by
  have hlength : ¬(chunk ++ rest).length < chunk.length := by simp
  rw [ReadBits.bytes, if_neg hlength, List.take_left, List.drop_left]

theorem bytes_lowBytes {count n : Nat} :
    ReadBits.bytes count ⟨pending, lowBytes count n ++ rest⟩ = some (lowBytes count n, ⟨[], rest⟩) := by
  have h := @bytes_append pending (lowBytes count n) rest
  rwa [length_lowBytes] at h

theorem stored_append {data : Array UInt8} (h : chunk.length ≤ blockSize) :
    stored data ⟨pending, lowBytes 2 chunk.length ++ (lowBytes 2 (blockSize - chunk.length) ++
      (chunk ++ rest))⟩ = some (data ++ chunk, ⟨[], rest⟩) := by
  have hlength : ofLowBytes (lowBytes 2 chunk.length) = chunk.length :=
    ofLowBytes_lowBytes h
  have hcomplement : ofLowBytes (lowBytes 2 (blockSize - chunk.length)) = blockSize - chunk.length :=
    ofLowBytes_lowBytes (Nat.sub_le ..)
  -- the two numbers belong together, so the block is not malformed
  have hsum : chunk.length + (blockSize - chunk.length) = blockSize := Nat.add_sub_cancel' h
  simp only [stored, bind, StateT.bind, bytes_lowBytes, Option.bind_some, hlength,
    hcomplement, if_pos hsum, bytes_append]
  rfl

/-- The bits in front of a stored block: whether it is the last one, and its kind. -/
theorem bits_block {α : Type} {last : Bool} (next : Bool → Nat → ReadBits α) :
    (do
      let isLast ← ReadBits.bit
      let kind ← ReadBits.number 2
      next isLast kind) ⟨[], (if last then 1 else 0) :: rest⟩ =
        next last 0 ⟨List.replicate 5 false, rest⟩ := by
  cases last <;> rfl

/-- A stored block is read in one step. -/
theorem inflateBlocks_block {data : Array UInt8} {last : Bool} {steps : Nat}
    (h : chunk.length ≤ blockSize) :
    inflateBlocks (steps + 1) data ⟨[], block last chunk ++ rest⟩ =
      if last then some (data ++ chunk, ⟨[], rest⟩)
      else inflateBlocks steps (data ++ chunk) ⟨[], rest⟩ := by
  have hform : block last chunk ++ rest = (if last then 1 else 0) :: (lowBytes 2 chunk.length ++
      (lowBytes 2 (blockSize - chunk.length) ++ (chunk ++ rest))) := by
    simp only [block, List.cons_append, List.append_assoc]
  rw [inflateBlocks, hform, bits_block fun isLast kind => _]
  simp only [inflateBlock, bind, StateT.bind, stored_append h, Option.bind_some]
  cases last <;> rfl

theorem length_lt_length_blocks (data : List UInt8) : data.length < (blocks data).length := by
  fun_induction blocks data with
  | case1 data h =>
    simp only [block, List.length_append, List.length_cons]
    omega
  | case2 data h ih =>
    simp only [block, List.length_append, List.length_cons, List.length_take,
      List.length_drop] at ih ⊢
    omega

/-- The blocks of some data are read one after the other; each step takes some of it. -/
theorem inflateBlocks_blocks (data : List UInt8) {front : Array UInt8} {steps : Nat}
    (hsteps : data.length < steps) :
    inflateBlocks steps front ⟨[], blocks data ++ rest⟩ = some (front ++ data, ⟨[], rest⟩) := by
  obtain ⟨steps, rfl⟩ := Nat.exists_eq_add_one_of_ne_zero (Nat.ne_zero_of_lt hsteps)
  fun_induction blocks data generalizing front steps with
  | case1 data h =>
    rw [inflateBlocks_block h]
    rfl
  | case2 data h ih =>
    -- the first block is full, so there is less data than steps behind it again
    have htake : (data.take blockSize).length ≤ blockSize := List.length_take_le ..
    have hdrop : (data.drop blockSize).length < steps := by
      rw [List.length_drop]
      rw [blockSize] at h ⊢
      omega
    have hfront : front ++ data.take blockSize ++ data.drop blockSize = front ++ data := by
      rw [← Array.toList_inj]
      simp only [Array.toList_appendList, List.append_assoc, List.take_append_drop]
    obtain ⟨steps, rfl⟩ := Nat.exists_eq_add_one_of_ne_zero (Nat.ne_zero_of_lt hdrop)
    rw [List.append_assoc, inflateBlocks_block htake, if_neg nofun, ih steps hdrop, hfront]

theorem inflate_blocks (data rest : List UInt8) : inflate (blocks data ++ rest) = some (data, rest) := by
  have hlength := length_lt_length_blocks data
  have hsteps : data.length < 8 * (blocks data ++ rest).length := by
    rw [List.length_append]
    omega
  rw [inflate, inflateBlocks_blocks data hsteps]
  simp

/-! ## Archives -/

theorem afterHeader?_header (rest : List UInt8) : afterHeader? (header ++ rest) = some rest :=
  rfl

/-- The archive gives back what was stored. -/
theorem unpack?_store (data : List UInt8) : unpack? (store data) = some data := by
  have hend : (lowBytes 4 (checksum data).toNat ++ lowBytes 4 data.length).take 8 =
      lowBytes 4 (checksum data).toNat ++ lowBytes 4 data.length :=
    List.take_of_length_le (by simp)
  rw [unpack?, store, List.append_assoc, List.append_assoc, afterHeader?_header]
  simp only [bind, Option.bind_some, inflate_blocks, hend, if_true]

end TriggerScript.Gzip
