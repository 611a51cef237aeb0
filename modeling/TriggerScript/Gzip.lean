import TriggerScript.Gzip.Inflate

/-!
# Gzip archives

The gzip container around some data. An archive ends with a checksum and the length of the data, and
both are looked at when it is opened. What stands behind it is ignored.

The main definition is `Gzip.unpack?`.
-/

namespace TriggerScript.Gzip

/-- One bit of the cyclic redundancy check. -/
def crcBit (crc : UInt32) : UInt32 :=
  if crc &&& 1 = 1 then (crc >>> 1) ^^^ 0xEDB88320 else crc >>> 1

/-- One byte of the cyclic redundancy check. -/
def crcByte (crc : UInt32) (b : UInt8) : UInt32 :=
  Nat.repeat crcBit 8 (crc ^^^ b.toUInt32)

/-- The checksum of some data. -/
def checksum (data : List UInt8) : UInt32 :=
  ~~~ data.foldl crcByte 0xFFFFFFFF

/-- The lowest bytes of a number, the least significant one first. -/
def lowBytes : Nat → Nat → List UInt8
  | 0, _ => []
  | count + 1, n => UInt8.ofNat n :: lowBytes count (n / 256)

/-- How many bytes a text in a header can have. -/
def headerTextLimit : Nat :=
  65535

/-- The bytes behind a text that ends with a zero. -/
def afterText? (bytes : List UInt8) : Option (List UInt8) :=
  let text := bytes.takeWhile (· ≠ 0)
  if text.length ≤ headerTextLimit ∧ text.length < bytes.length then
    some (bytes.drop (text.length + 1))
  else none

/-- The bytes behind a field with its length in front of it. -/
def afterField? (bytes : List UInt8) : Option (List UInt8) :=
  let size := 2 + ofLowBytes (bytes.take 2)
  if size ≤ bytes.length then some (bytes.drop size) else none

/-- The bytes behind the checksum of a header, which is right. -/
def afterHeaderSum? (header bytes : List UInt8) : Option (List UInt8) :=
  if bytes.take 2 = lowBytes 2 (checksum header).toNat then some (bytes.drop 2) else none

/-- The bytes behind the parts of a header that its flags announce: a field, a name, a comment and a
checksum. -/
def afterParts? (flags : Nat) (bytes rest : List UInt8) : Option (List UInt8) := do
  let rest ← if flags.testBit 2 then afterField? rest else some rest
  let rest ← if flags.testBit 3 then afterText? rest else some rest
  let rest ← if flags.testBit 4 then afterText? rest else some rest
  if flags.testBit 1 then afterHeaderSum? (bytes.take (bytes.length - rest.length)) rest
  else some rest

/-- The bytes behind the header of an archive. -/
def afterHeader? (bytes : List UInt8) : Option (List UInt8) :=
  match bytes with
  | 0x1F :: 0x8B :: 8 :: flags :: _ :: _ :: _ :: _ :: _ :: _ :: rest =>
    if flags < 32 then afterParts? flags.toNat bytes rest else none
  | _ => none

/-- The data of an archive. -/
def unpack? (bytes : List UInt8) : Option (List UInt8) := do
  let (data, rest) ← inflate (← afterHeader? bytes)
  if rest.take 8 = lowBytes 4 (checksum data).toNat ++ lowBytes 4 data.length then some data
  else none

end TriggerScript.Gzip
