import TriggerScript.Allocator
import TriggerScript.Json.Reader
import TriggerScript.Json.Tree
import TriggerScript.Json.Tree.Decoder
import TriggerScript.Program.Equality

/-!
# Snapshots of allocated programs

A snapshot holds an allocated program together with the state of the allocator behind it, so that a
later run can go on from there. It is stored as JSON, packed into an archive. How archives are made is
left open: whatever is packed can be unpacked again (`Packing`). The JSON has a number for its version,
which is looked at last: of a snapshot that cannot be decoded the version does not matter.

The main definitions are `Snapshot.encode` and `Snapshot.decode`.
-/

namespace TriggerScript

/-- A way to pack data into archives. -/
class Packing where
  /-- The archive of some data. -/
  pack : List UInt8 → List UInt8
  /-- The data of an archive; other bytes have none. -/
  unpack? : List UInt8 → Option (List UInt8)
  /-- What has been packed can be unpacked again. -/
  unpack?_pack (data : List UInt8) : unpack? (pack data) = some data

/-- An allocated program and the state of the allocator right behind it. -/
structure Snapshot where
  program : Program
  allocator : Allocator
deriving DecidableEq

namespace Snapshot

/-- Why stored bytes are no snapshot. -/
inductive Error where
  /-- The archive cannot be opened. -/
  | unreadable
  /-- The text in the archive is not the JSON of a snapshot. -/
  | malformed
  /-- The snapshot has another version. -/
  | version (found : UInt32)
deriving Repr, DecidableEq

/-- The version of snapshots. -/
def currentVersion : UInt32 :=
  1

/-- The text of an error. -/
def Error.message : Error → String
  | unreadable => "cache I/O failed: not an archive"
  | malformed => "cache is corrupt"
  | version found =>
    "cache format version " ++ Text.natText found.toNat ++ " does not match " ++
      Text.natText currentVersion.toNat

open Json (Decoder str obj)
open Json.Decoder

/-- A table as JSON. -/
def tableJson (t : StringTable) : Json :=
  obj [("rows", obj (t.rows.map fun (key, value) => (key, str value)))]

/-- Counters as JSON. -/
def countersJson (c : Counters) : Json :=
  obj [("counters", obj (c.entries.map fun (library, n) => (library, .nat n.toNat)))]

/-- A snapshot as JSON. -/
def toJson (s : Snapshot) : Json :=
  obj [("version", .nat currentVersion.toNat), ("program", s.program.toJson),
    ("ids", countersJson s.allocator.ids), ("labels", tableJson s.allocator.labels),
    ("values", tableJson s.allocator.values)]

/-- The text of a snapshot. -/
def text (s : Snapshot) : String :=
  s.toJson.compact

/-- A table from JSON; of several texts for a key the last one counts. -/
def tableDecoder : Decoder StringTable :=
  record ["rows"] fun n parts =>
    match parts with
    | [rows] => return StringTable.ofRows (← (entries Decoder.text).required n rows)
    | _ => none

/-- Counters from JSON. -/
def countersDecoder : Decoder Counters :=
  record ["counters"] fun n parts =>
    match parts with
    | [counters] => return Counters.ofList (← (entries word).required n counters)
    | _ => none

/-- A snapshot and its version from JSON. -/
def decoder : Decoder (UInt32 × Snapshot) :=
  record ["version", "program", "ids", "labels", "values"] fun n parts =>
    match parts with
    | [version, program, ids, labels, values] =>
      return (← word.required n version,
        ⟨← Program.decoder.required n program, ← countersDecoder.required n ids,
          ← tableDecoder.required n labels, ← tableDecoder.required n values⟩)
    | _ => none

/-- The snapshot that a JSON value stores, if there is one. -/
def ofJson (v : Option Json) : Except Error Snapshot :=
  match v.bind (decoder limit) with
  | some (version, snapshot) =>
    if version = currentVersion then .ok snapshot else .error (.version version)
  | none => .error .malformed

/-- The snapshot that a text stores. -/
def ofText (s : String) : Except Error Snapshot :=
  ofJson (Json.ofText? s)

/-- The bytes of a snapshot. -/
def encode [Packing] (s : Snapshot) : ByteArray :=
  (Packing.pack s.text.toUTF8.toList).toByteArray

/-- The snapshot that bytes store. -/
def decode [Packing] (bytes : ByteArray) : Except Error Snapshot :=
  match Packing.unpack? bytes.toList with
  | none => .error .unreadable
  | some data => ofJson (Json.ofBytes? data)

end Snapshot

end TriggerScript
