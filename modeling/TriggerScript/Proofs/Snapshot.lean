import TriggerScript.CommandLine
import TriggerScript.Proofs.Json.Codecs
import TriggerScript.Proofs.Numbering
import TriggerScript.Proofs.Runs
import TriggerScript.Proofs.Sorted
import TriggerScript.Proofs.Tables

/-!
# Snapshots give back what was stored

The text of a snapshot is decoded to the snapshot itself, unless it has too many arrays and objects
inside one another or an integer beyond a word (`Snapshot.ofText_text`), and no packing changes that
(`Snapshot.decode_encode`). Since nothing is lost, a run that goes on from a decoded snapshot ends
like a run that starts over (`Snapshot.decode_resume_program`).
-/

namespace TriggerScript

/-! ## Bytes -/

namespace Text

lemma toList_loop (bytes : ByteArray) (i : Nat) (front : List UInt8) :
    ByteArray.toList.loop bytes i front = front.reverse ++ bytes.data.toList.drop i := by
  fun_induction ByteArray.toList.loop bytes i front with
  | case1 i front hlt ih =>
    have hi : i < bytes.data.toList.length := hlt
    have hget : bytes.get! i = bytes.data.toList[i] := by
      rw [ByteArray.get!, Array.getElem_toList]
      exact getElem!_pos bytes.data i hlt
    rw [ih, List.drop_eq_getElem_cons hi, hget, List.reverse_cons, List.append_assoc,
      List.singleton_append]
  | case2 i front hge =>
    have hi : bytes.data.toList.length ≤ i := Nat.le_of_not_lt hge
    rw [List.drop_eq_nil_of_le hi, List.append_nil]

lemma toList_bytes (bytes : ByteArray) : bytes.toList = bytes.data.toList := by
  rw [ByteArray.toList, toList_loop]
  rfl

lemma toList_toByteArray (bytes : List UInt8) : bytes.toByteArray.toList = bytes := by
  rw [toList_bytes, List.toList_data_toByteArray]

lemma toByteArray_toList (bytes : ByteArray) : bytes.toList.toByteArray = bytes := by
  rw [toList_bytes]
  refine ByteArray.ext (Array.toList_inj.1 ?_)
  rw [List.toList_data_toByteArray]

end Text

/-- The bytes of a text denote what the text denotes. -/
lemma Json.ofBytes?_toUTF8 (s : String) : Json.ofBytes? s.toUTF8.toList = Json.ofText? s := by
  have hread : String.fromUTF8? s.toUTF8 = some s := by
    rw [String.toUTF8_eq_toByteArray, String.fromUTF8?, dif_pos s.isValidUTF8]
    rfl
  rw [Json.ofBytes?, Text.toByteArray_toList, hread]

/-! ## The form of a snapshot -/

open Json (Codec Decoder str obj)

namespace Snapshot

variable {n : Nat}

/-- The rows of a table. -/
lemma rowsCodec (bound : Nat) : Codec bound
    (fun rows : List (String × String) => obj (rows.map fun row => (row.1, str row.2)))
    (Decoder.entries Decoder.text) :=
  (Codec.text bound).entries

/-- The entries of counters. -/
lemma countsCodec (bound : Nat) : Codec bound
    (fun entries : List (String × UInt32) => obj (entries.map fun e => (e.1, .nat e.2.toNat)))
    (Decoder.entries Decoder.word) :=
  (Codec.word bound).entries

/-- A table as a part of a structure. -/
lemma required_table (t : StringTable) : tableDecoder.required n (some (tableJson t)) =
    if Json.Within n (tableJson t) then some t else none := by
  refine Codec.decodes_record t [obj (t.rows.map fun row => (row.1, str row.2))] rfl rfl (by decide)
    rfl fun m _ => ?_
  have hrows := (rowsCodec m).required le_rfl t.rows
  simp only [List.map_cons, List.map_nil, hrows, Codec.bind_ite, StringTable.ofRows_rows]
  rfl

/-- Counters as a part of a structure. -/
lemma required_counters (c : Counters) :
    countersDecoder.required n (some (countersJson c)) =
      if Json.Within n (countersJson c) then some c else none := by
  refine Codec.decodes_record c [obj (c.entries.map fun e => (e.1, .nat e.2.toNat))] rfl rfl
    (by decide) rfl fun m _ => ?_
  have hentries := (countsCodec m).required le_rfl c.entries
  simp only [List.map_cons, List.map_nil, hentries, Codec.bind_ite, Counters.ofList_entries]
  rfl

/-- A snapshot is taken out of its form. -/
lemma decoder_toJson (s : Snapshot) (hn : n ≤ Decoder.limit) :
    decoder n s.toJson = if Json.Within n s.toJson then some (currentVersion, s) else none := by
  obtain ⟨p, ids, labels, values⟩ := s
  refine Codec.decodes_record (currentVersion, (⟨p, ids, labels, values⟩ : Snapshot))
    [.nat currentVersion.toNat, p.toJson, countersJson ids, tableJson labels, tableJson values]
    rfl rfl (by decide) rfl fun m hm => ?_
  have hm : m ≤ Decoder.limit := by omega
  have hversion := (Codec.word m).required le_rfl currentVersion
  simp only [List.map_cons, List.map_nil, hversion, Program.codec.required hm,
    required_counters, required_table, Codec.bind_ite]
  rfl

lemma isPlain_toJson (s : Snapshot) : s.toJson.isPlain := by
  have htable : ∀ t : StringTable, (tableJson t).isPlain := by
    intro t
    rw [tableJson, Json.isPlain_obj, List.forall_mem_singleton]
    exact (rowsCodec 0).plain t.rows
  have hcounters : (countersJson s.allocator.ids).isPlain := by
    rw [countersJson, Json.isPlain_obj, List.forall_mem_singleton]
    exact (countsCodec 0).plain s.allocator.ids.entries
  simp only [toJson, Json.isPlain_obj, List.forall_mem_cons]
  exact ⟨rfl, Program.codec.plain s.program, hcounters, htable _, htable _, List.forall_mem_nil _⟩

/-- Only the program can have integers beyond a word. -/
lemma within_toJson {s : Snapshot} : Json.Within n s.toJson ↔
    s.toJson.depth ≤ n ∧ ∀ i ∈ s.program.toJson.ints, Text.fitsWord i := by
  refine and_congr_right fun _ => ?_
  -- tables hold texts only, and the version and the counters are words of 32 bits
  have htable : ∀ (t : StringTable) (i : Int), i ∉ (tableJson t).ints := by
    intro t i
    simp [tableJson, Json.ints, Json.fieldsInts, Json.mem_fieldsInts]
  have hcounters : ∀ i ∈ (countersJson s.allocator.ids).ints, Text.fitsWord i := by
    intro i hi
    simp only [countersJson, Json.ints, Json.fieldsInts, List.append_nil, Json.mem_fieldsInts,
      List.mem_map] at hi
    obtain ⟨_, ⟨entry, _, rfl⟩, hi⟩ := hi
    rw [Json.nat, Json.ints, List.mem_singleton] at hi
    rw [hi]
    exact Json.fitsWord_toNat entry.2
  have hversion : ∀ i ∈ (Json.nat currentVersion.toNat).ints, Text.fitsWord i := by
    intro i hi
    rw [Json.nat, Json.ints, List.mem_singleton] at hi
    rw [hi]
    exact Json.fitsWord_toNat currentVersion
  simp only [toJson, Json.ints, Json.fieldsInts, List.append_nil, List.forall_mem_append]
  constructor
  · exact fun h => h.2.1
  · exact fun h => ⟨hversion, h, hcounters, fun i hi => absurd hi (htable _ i),
      fun i hi => absurd hi (htable _ i)⟩

/-! ## Reading and resuming -/

/-- The text of a snapshot is read again, unless it is nested too deep or has an integer beyond a
word. -/
lemma ofText_text (s : Snapshot) : ofText s.text =
    if Json.nesting s.text ≤ Decoder.limit ∧ ∀ i ∈ s.program.toJson.ints, Text.fitsWord i then .ok s
    else .error .malformed := by
  rw [ofText, text, Json.ofText?_compact s.isPlain_toJson, Json.nesting_compact, ofJson,
    Option.bind_some, decoder_toJson s (Nat.le_refl _)]
  simp only [within_toJson]
  split_ifs <;> rfl

/-- Nothing is lost in an archive. -/
lemma decode_encode [Packing] (s : Snapshot) : decode s.encode = ofText s.text := by
  rw [decode, encode, Text.toList_toByteArray, Packing.unpack?_pack]
  simp only [Json.ofBytes?_toUTF8]
  rfl

/-- A compilation that goes on from a snapshot: the catalog is read and allocated behind the program. -/
def resume (s : Snapshot) (preamble : List (String × String)) (catalogText : String) :
    Run CompileError Compilation := do
  let c ← Catalog.ofSource catalogText
  Compilation.assemble preamble s.program s.allocator c

/-- From the program and the allocator right behind it a compilation goes on as if it had read the
program itself. -/
lemma start_resume {p₀ p : Program} {a : Allocator} {programText : String}
    (hread : (Program.ofSource programText).start.1 = .ok p₀)
    (hrun : (({} : Allocator).run (Allocate.program p₀)).start.1 = .ok (p, a))
    (preamble : List (String × String)) (catalogText : String) :
    ((⟨p, a⟩ : Snapshot).resume preamble catalogText).start.1 =
      (Compilation.ofSources preamble programText catalogText).start.1 := by
  have hprogram : (Compilation.program programText).start.1 = .ok (p, a) := by
    rw [Compilation.start_program, hread]
    exact hrun
  rw [resume, Run.start_bind fun c => Compilation.steady_assemble preamble p a c,
    Compilation.start_ofSources, hprogram]
  rfl

/-- However archives are made, the snapshot of an allocated program is decoded to what was stored,
program, counters and rows alike, if its text never has more arrays and objects open at once than
allowed and the integers of the program are words; else it is refused as malformed. And whatever is
decoded, a compilation that goes on from it with any catalog yields what a compilation of the
sources yields, or fails as that fails. -/
theorem decode_resume_program [Packing] {p₀ p : Program} {a : Allocator}
    (hrun : (({} : Allocator).run (Allocate.program p₀)).start.1 = .ok (p, a)) :
    (decode (encode ⟨p, a⟩) =
      if Json.nesting (text ⟨p, a⟩) ≤ Decoder.limit ∧ ∀ i ∈ p.toJson.ints, Text.fitsWord i then
        .ok ⟨p, a⟩
      else .error .malformed) ∧
    ∀ s programText, decode (encode ⟨p, a⟩) = .ok s →
      (Program.ofSource programText).start.1 = .ok p₀ → ∀ preamble catalogText,
        (s.resume preamble catalogText).start.1 =
          (Compilation.ofSources preamble programText catalogText).start.1 := by
  have hdecode := ofText_text ⟨p, a⟩
  rw [← decode_encode] at hdecode
  refine ⟨hdecode, ?_⟩
  -- what is decoded is the snapshot itself, so the run goes on from the same program and allocator
  intro s programText hs hread preamble catalogText
  rw [hdecode] at hs
  split_ifs at hs
  cases hs
  exact start_resume hread hrun preamble catalogText

/-- The sample program is stored and comes back, and the catalog with a folder is compiled behind it. -/
theorem decode_resume_program_sample :
    decode (encode ⟨Sample.writtenNumbered.1, Sample.writtenNumbered.2⟩) =
      .ok ⟨Sample.writtenNumbered.1, Sample.writtenNumbered.2⟩ ∧
    (resume ⟨Sample.writtenNumbered.1, Sample.writtenNumbered.2⟩ [] Sample.folderText).start.1 =
      (Compilation.ofSources [] Sample.programText Sample.folderText).start.1 := by
  have hrun : (({} : Allocator).run (Allocate.program Sample.written)).start.1 =
      .ok Sample.writtenNumbered := eq_ok_get _
  have hdepth : Json.nesting (text ⟨Sample.writtenNumbered.1, Sample.writtenNumbered.2⟩) ≤
      Decoder.limit := by
    rw [text, Json.nesting_compact]
    decide +kernel
  have hwords : ∀ i ∈ Sample.writtenNumbered.1.toJson.ints, Text.fitsWord i := by
    decide +kernel
  obtain ⟨hdecode, hresume⟩ := decode_resume_program hrun
  rw [if_pos ⟨hdepth, hwords⟩] at hdecode
  exact ⟨hdecode, hresume _ _ hdecode Sample.programText_read _ _⟩

end Snapshot

end TriggerScript
