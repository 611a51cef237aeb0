import TriggerScript.Proofs.Document.Contents
import TriggerScript.Proofs.Lowering.Progress

/-!
# Which programs have a document

A document can be built from a program and a catalog whose slots are filled exactly if they are
well-formed (`Document.build_succeeds_iff`). That well-formed ones are accepted is shown along their
trees; that others are not follows from what a document holds.
-/

namespace TriggerScript

namespace Document

/-- A program and a catalog from which a document has been built are well-formed. -/
lemma Contents.wellFormed_program {p : Program} {c : Catalog} {tree : Node} {parts : List Part}
    (hcontents : Contents p c tree parts) : WellFormed p c where
  leaves := hcontents.leaves
  definitions s hs d hd := hcontents.wellFormed (.definition d) ⟨s, hs, hd⟩
  defaults formal v huses := hcontents.wellFormed (.default formal v) huses

/-- A document can be built exactly if the program and the catalog are well-formed. -/
theorem build_succeeds_iff {p : Program} {c : Catalog} {final : Allocator}
    (hallocated : Allocated p c final) :
    (∃ tree, (build p c).start.1 = .ok tree) ↔ WellFormed p c := by
  have h := hallocated.numbered
  constructor
  · rintro ⟨tree, hbuild⟩
    obtain ⟨parts, hcontents⟩ := contents_of_build h hbuild
    exact hcontents.wellFormed_program
  · intro hwf
    obtain ⟨u, s, hall⟩ := Lower.all_succeeds h hwf {}
    exact ⟨ofPools s.pools, build_ok_iff.2 ⟨u, s, hall, rfl⟩⟩

/-- The sample is accepted, so it is well-formed. -/
theorem build_succeeds_iff_sample :
    Allocated Sample.numbered.1 Sample.listed.1 Sample.listed.2 ∧
      (∃ tree, (build Sample.numbered.1 Sample.listed.1).start.1 = .ok tree) ∧
      WellFormed Sample.numbered.1 Sample.listed.1 :=
  ⟨Sample.allocated, ⟨_, Sample.build_ok⟩,
    (build_succeeds_iff Sample.allocated).1 ⟨_, Sample.build_ok⟩⟩

end Document

end TriggerScript
