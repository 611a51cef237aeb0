import TriggerScript.Proofs.Compilation.Tables
import TriggerScript.Proofs.Tables.Maps

/-!
# The values of a compilation

The values of a compilation are the rows that were to stand in front, followed by those that the
allocator wrote on its way. As tables keep the first place and the last text of a key, the keys in
front come first, in their own order, and behind them come the other keys in the order of the walk.

The main result is `Compilation.tables_keep_order_and_last_text`.
-/

namespace TriggerScript.Compilation

variable {preamble : List (String × String)} {p₀ p : Program} {a : Allocator} {c₀ : Catalog}
  {r : Compilation}

/-- The rows that are written for the texts of a program and a catalog, in the order of the walk. -/
def generatedRows (p : Program) (c : Catalog) : List (String × String) :=
  (p.walk ++ c.walk).flatMap Stop.valueRows

/-- The values are made of the rows in front and of those that are written on the way. -/
lemma values_of_assemble (hp : (({} : Allocator).run (Allocate.program p₀)).start.1 = .ok (p, a))
    (h : (assemble preamble p a c₀).start.1 = .ok r) :
    ∃ c final, (a.run (Allocate.catalog c₀)).start.1 = .ok (c, final) ∧
      ((generatedRows p c).map Prod.fst).Nodup ∧ r.values = .ofRows (preamble ++ generatedRows p c) := by
  obtain ⟨c, final, tree, hc, -, rfl⟩ := assemble_ok_iff.1 h
  have htabulated : Tabulated p c final := Allocate.tabulated hp hc
  refine ⟨c, final, hc, nodup_valueKeys htabulated.apart, ?_⟩
  rw [StringTable.ofRows, StringTable.putAll_append, generatedRows, ← htabulated.values]
  rfl

/-- Tables keep the order of their keys and the last text of each. The table of a list of rows holds
each key once, where it first occurs and with its last text. Putting tables together is associative,
with the table without rows as its unit. Hence the values of a compilation have the keys of the rows
in front, then the other keys in the order of the walk, each with the text that was written last. -/
theorem tables_keep_order_and_last_text :
    (∀ rows, (StringTable.ofRows rows).Holds rows) ∧
    (∀ t u v : StringTable, (t.extend u).extend v = t.extend (u.extend v)) ∧
    (∀ t : StringTable, t.extend .empty = t ∧ StringTable.empty.extend t = t) ∧
    ∀ p₀ p a c₀ preamble r, (({} : Allocator).run (Allocate.program p₀)).start.1 = .ok (p, a) →
      (assemble preamble p a c₀).start.1 = .ok r →
      ∃ c final, (a.run (Allocate.catalog c₀)).start.1 = .ok (c, final) ∧
        r.values.Holds (preamble ++ generatedRows p c) ∧
        r.values.keys = (preamble.map Prod.fst).eraseDups ++
          ((generatedRows p c).map Prod.fst).filter (· ∉ preamble.map Prod.fst) := by
  refine ⟨StringTable.holds_ofRows, StringTable.extend_assoc,
    fun t => ⟨t.extend_empty, t.empty_extend⟩, ?_⟩
  intro p₀ p a c₀ preamble r hp hr
  obtain ⟨c, final, hc, hnodup, hvalues⟩ := values_of_assemble hp hr
  rw [hvalues]
  exact ⟨c, final, hc, StringTable.holds_ofRows _, StringTable.keys_ofRows_append hnodup⟩

/-- Rows in front of the texts of the sample: a key that is written twice and one that the sample writes
too. -/
def sampleFront : List (String × String) :=
  [("a", "1"), ("Param/Value/lib_L_10000002", "old"), ("a", "2")]

/-- Of the two texts of the sample, the second has its key in front. The key stays there and gets the new
text. -/
theorem tables_keep_order_and_last_text_sample :
    (let t := StringTable.ofRows sampleFront
      let u := StringTable.ofRows sampleFront.reverse
      (t.extend u).extend t = t.extend (u.extend t) ∧ t.extend .empty = t) ∧
    ∃ r, (assemble sampleFront Sample.greetingNumbered.1 Sample.greetingNumbered.2
        Sample.greetingCatalog).start.1 = .ok r ∧
      r.values.keys = ["a", "Param/Value/lib_L_10000002", "Param/Value/10000001"] ∧
      r.values.get? "a" = some "2" ∧ r.values.get? "Param/Value/lib_L_10000002" = some "hi" := by
  obtain ⟨-, hassoc, hunit, hvalues⟩ := tables_keep_order_and_last_text
  have hp : (({} : Allocator).run (Allocate.program Sample.greeting)).start.1 =
      .ok Sample.greetingNumbered := eq_ok_get _
  have hr : (assemble sampleFront Sample.greetingNumbered.1 Sample.greetingNumbered.2
      Sample.greetingCatalog).start.1 =
        .ok (ofTree sampleFront Sample.greetingTree Sample.greetingListed.2) :=
    assemble_ok_iff.2 ⟨_, _, _, Sample.greetingListed_ok, eq_ok_get _, rfl⟩
  obtain ⟨c, final, hc, hholds, hkeys⟩ :=
    hvalues _ Sample.greetingNumbered.1 Sample.greetingNumbered.2 _ _ _ hp hr
  obtain ⟨rfl, rfl⟩ : c = Sample.greetingListed.1 ∧ final = Sample.greetingListed.2 :=
    Prod.ext_iff.1 (Except.ok.inj (hc.symm.trans Sample.greetingListed_ok))
  have hgenerated : generatedRows Sample.greetingNumbered.1 Sample.greetingListed.1 =
      [("Param/Value/10000001", "no"), ("Param/Value/lib_L_10000002", "hi")] := by
    decide +kernel
  rw [hgenerated] at hholds hkeys
  refine ⟨⟨hassoc _ _ _, (hunit _).1⟩, _, hr, ?_, ?_, ?_⟩
  · rw [hkeys]
    decide
  · rw [hholds.texts]
    decide
  · rw [hholds.texts]
    decide

end TriggerScript.Compilation
