import TriggerScript.Proofs.Grammar.LeftRecursion
import TriggerScript.Proofs.Grammar.Reducing

/-!
# Parsing catalogs

What the grammar of catalogs says, rule by rule. In a stream whose strings and labels carry texts no
reducer fails, and no rule leads back to itself. So `parseAll` finds the catalogs in whose language the
token list is (`exists_mem_parseAll_iff_mem_language`).
-/

namespace TriggerScript

open Grammar

namespace CatalogPhrase

variable {p : CatalogPhrase}

/-! ## What is taken out of a phrase -/

@[simp]
lemma toText_ok_iff {s : String} : p.toText = .ok s ↔ p = .token (.text s) := by
  cases p with
  | token v => cases v <;> simp [toText, unexpected]
  | _ => simp [toText, unexpected]

@[simp]
lemma items_ok_iff {items : List CatalogPhrase} : p.items = .ok items ↔ p = .list items := by
  cases p <;> simp [CatalogPhrase.items, unexpected]

@[simp]
lemma toCatalog_ok_iff {c : Catalog} : p.toCatalog = .ok c ↔ p = .catalog c := by
  cases p <;> simp [toCatalog, unexpected]

@[simp]
lemma toLibrary_ok_iff {l : CatalogLibrary} : p.toLibrary = .ok l ↔ p = .library l := by
  cases p <;> simp [toLibrary, unexpected]

@[simp]
lemma toItem_ok_iff {i : CatalogItem} : p.toItem = .ok i ↔ p = .item i := by
  cases p <;> simp [toItem, unexpected]

@[simp]
lemma entries_ok_iff {xs : List CatalogItem} : p.entries = .ok xs ↔ p = .list (xs.map .item) := by
  simp only [entries, except_bind_ok_iff, items_ok_iff, except_mapM_ok_iff_eq_map toItem_ok_iff,
    exists_eq_right]

instance : LawfulPhrase CatalogPhrase :=
  ⟨items_ok_iff⟩

end CatalogPhrase

namespace CatalogGrammar

/-! ## The alternatives of the rules -/

lemma alternatives_catalog :
    catalogGrammar.alternatives "catalog" = [⟨"catalog", [.rule "libraries"], catalog⟩] :=
  (Clause.alternatives_eq_allHeads (by decide)).trans rfl

lemma alternatives_library : catalogGrammar.alternatives "library" =
    [⟨"library", [.terminal "library", .terminal "str", .terminal "str", .terminal "\x7b",
      .rule "items", .terminal "\x7d"], library⟩] :=
  (Clause.alternatives_eq_allHeads (by decide)).trans rfl

lemma alternatives_item : catalogGrammar.alternatives "item" =
    [⟨"item", [.terminal "label"], leaf⟩,
      ⟨"item", [.terminal "folder", .terminal "str", .terminal "\x7b", .rule "items",
        .terminal "\x7d"], folder⟩] :=
  (Clause.alternatives_eq_allHeads (by decide)).trans rfl

lemma not_isHidden : ∀ c ∈ clauses, ¬isHidden c.name := by
  decide +kernel

lemma isList_libraries :
    ∃ tail rest, catalogGrammar.Lists "libraries" tail rest (.rule "library") none :=
  Clause.exists_lists not_isHidden rfl

lemma isList_items :
    ∃ tail rest, catalogGrammar.Lists "items" tail rest (.rule "item") (some (.terminal ",")) :=
  Clause.exists_lists not_isHidden rfl

/-- The catalog of some libraries. -/
@[simp]
lemma catalog_ok_iff {p v : CatalogPhrase} : catalog [p] = .ok v ↔
    ∃ ls : List CatalogLibrary, p = .list (ls.map .library) ∧ .catalog ⟨ls⟩ = v := by
  simp only [catalog, except_bind_ok_iff, CatalogPhrase.items_ok_iff,
    except_mapM_ok_iff_eq_map CatalogPhrase.toLibrary_ok_iff, pure, Except.pure, Except.ok.injEq]
  constructor
  · rintro ⟨_, rfl, ls, rfl, rfl⟩
    exact ⟨ls, rfl, rfl⟩
  · rintro ⟨ls, rfl, rfl⟩
    exact ⟨_, rfl, ls, rfl, rfl⟩

/-! ## Reducers do not fail -/

variable {P : CatalogPhrase → Prop}

/-- A string or a label carries a text. -/
def CarriesText (t : Token) : Prop :=
  t.name = "str" ∨ t.name = "label" → ∃ s, t.value = .text s

lemma ensures_text {name : String} (hname : name = "str" ∨ name = "label")
    (h : ∀ s, P (.token (.text s))) : catalogGrammar.Ensures CarriesText (.terminal name) P := by
  refine ensures_terminal fun token ht heq => ?_
  obtain ⟨s, hs⟩ := ht (heq ▸ hname)
  rw [show Phrase.ofToken token = CatalogPhrase.token token.value from rfl, hs]
  exact h s

lemma ensures_item (h : ∀ i, P (.item i)) : catalogGrammar.Ensures CarriesText (.rule "item") P := by
  refine ensures_of_alternatives (fun v hv => ?_) h
  simp [alternatives_item, leaf, folder, except_bind_ok_iff, except_map_ok_iff, hv]

lemma ensures_items (h : ∀ xs : List CatalogItem, P (.list (xs.map .item))) :
    catalogGrammar.Ensures CarriesText (.rule "items") P := by
  obtain ⟨tail, rest, hlists⟩ := isList_items
  exact hlists.ensures_map (ensures_item Set.mem_range_self) h

lemma ensures_library (h : ∀ l, P (.library l)) :
    catalogGrammar.Ensures CarriesText (.rule "library") P := by
  refine ensures_of_alternatives (fun v hv => ?_) h
  simp [alternatives_library, library, except_bind_ok_iff, except_map_ok_iff, hv]

lemma ensures_libraries (h : ∀ xs : List CatalogLibrary, P (.list (xs.map .library))) :
    catalogGrammar.Ensures CarriesText (.rule "libraries") P := by
  obtain ⟨tail, rest, hlists⟩ := isList_libraries
  exact hlists.ensures_map (ensures_library Set.mem_range_self) h

lemma ensures_catalog (h : ∀ c, P (.catalog c)) :
    catalogGrammar.Ensures CarriesText (.rule "catalog") P := by
  refine ensures_of_alternatives (fun v hv => ?_) h
  simp [alternatives_catalog, hv]

lemma ensures_any {x : Symbol} (h : ∀ v, P v) : catalogGrammar.Ensures CarriesText x P :=
  fun _ v _ _ => h v

lemma total_clauses : ∀ c ∈ clauses, c.Total catalogGrammar CarriesText := by
  simp only [clauses, List.forall_mem_cons, Clause.Total, true_and, List.not_mem_nil,
    IsEmpty.forall_iff, implies_true, and_true]
  refine ⟨?_, ?_, ?_, ?_⟩
  · refine ensures_libraries fun _ => .nil ?_
    simp
  · refine ensures_any fun _ => ensures_text (.inl rfl) fun _ => ensures_text (.inl rfl) fun _ =>
      ensures_any fun _ => ensures_items fun _ => ensures_any fun _ => .nil ?_
    simp [library, except_bind_ok_iff, except_map_ok_iff]
  · refine ensures_text (.inr rfl) fun _ => .nil ?_
    simp [leaf, except_map_ok_iff]
  · refine ensures_any fun _ => ensures_text (.inl rfl) fun _ => ensures_any fun _ =>
      ensures_items fun _ => ensures_any fun _ => .nil ?_
    simp [folder, except_bind_ok_iff, except_map_ok_iff]

lemma total : ∀ p ∈ catalogGrammar.productions, p.Total catalogGrammar CarriesText :=
  Clause.total_of_clauses not_isHidden total_clauses

/-! ## The search comes to an end -/

/-- The rules in levels: with no token taken, a rule leads to rules of lower levels only. -/
def levels : List (List String) :=
  [["library", "item", "%4"], ["%1", "%3"], ["libraries", "%2", "items"], ["catalog"]]

lemma ranked : catalogGrammar.Ranked ["catalog", "libraries", "%2", "items", "%4"]
    fun name => levels.findIdx (·.contains name) := by
  decide +kernel

lemma closed : catalogGrammar.Closed := by
  have hclauses : ofClauses "catalog" clauses = .ok catalogGrammar := rfl
  exact closed_of_ofClauses hclauses

variable {tokens : List Token} {length : Nat}

lemma carriesText_of_mem_stream (htokens : ∀ t ∈ tokens, CarriesText t) :
    ∀ t ∈ (stream tokens length).toList, CarriesText t := by
  intro t ht
  simp only [stream, Token.enclose, List.mem_append, List.mem_cons, List.not_mem_nil, or_false] at ht
  rcases ht with (rfl | ht) | rfl
  · exact fun hname => absurd hname (by decide)
  · exact htokens t ht
  · exact fun hname => absurd hname (by simp [Token.mark, Token.endName])

/-- The search succeeds if strings and labels carry texts. -/
lemma exists_found (htokens : ∀ t ∈ tokens, CarriesText t) : ∃ found,
    matchSequence (stream tokens length) (catalogGrammar.expand (stream tokens length)
      (catalogGrammar.budget (stream tokens length).size)) catalogGrammar.whole 0 = .ok found :=
  exists_whole closed (ends_of_wellFounded ranked.wellFounded (Nat.zero_le _))
    (reduces_of_total total (carriesText_of_mem_stream htokens) _)

/-- The values found for a token list are those in whose language it is. -/
theorem exists_mem_parseAll_iff_mem_language {v : CatalogPhrase}
    (htokens : ∀ t ∈ tokens, CarriesText t) :
    (∃ values, catalogGrammar.parseAll tokens length = .ok values ∧ v ∈ values) ↔
      tokens ∈ catalogGrammar.language (.rule "catalog") {v} :=
  exists_mem_parseAll_iff closed (ends_of_wellFounded ranked.wellFounded (Nat.zero_le _))
    (reduces_of_total total (carriesText_of_mem_stream htokens) _)

/-- The values found are catalogs. -/
lemma exists_catalog_of_mem {values : List CatalogPhrase} {v : CatalogPhrase}
    (htokens : ∀ t ∈ tokens, CarriesText t)
    (h : catalogGrammar.parseAll tokens length = .ok values) (hv : v ∈ values) :
    ∃ c, .catalog c = v := by
  obtain ⟨_, rfl, hyields⟩ := (exists_mem_parseAll_iff_mem_language htokens).1 ⟨values, h, hv⟩
  have hrange : catalogGrammar.Ensures CarriesText (.rule "catalog") (· ∈ Set.range .catalog) :=
    ensures_catalog Set.mem_range_self
  exact hrange htokens hyields

end CatalogGrammar

end TriggerScript
