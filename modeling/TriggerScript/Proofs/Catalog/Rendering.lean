import TriggerScript.Proofs.Grammar.Lookahead
import TriggerScript.Proofs.Reading
import TriggerScript.Proofs.Slots

/-!
# What the grammar of catalogs accepts

A catalog is written in one way only, as far as the grammar looks at tokens: at their names and, for
strings and labels, at what they carry (`Token.spelling`). The tokens that are read as a catalog are
those that spell it (`CatalogGrammar.language_catalog`), and they have no other parse
(`CatalogGrammar.length_of_parseAll`). Both together are the main result,
`Catalog.ofTokens_iff_spellings`.
-/

namespace TriggerScript

open Grammar

/-! ## How a catalog is written -/

/-- A token as the grammar of catalogs sees it: its name, and what a string or a label carries. -/
abbrev Spelling := String × Option TokenValue

/-- How a token is spelled. -/
def Token.spelling (t : Token) : Spelling :=
  (t.name, if t.name = "str" ∨ t.name = "label" then some t.value else none)

namespace Spelling

/-- A keyword. -/
def keyword (name : String) : Spelling :=
  (name, none)

/-- `STR` -/
def str (s : String) : Spelling :=
  ("str", some (.text s))

/-- `LABEL` -/
def label (s : String) : Spelling :=
  ("label", some (.text s))

/-- `item,*` -/
def commas (items : List (List Spelling)) : List Spelling :=
  [keyword ","].intercalate items

end Spelling

open Spelling

mutual

/-- `item := LABEL | folder` -/
def CatalogItem.spellings : CatalogItem → List Spelling
  | .leaf name => [label name]
  | .folder f => f.spellings

/-- `folder := "folder" STR "{" item,* "}"` -/
def Folder.spellings : Folder → List Spelling
  | ⟨description, items, _⟩ => [keyword "folder", str description, keyword "\x7b"] ++
      commas (itemsSpellings items) ++ [keyword "\x7d"]

/-- How entries are written, one by one. -/
def itemsSpellings : List CatalogItem → List (List Spelling)
  | [] => []
  | i :: rest => i.spellings :: itemsSpellings rest

end

/-- `library := "library" STR STR "{" item,* "}"` -/
def CatalogLibrary.spellings (l : CatalogLibrary) : List Spelling :=
  [keyword "library", str l.name, str l.description, keyword "\x7b"] ++
    commas (itemsSpellings l.items) ++ [keyword "\x7d"]

/-- `catalog := library*` -/
def Catalog.spellings (c : Catalog) : List Spelling :=
  c.libraries.flatMap CatalogLibrary.spellings

/-! ## The tokens that spell something -/

/-- The token lists that are spelled in this way. -/
def spelled (w : List Spelling) : Language Token :=
  {ts | ts.map Token.spelling = w}

lemma mem_spelled {w : List Spelling} {ts : List Token} : ts ∈ spelled w ↔ ts.map Token.spelling = w :=
  Iff.rfl

lemma spelled_nil : spelled [] = 1 := by
  ext ts
  rw [mem_spelled, Language.mem_one, List.map_eq_nil_iff]

lemma spelled_append (u w : List Spelling) : spelled (u ++ w) = spelled u * spelled w := by
  ext ts
  rw [mem_spelled, List.map_eq_append_iff, Language.mem_mul]
  constructor
  · rintro ⟨front, back, rfl, rfl, rfl⟩
    exact ⟨front, rfl, back, rfl, rfl⟩
  · rintro ⟨front, rfl, back, rfl, rfl⟩
    exact ⟨front, back, rfl, rfl, rfl⟩

lemma spelled_cons_cons (a b : Spelling) (w : List Spelling) :
    spelled (a :: b :: w) = spelled [a] * spelled (b :: w) :=
  spelled_append [a] (b :: w)

lemma spelled_flatten (ws : List (List Spelling)) : spelled ws.flatten = (ws.map spelled).prod := by
  induction ws with
  | nil => exact spelled_nil
  | cons w ws ih => rw [List.flatten_cons, spelled_append, ih, List.map_cons, List.prod_cons]

lemma spelled_commas (items : List (List Spelling)) :
    spelled (commas items) = separated (spelled [keyword ","]) (items.map spelled) := by
  cases items with
  | nil => exact spelled_nil
  | cons item others =>
    rw [List.map_cons, separated]
    induction others generalizing item with
    | nil => simp [commas]
    | cons next others ih =>
      have hcons : commas (item :: next :: others) =
          item ++ ([keyword ","] ++ commas (next :: others)) := by
        simp [commas, List.intercalate]
      rw [hcons, spelled_append, spelled_append, ih, List.map_cons, List.map_cons, List.prod_cons,
        mul_assoc]

/-! ## The languages of the rules -/

/-- None of the slots is filled. -/
def Vacant (slots : List Slot) : Prop :=
  ∀ slot ∈ slots, slot.allocation = none

lemma given_mul_given_mul (a b : Prop) (x : Language Token) :
    given a * (given b * x) = given (a ∧ b) * x := by
  by_cases ha : a <;> by_cases hb : b <;> simp [ha, hb, given_of, given_of_not]

lemma mul_given_mul (a : Prop) (x y : Language Token) : x * (given a * y) = given a * (x * y) := by
  by_cases ha : a <;> simp [ha, given_of, given_of_not]

/-- The conditions of all items together. -/
lemma separated_given {α : Type} (sep : Language Token) (P : α → Prop) (w : α → Language Token)
    (xs : List α) : separated sep (xs.map fun x => given (P x) * w x) =
      given (∀ x ∈ xs, P x) * separated sep (xs.map w) := by
  have hprod : ∀ xs : List α, ((xs.map fun x => given (P x) * w x).map (sep * ·)).prod =
      given (∀ x ∈ xs, P x) * ((xs.map w).map (sep * ·)).prod := by
    intro xs
    induction xs with
    | nil => simp [given_of]
    | cons x xs ih =>
      simp only [List.map_cons, List.prod_cons, List.forall_mem_cons, ih]
      rw [mul_given_mul (P x), mul_assoc, mul_given_mul (∀ y ∈ xs, P y), given_mul_given_mul]
  cases xs with
  | nil => simp [separated, given_of]
  | cons x xs =>
    simp only [List.map_cons, separated, hprod, List.forall_mem_cons]
    rw [mul_assoc, mul_given_mul (∀ y ∈ xs, P y), given_mul_given_mul]

/-- A condition on a part is one on the whole. -/
lemma spelled_mul_given (P : Prop) (u w z : List Spelling) :
    spelled u * (given P * spelled w) * spelled z = given P * spelled (u ++ w ++ z) := by
  rw [mul_given_mul, mul_assoc, spelled_append, spelled_append]

namespace CatalogGrammar

/-- The token lists for which the symbol has a value of the set. -/
abbrev L (x : Symbol) (values : Set CatalogPhrase) : Language Token :=
  catalogGrammar.language x values

lemma language_keyword {name : String} (hname : name ≠ "str" ∧ name ≠ "label") :
    L (.terminal name) Set.univ = spelled [keyword name] := by
  ext ts
  rw [mem_language_terminal, mem_spelled, List.map_eq_singleton_iff]
  refine exists_congr fun t => and_congr_right fun _ => ?_
  simp only [Set.mem_univ, and_true, Token.spelling, keyword, Prod.mk.injEq]
  constructor
  · rintro rfl
    simp [hname]
  · exact fun h => h.1

lemma language_text {name : String} (hname : name = "str" ∨ name = "label") (s : String) :
    L (.terminal name) {.token (.text s)} = spelled [(name, some (.text s))] := by
  ext ts
  rw [mem_language_terminal, mem_spelled, List.map_eq_singleton_iff]
  refine exists_congr fun t => and_congr_right fun _ => ?_
  simp only [Phrase.ofToken, Set.mem_singleton_iff, CatalogPhrase.token.injEq, Token.spelling,
    Prod.mk.injEq]
  refine and_congr_right fun heq => ?_
  rw [heq, if_pos hname, Option.some.injEq]

lemma language_leaf (name : String) : L (.rule "item") {.item (.leaf name)} = spelled [label name] := by
  refine (language_rule_eq [] alternatives_item True [{.token (.text name)}]
    (by simp [Production.Never, folder, except_bind_ok_iff, except_map_ok_iff])
    (by simp [leaf, except_map_ok_iff])).trans ?_
  simp [given_of, Grammar.sequence, language_text, label]

lemma language_folder (description : String) (items : List CatalogItem)
    (allocation : Option Allocation) :
    L (.rule "item") {.item (.folder ⟨description, items, allocation⟩)} = given (allocation = none) *
      (spelled [keyword "folder", str description, keyword "\x7b"] *
        L (.rule "items") {.list (items.map .item)} * spelled [keyword "\x7d"]) := by
  refine (language_rule_eq [_] alternatives_item (allocation = none)
    [Set.univ, {.token (.text description)}, Set.univ, {.list (items.map .item)}, Set.univ]
    (by simp [Production.Never, leaf, except_map_ok_iff])
    (by simp [folder, except_bind_ok_iff, except_map_ok_iff, and_assoc, @eq_comm _ none])).trans ?_
  simp [Grammar.sequence, language_keyword, language_text, spelled_cons_cons, str, mul_assoc]

lemma language_items (items : List CatalogItem) : L (.rule "items") {.list (items.map .item)} =
    separated (spelled [keyword ","]) (items.map fun i => L (.rule "item") {.item i}) := by
  obtain ⟨tail, rest, hlists⟩ := isList_items
  have hcomma : catalogGrammar.between (some (.terminal ",")) = spelled [keyword ","] :=
    language_keyword (by decide)
  refine (language_list hlists (items.map .item)).trans ?_
  rw [List.map_map, hcomma, Function.comp_def]

lemma forall_vacant_iff {items : List CatalogItem} :
    (∀ i ∈ items, Vacant i.slots) ↔ Vacant (itemsSlots items) := by
  induction items with
  | nil => simp [Vacant, itemsSlots]
  | cons i rest ih =>
    rw [List.forall_mem_cons, ih]
    simp only [Vacant, itemsSlots, List.forall_mem_append]

lemma itemsSpellings_eq_map (items : List CatalogItem) :
    itemsSpellings items = items.map CatalogItem.spellings := by
  induction items with
  | nil => rfl
  | cons i rest ih => rw [itemsSpellings, ih, List.map_cons]

/-- The entries of a list, if each is accepted as it is spelled. -/
lemma language_items_of_entries {items : List CatalogItem}
    (h : (items.map fun i => L (.rule "item") {.item i}) =
      items.map fun i => given (Vacant i.slots) * spelled i.spellings) :
    L (.rule "items") {.list (items.map .item)} =
      given (Vacant (itemsSlots items)) * spelled (commas (itemsSpellings items)) := by
  rw [language_items, h, separated_given, forall_vacant_iff, spelled_commas, itemsSpellings_eq_map,
    List.map_map]
  rfl

mutual

/-- Induction over the tree: an entry with an empty slot everywhere is accepted as it is spelled. -/
lemma language_item : ∀ i : CatalogItem,
    L (.rule "item") {.item i} = given (Vacant i.slots) * spelled i.spellings
  | .leaf name => by
    have hvacant : Vacant [] := List.forall_mem_nil _
    rw [language_leaf, CatalogItem.slots, CatalogItem.spellings, given_of hvacant, one_mul]
  | .folder ⟨description, items, allocation⟩ => by
    have hitems := language_items_of_entries (language_entries items)
    have hvacant : Vacant (CatalogItem.folder ⟨description, items, allocation⟩).slots ↔
        allocation = none ∧ Vacant (itemsSlots items) := by
      simp only [Vacant, CatalogItem.slots, Folder.slots, List.forall_mem_cons]
    rw [language_folder, hitems, spelled_mul_given, given_mul_given_mul, hvacant,
      CatalogItem.spellings, Folder.spellings]

lemma language_entries : ∀ items : List CatalogItem,
    (items.map fun i => L (.rule "item") {.item i}) =
      items.map fun i => given (Vacant i.slots) * spelled i.spellings
  | [] => rfl
  | i :: rest => by
    rw [List.map_cons, language_item i, language_entries rest, List.map_cons]

end

lemma language_library (l : CatalogLibrary) : L (.rule "library") {.library l} =
    given (Vacant (itemsSlots l.items)) * spelled l.spellings := by
  obtain ⟨name, description, items⟩ := l
  have hitems := language_items_of_entries (language_entries items)
  refine (language_rule_eq [] alternatives_library True
    [Set.univ, {.token (.text name)}, {.token (.text description)}, Set.univ,
      {.list (items.map .item)}, Set.univ] (by simp)
    (by simp [library, except_bind_ok_iff, except_map_ok_iff])).trans ?_
  rw [CatalogLibrary.spellings, ← spelled_mul_given, ← hitems]
  simp [Grammar.sequence, language_keyword, language_text, spelled_cons_cons, str, mul_assoc,
    given_of]

lemma language_catalog (c : Catalog) :
    L (.rule "catalog") {.catalog c} = given (Vacant c.slots) * spelled c.spellings := by
  obtain ⟨libraries⟩ := c
  obtain ⟨tail, rest, hlists⟩ := isList_libraries
  have hlibraries := language_list hlists (libraries.map .library)
  have hvacant : (∀ l ∈ libraries, Vacant (itemsSlots l.items)) ↔
      Vacant (Catalog.slots ⟨libraries⟩) := by
    simp only [Vacant, Catalog.slots, List.mem_flatMap]
    exact ⟨fun h slot ⟨l, hl, hslot⟩ => h l hl slot hslot,
      fun h l hl slot hslot => h slot ⟨l, hl, hslot⟩⟩
  refine (language_rule_eq [] alternatives_catalog True [{.list (libraries.map .library)}]
    (by simp) (by simp)).trans ?_
  rw [given_of trivial, one_mul, Grammar.sequence, Grammar.sequence, mul_one]
  refine hlibraries.trans ?_
  simp only [List.map_map, Function.comp_def, language_library, separated_given, between,
    separated_one, hvacant, Catalog.spellings, List.flatMap_def, spelled_flatten]

/-! ## There is one parse -/

/-- What can be told from the tokens ahead: with which tokens the rules begin, and which tokens do not
stand behind a list. -/
def lookahead : Lookahead :=
  .ofRows
    [(["catalog", "libraries", "%2"], [.all [], .first ["library"]]),
      (["%1", "library"], [.first ["library"]]),
      (["items"], [.all [], .first ["label"], .first ["folder"]]),
      (["%3", "item"], [.first ["label"], .first ["folder"]]),
      (["%4"], [.all [], .first [","]])]
    [(["catalog", "libraries", "%1", "%2"], [["library"]]),
      (["items", "%3", "%4"], [["label"], ["folder"], [","]])]
    ["catalog", "libraries", "%1", "%2", "library", "items", "%3", "%4", "item"]

lemma length_of_parseAll {tokens : List Token} {length : Nat} {values : List CatalogPhrase}
    (h : catalogGrammar.parseAll tokens length = .ok values) : values.length = 1 := by
  have hcovers : lookahead.covers catalogGrammar := by decide +kernel
  have hchecks : lookahead.checks catalogGrammar [] fun _ => true := by decide +kernel
  have hwhole : lookahead.orderly [] (fun _ => true) [] catalogGrammar.whole := by decide +kernel
  have hlength : values.length = 2 ^ Nat.count (fun _ => false = true) (stream tokens length).size :=
    Lookahead.length_of_parseAll hcovers hchecks (fun _ _ => rfl) (List.forall_mem_nil _) hwhole h
  simpa using hlength

end CatalogGrammar

/-- The tokens are read as a catalog if and only if they spell it, and then there is no other parse. -/
theorem Catalog.ofTokens_iff_spellings {tokens : List Token} {length : Nat}
    (htokens : ∀ t ∈ tokens, CatalogGrammar.CarriesText t) :
    (∀ c : Catalog, Vacant c.slots →
      ((Catalog.ofTokens tokens length).start.1 = .ok c ↔
        tokens.map Token.spelling = c.spellings)) ∧
    ∀ c, (Catalog.ofTokens tokens length).start.1 = .ok c →
      catalogGrammar.parseAll tokens length = .ok [.catalog c] := by
  refine ⟨fun c hslots => ?_, fun c hc => ?_⟩
  · have hlanguage : tokens.map Token.spelling = c.spellings ↔
        tokens ∈ CatalogGrammar.L (.rule "catalog") {.catalog c} := by
      rw [CatalogGrammar.language_catalog, given_of hslots, one_mul]
      rfl
    rw [hlanguage, ← CatalogGrammar.exists_mem_parseAll_iff_mem_language htokens,
      Catalog.ofTokens_ok_iff]
    constructor
    · rintro ⟨others, h⟩
      exact ⟨_, h, List.mem_cons_self⟩
    · rintro ⟨values, h, hmem⟩
      obtain ⟨v, rfl⟩ := List.length_eq_one_iff.1 (CatalogGrammar.length_of_parseAll h)
      obtain rfl := List.mem_singleton.1 hmem
      exact ⟨[], h⟩
  · obtain ⟨others, h⟩ := Catalog.ofTokens_ok_iff.1 hc
    have hlength := CatalogGrammar.length_of_parseAll h
    obtain rfl : others = [] := by simpa using hlength
    exact h

namespace Sample

/-- `library "L" "l" { a, folder "f" { b } }` -/
def folderTokens : List Token :=
  [("library", "library"), ("str", "L"), ("str", "l"), ("\x7b", "\x7b"), ("label", "a"), (",", ","),
    ("folder", "folder"), ("str", "f"), ("\x7b", "\x7b"), ("label", "b"), ("\x7d", "\x7d"),
    ("\x7d", "\x7d")].map fun (name, s) => ⟨name, s, .text s, 0⟩

/-- A library with an entry in a folder. -/
def nestedCatalog : Catalog :=
  ⟨[⟨"L", "l", [.leaf "a", .folder ⟨"f", [.leaf "b"], none⟩]⟩]⟩

end Sample

/-- An entry and a folder with another one are read from their spellings, with no other parse. -/
theorem Catalog.ofTokens_iff_spellings_sample :
    (∀ t ∈ Sample.folderTokens, CatalogGrammar.CarriesText t) ∧ Vacant Sample.nestedCatalog.slots ∧
      (Catalog.ofTokens Sample.folderTokens 0).start.1 = .ok Sample.nestedCatalog ∧
        catalogGrammar.parseAll Sample.folderTokens 0 = .ok [.catalog Sample.nestedCatalog] := by
  have htokens : ∀ t ∈ Sample.folderTokens, CatalogGrammar.CarriesText t := by
    simp [Sample.folderTokens, CatalogGrammar.CarriesText]
  have hslots : Vacant Sample.nestedCatalog.slots := by
    simp [Sample.nestedCatalog, Vacant, Catalog.slots, itemsSlots, CatalogItem.slots,
      Folder.slots]
  have hspelled : Sample.folderTokens.map Token.spelling = Sample.nestedCatalog.spellings := by
    decide +kernel
  have hread : (Catalog.ofTokens Sample.folderTokens 0).start.1 = .ok Sample.nestedCatalog :=
    ((Catalog.ofTokens_iff_spellings htokens).1 _ hslots).2 hspelled
  exact ⟨htokens, hslots, hread, (Catalog.ofTokens_iff_spellings htokens).2 _ hread⟩

end TriggerScript
