import TriggerScript.Proofs.Compilation.Catalogs
import TriggerScript.Proofs.Numbering.Texts
import TriggerScript.Proofs.Walk.Labels

/-!
# The tables of a compilation

The elements of a document and the rows of its string tables come from two walks over the same tree. An
element that is shown with a label has a row with its label, and a value that is a text for display has a
row with its text. The other way round, a row belongs to such an element, unless it is the label of a
library or stands for a node in the default value of an imported parameter that is not used.

The main result is `Compilation.tables_agree`.
-/

namespace TriggerScript

/-! ## Nodes and their elements -/

namespace Document

variable {p : Program} {c : Catalog} {ids : Counters} {tree : Node} {parts : List Part}

lemma Contents.exists_part_of_mem (hcontents : Contents p c tree parts) {library : String} {n : Node}
    (hn : n ∈ tree.sectionElements library) :
    ∃ part ∈ parts, part.library = library ∧ part.node = n := by
  rw [hcontents.sections] at hn
  obtain ⟨part, hpart, hnode⟩ := List.mem_map.1 hn
  obtain ⟨hpart, hlibrary⟩ := List.mem_filter.1 hpart
  exact ⟨part, hpart, of_decide_eq_true hlibrary, hnode⟩

lemma Contents.node_mem (hcontents : Contents p c tree parts) {part : Part} (hpart : part ∈ parts) :
    part.node ∈ tree.sectionElements part.library := by
  rw [hcontents.sections]
  exact List.mem_map_of_mem (List.mem_filter.2 ⟨hpart, decide_eq_true rfl⟩)

/-- Each element is made of a node. -/
lemma Contents.exists_site (hcontents : Contents p c tree parts) (h : Numbered p c ids) {part : Part}
    (hpart : part ∈ parts) : ∃ site ∈ sitesOf (p.walk ++ c.walk), site.type = some part.type ∧
      site.allocation = some part.allocation ∧ part.showsText = site.literal.isSome := by
  rw [sitesOf_append, p.sitesOf_walk]
  rcases (hcontents.mem_parts part).1 hpart with hstep | ⟨job, hjob, hstep⟩
  -- an element of the catalog is that of a folder, which shows no text
  · have hkey : part.key ∈ c.slots.filterMap Slot.key? := by
      rw [← wholePlan_keys p]
      exact List.mem_map_of_mem (mem_planParts.2 hstep)
    have hslots : ⟨some part.type, some part.allocation⟩ ∈ c.slots := mem_filterMap_key?.1 hkey
    obtain ⟨site, hsite, hslot⟩ := List.mem_map.1 (c.slots_eq ▸ hslots)
    obtain ⟨htype, hallocation⟩ := Slot.mk.inj hslot
    refine ⟨site, List.mem_append_right _ hsite, htype, hallocation, ?_⟩
    have hcategory : part.type = .category := by
      obtain ⟨l, -, hmem⟩ := List.mem_flatMap.1 hslots
      exact Option.some.inj (type_of_mem_itemsSlots l.items _ hmem)
    have hliteral : site.literal = none := by
      rcases hliteral : site.literal with _ | text
      · rfl
      · rw [c.sitesOf_walk] at hsite
        obtain ⟨l, -, hsite⟩ := List.mem_flatMap.1 hsite
        have hparam := (kind_of_mem_itemsSites l.items site hsite).type_of_literal hliteral
        rw [show site.type = _ from htype, hcategory] at hparam
        cases hparam
    rw [hliteral, Part.showsText, hcategory]
    rfl
  · have hface : part.face ∈ job.sites.filterMap Site.face? := by
      rw [← (h.job_covers hjob (hcontents.wellFormed job hjob)).faces]
      exact List.mem_map_of_mem (mem_planParts.2 hstep)
    obtain ⟨site, hsite, hface⟩ := List.mem_filterMap.1 hface
    obtain ⟨key, hkey, hface⟩ := Option.map_eq_some_iff.1 hface
    obtain ⟨rfl, hshows⟩ := Prod.mk.inj hface
    obtain ⟨htype, hallocation⟩ := Slot.mk.inj (Slot.key?_eq_some_iff.1 hkey)
    exact ⟨site, List.mem_append_left _ (List.mem_flatMap.2 ⟨job, hjob.mem_jobs, hsite⟩), htype,
      hallocation, hshows.symm⟩

/-- Each node becomes an element, except for blocks and what is in default values that are not used. -/
lemma Contents.exists_part (hcontents : Contents p c tree parts) (h : Numbered p c ids)
    (hapart : Apart (p.walk ++ c.walk)) {site : Site} (hsite : site ∈ sitesOf (p.walk ++ c.walk))
    {type : ElementType} {a : Allocation} (htype : site.type = some type)
    (ha : site.allocation = some a) :
    (∃ part ∈ parts, part.type = type ∧ part.allocation = a ∧
      part.showsText = site.literal.isSome) ∨ p.AllocatesUnused a := by
  by_cases hunused : p.AllocatesUnused a
  · exact .inr hunused
  left
  have hslot : (⟨some type, some a⟩ : Slot) = site.slot := by
    rw [Site.slot, htype, ha]
  have hkey : (type, a) ∈ parts.map Part.key := by
    rw [hcontents.mem_keys_iff h]
    rw [sitesOf_append, p.sitesOf_walk] at hsite
    rcases List.mem_append.1 hsite with hsite | hsite
    · obtain ⟨job, hjob, hsite⟩ := List.mem_flatMap.1 hsite
      have hmem : ⟨some type, some a⟩ ∈ job.slots := by
        rw [job.slots_eq, hslot]
        exact List.mem_map_of_mem hsite
      refine .inl ⟨job, ?_, hmem⟩
      rcases h.job_cases hjob with ⟨s, hs, d, hd, rfl, -⟩ | ⟨formal, v, rfl, -⟩
      · exact ⟨s, hs, hd⟩
      -- a default value is made if a call leaves it out
      · by_contra hnot
        exact hunused ⟨formal, v, hjob, hnot, List.mem_map.2 ⟨_, hmem, rfl⟩⟩
    · refine .inr ?_
      rw [c.slots_eq, hslot]
      exact List.mem_map_of_mem hsite
  obtain ⟨part, hpart, hkey⟩ := List.mem_map.1 hkey
  obtain ⟨rfl, rfl⟩ := Prod.mk.inj hkey
  obtain ⟨site', hsite', -, ha', hshows⟩ := hcontents.exists_site h hpart
  have heq : site' = site := List.inj_on_of_nodup_map hapart hsite' hsite (ha'.trans ha.symm)
  exact ⟨part, hpart, rfl, rfl, heq ▸ hshows⟩

end Document

namespace Compilation

/-- The string tables of a compilation agree with its document. -/
structure TablesAgree (p : Program) (c : Catalog) (r : Compilation) : Prop where
  /-- An element of a type with labels has a row with the label of its node. -/
  labels : ∀ library, ∀ n ∈ r.tree.sectionElements library, ∀ type ∈ labelledTypes,
    n.attribute? "Type" = some type.name → ∃ id : ElementId, n.attribute? "Id" = some id.text ∧
      ∃ site ∈ sitesOf (p.walk ++ c.walk), site.type = some type ∧
        site.allocation = some ⟨library, id⟩ ∧ ∃ text, site.label = some text ∧
          r.labels.get? (Allocation.labelKey type ⟨library, id⟩) = some text
  /-- A value that is a text for display has a row with the text of the literal. -/
  values : ∀ library, ∀ n ∈ r.tree.sectionElements library,
    n.attribute? "Type" = some "Param" → n.showsText = true →
      ∃ id : ElementId, n.attribute? "Id" = some id.text ∧
        ∃ site ∈ sitesOf (p.walk ++ c.walk), site.type = some .param ∧
          site.allocation = some ⟨library, id⟩ ∧ ∃ text, site.literal = some text ∧
            r.values.get? (Allocation.valueKey ⟨library, id⟩) = some text
  /-- A label belongs to such an element, unless it is that of a library or that of a node in a default
  value that is not used. -/
  elements_of_labels : ∀ row ∈ r.labels.rows, (∃ name, row.1 = CatalogLibrary.labelKey name) ∨
    ∃ a : Allocation, ∃ type ∈ labelledTypes, row.1 = a.labelKey type ∧
      ((∃ n ∈ r.tree.sectionElements a.library, n.attribute? "Type" = some type.name ∧
        n.attribute? "Id" = some a.id.text) ∨ p.AllocatesUnused a)
  /-- A text belongs to such a value, unless it is that of a literal in a default value that is not
  used. -/
  elements_of_values : ∀ row ∈ r.values.rows, ∃ a : Allocation, row.1 = a.valueKey ∧
    ((∃ n ∈ r.tree.sectionElements a.library, n.attribute? "Type" = some "Param" ∧
      n.attribute? "Id" = some a.id.text ∧ n.showsText = true) ∨ p.AllocatesUnused a)

/-- The tables that are written down while ids are handed out agree with the document that is built
afterwards. -/
lemma tablesAgree_ofTree {p : Program} {c : Catalog} {final : Allocator} {tree : Node}
    (hnumbered : Numbered p c final.ids) (htabulated : Tabulated p c final)
    (hbuild : (Document.build p c).start.1 = .ok tree) : TablesAgree p c (ofTree [] tree final) := by
  obtain ⟨parts, hcontents⟩ := Document.contents_of_build hnumbered hbuild
  have hvalues : (ofTree [] tree final).values = final.values :=
    StringTable.ofRows_rows _
  constructor
  · intro library n hn type hmem hname
    obtain ⟨part, hpart, rfl, rfl⟩ := hcontents.exists_part_of_mem hn
    obtain ⟨site, hsite, htype, ha, -⟩ := hcontents.exists_site hnumbered hpart
    obtain rfl : part.type = type := ElementType.name_injective (Option.some.inj hname)
    obtain ⟨text, htext⟩ := (kind_of_mem_walk site hsite).exists_label hmem htype
    have hrow := Site.labelRow?_eq_some_iff.2 ⟨_, _, _, htype, ha, htext, rfl⟩
    exact ⟨part.id, rfl, site, hsite, htype, ha, text, htext, htabulated.get?_label hsite hrow⟩
  · intro library n hn hname hshown
    obtain ⟨part, hpart, rfl, rfl⟩ := hcontents.exists_part_of_mem hn
    obtain ⟨site, hsite, htype, ha, hshows⟩ := hcontents.exists_site hnumbered hpart
    have hparam : part.type = .param := ElementType.name_injective (Option.some.inj hname)
    rw [Part.showsText, hparam, hshown] at hshows
    obtain ⟨text, htext⟩ := Option.isSome_iff_exists.1 hshows.symm
    have hrow := Site.valueRow?_eq_some_iff.2 ⟨_, _, ha, htext, rfl⟩
    rw [hvalues]
    exact ⟨part.id, rfl, site, hsite, hparam ▸ htype, ha, text, htext,
      htabulated.get?_value hsite hrow⟩
  · intro row hmem
    have hmem : row ∈ tableRows [] (p.walk ++ c.walk) := htabulated.labels ▸ hmem
    refine (exists_of_mem_tableRows hmem).imp_right ?_
    rintro ⟨site, hsite, hrow⟩
    obtain ⟨type, a, text, htype, ha, htext, rfl⟩ := Site.labelRow?_eq_some_iff.1 hrow
    obtain ⟨type', htype', heq⟩ := (kind_of_mem_walk site hsite).type_of_label htext
    obtain rfl : type = type' := Option.some.inj (htype.symm.trans heq)
    refine ⟨a, type, htype', rfl, ?_⟩
    refine (hcontents.exists_part hnumbered htabulated.apart hsite htype ha).imp_left ?_
    rintro ⟨part, hpart, rfl, rfl, -⟩
    exact ⟨part.node, hcontents.node_mem hpart, rfl, rfl⟩
  · intro row hmem
    rw [hvalues, htabulated.values] at hmem
    obtain ⟨site, hsite, hrow⟩ := mem_valueRows_iff.1 hmem
    obtain ⟨a, text, ha, htext, rfl⟩ := Site.valueRow?_eq_some_iff.1 hrow
    have htype := (kind_of_mem_walk site hsite).type_of_literal htext
    refine ⟨a, rfl, ?_⟩
    refine (hcontents.exists_part hnumbered htabulated.apart hsite htype ha).imp_left ?_
    rintro ⟨part, hpart, hparam, rfl, hshows⟩
    have hname : part.node.attribute? "Type" = some part.type.name := rfl
    rw [hparam] at hname
    rw [Part.showsText, hparam, htext] at hshows
    exact ⟨part.node, hcontents.node_mem hpart, hname, rfl, hshows⟩

/-- The string tables and the document agree. Let a program and a catalog compile, with no rows in front
of the literals. Then the tables agree with the document, for the program and the catalog of the two
texts with their slots filled. -/
theorem tables_agree {programText catalogText : String} {r : Compilation}
    (h : (ofSources [] programText catalogText).start.1 = .ok r) :
    ∃ p a c₀ c final, (program programText).start.1 = .ok (p, a) ∧
      (Catalog.ofSource catalogText).start.1 = .ok c₀ ∧
      (a.run (Allocate.catalog c₀)).start.1 = .ok (c, final) ∧ TablesAgree p c r := by
  obtain ⟨p, a, c₀, c, final, tree, hp, hc₀, hc, hbuild, rfl⟩ := ofSources_ok_iff.1 h
  obtain ⟨p₀, hp₀⟩ := exists_run_of_program_ok hp
  exact ⟨p, a, c₀, c, final, hp, hc₀, hc,
    tablesAgree_ofTree (numbered_of_runs hp hc) (Allocate.tabulated hp₀ hc) hbuild⟩

end Compilation

/-! ## Texts in a program -/

namespace Sample

/-- A program with a text in a variable and one in a default value that is not used. -/
def greetingText : String :=
  "import \"B\" \x7b action W = 00000002 (s: text = 00000003 (text\"no\")); \x7d
library \"L\" \x7b text n = text\"hi\"; \x7d"

/-- A catalog that lists the variable in a folder. -/
def greetingFolder : String :=
  "library \"L\" \"M\" \x7b folder \"F\" \x7b n \x7d \x7d"

/-- The program of the text. -/
def greeting : Program where
  scopes :=
    [.import_ ⟨"B",
        [.function ⟨.action, [], "W", ⟨2⟩,
          [⟨[], "s", ⟨"text", []⟩, ⟨3⟩, some ⟨.literal (.text "no"), none⟩, none⟩], .void, none⟩]⟩,
      .library ⟨"L", [.variable ⟨[], ⟨"text", []⟩, "n", ⟨.literal (.text "hi"), none⟩, none⟩]⟩]

/-- The catalog of the text. -/
def greetingCatalog : Catalog :=
  ⟨[⟨"L", "M", [.folder ⟨"F", [.leaf "n"], none⟩]⟩]⟩

lemma greetingText_read : (Program.ofSource greetingText).start.1 = .ok greeting := by
  decide +kernel

lemma greetingFolder_read : (Catalog.ofSource greetingFolder).start.1 = .ok greetingCatalog := by
  decide +kernel

/-- The program with its slots filled. -/
def greetingNumbered : Program × Allocator :=
  (({} : Allocator).run (Allocate.program greeting)).start.1.toOption.get (by decide +kernel)

/-- The catalog, numbered behind the program. -/
def greetingListed : Catalog × Allocator :=
  (greetingNumbered.2.run (Allocate.catalog greetingCatalog)).start.1.toOption.get (by decide +kernel)

/-- The document of the two. -/
def greetingTree : Node :=
  (Document.build greetingNumbered.1 greetingListed.1).start.1.toOption.get (by decide +kernel)

lemma greetingText_numbered :
    (Compilation.program greetingText).start.1 = .ok greetingNumbered := by
  rw [Compilation.start_program, greetingText_read]
  exact eq_ok_get _

lemma greetingListed_ok :
    (greetingNumbered.2.run (Allocate.catalog greetingCatalog)).start.1 = .ok greetingListed :=
  eq_ok_get _

end Sample

namespace Compilation

/-- The library of the sample has three elements. Its tables have rows for all of them, and one for the
text in the default value that is not used. -/
theorem tables_agree_sample :
    ∃ r, (ofSources [] Sample.greetingText Sample.greetingFolder).start.1 = .ok r ∧
      (r.tree.sectionElements "L").length = 3 ∧
      r.labels.rows = [("Variable/Name/lib_L_10000001", "n"), ("Library/Name/L", "M"),
        ("Category/Name/lib_L_10000003", "F")] ∧
      r.values.rows = [("Param/Value/10000001", "no"), ("Param/Value/lib_L_10000002", "hi")] ∧
      TablesAgree Sample.greetingNumbered.1 Sample.greetingListed.1 r := by
  have hr : (ofSources [] Sample.greetingText Sample.greetingFolder).start.1 =
      .ok (ofTree [] Sample.greetingTree Sample.greetingListed.2) :=
    ofSources_ok_iff.2 ⟨_, _, _, _, _, _, Sample.greetingText_numbered, Sample.greetingFolder_read,
      Sample.greetingListed_ok, eq_ok_get _, rfl⟩
  refine ⟨_, hr, by decide +kernel, by decide +kernel, by decide +kernel, ?_⟩
  obtain ⟨p, a, c₀, c, final, hp, hc₀, hc, hagree⟩ := tables_agree hr
  -- the texts determine the program and the catalog
  obtain ⟨rfl, rfl⟩ : p = Sample.greetingNumbered.1 ∧ a = Sample.greetingNumbered.2 :=
    Prod.ext_iff.1 (Except.ok.inj (hp.symm.trans Sample.greetingText_numbered))
  obtain rfl : c₀ = Sample.greetingCatalog :=
    Except.ok.inj (hc₀.symm.trans Sample.greetingFolder_read)
  obtain ⟨rfl, rfl⟩ : c = Sample.greetingListed.1 ∧ final = Sample.greetingListed.2 :=
    Prod.ext_iff.1 (Except.ok.inj (hc.symm.trans Sample.greetingListed_ok))
  exact hagree

end Compilation

end TriggerScript
