import TriggerScript.Proofs.Document.Acceptance
import TriggerScript.Proofs.Document.Elements
import TriggerScript.Proofs.Runs

/-!
# Catalogs only order and group

A catalog decides in which order definitions are made and how they are grouped in folders. It decides
neither whether a program can be compiled nor what its elements are: two catalogs that list only what
a program has lead to the same elements, apart from those of the folders
(`Compilation.elements_of_catalogs`).

Both halves follow from what a document holds. A definition, and a default value that is used, has its
elements from its plan, and the plan does not mention the catalog.
-/

namespace TriggerScript

namespace Node

/-- The elements of a library in a document that are no folders. -/
def definitionElements (tree : Node) (library : String) : List Node :=
  (tree.sectionElements library).filter (·.attribute? "Type" ≠ some ElementType.category.name)

end Node

/-- Whether something can be listed is read off its kind. -/
instance Entry.decidableListable : (e : Entry) → Decidable e.Listable
  | .preset q => inferInstanceAs (Decidable (¬q.isExternal))
  | .trigger _ => inferInstanceAs (Decidable True)
  | .callable _ => inferInstanceAs (Decidable True)
  | .global _ => inferInstanceAs (Decidable True)

/-- Whether a name can be listed is seen by looking it up. -/
instance Program.decidableLists (p : Program) (name : String) : Decidable (p.Lists name) :=
  match h : p.listed? name with
  | none => isFalse (by simp [Lists, h])
  | some e => decidable_of_iff e.Listable (by simp [Lists, h])

/-! ## What numbering leaves as it is -/

namespace Allocate

mutual

lemma item_leaves {library : String} {s s' : Allocating} : ∀ (i : CatalogItem) {i' : CatalogItem},
    item library i s = .ok i' s' → i'.leaves = i.leaves
  | .leaf name, i', h => by
    obtain ⟨rfl, rfl⟩ := pure_ok_iff.1 h
    rfl
  | .folder f, i', h => by
    simp only [item, bind_ok_iff, pure_ok_iff] at h
    obtain ⟨f', s₁, hf, rfl, rfl⟩ := h
    rw [CatalogItem.leaves, CatalogItem.leaves]
    exact folder_leaves f hf

lemma folder_leaves {library : String} {s s' : Allocating} : ∀ (f : Folder) {f' : Folder},
    folder library f s = .ok f' s' → f'.leaves = f.leaves
  | ⟨description, entries, _⟩, f', h => by
    simp only [folder, bind_ok_iff, pure_ok_iff] at h
    obtain ⟨a, s₁, hnext, _, s₂, hlabel, entries', s₃, hentries, rfl, rfl⟩ := h
    rw [Folder.leaves, Folder.leaves]
    exact items_leaves entries hentries

lemma items_leaves {library : String} {s s' : Allocating} :
    ∀ (is : List CatalogItem) {is' : List CatalogItem},
      items library is s = .ok is' s' → itemsLeaves is' = itemsLeaves is
  | [], is', h => by
    obtain ⟨rfl, rfl⟩ := pure_ok_iff.1 h
    rfl
  | i :: rest, is', h => by
    simp only [items, bind_ok_iff, pure_ok_iff] at h
    obtain ⟨i', s₁, hi, rest', s₂, hrest, rfl, rfl⟩ := h
    rw [itemsLeaves, itemsLeaves, item_leaves i hi, items_leaves rest hrest]

end

lemma catalogLibrary_leaves {l l' : CatalogLibrary} {s s' : Allocating}
    (h : catalogLibrary l s = .ok l' s') : itemsLeaves l'.items = itemsLeaves l.items := by
  obtain ⟨s₁, items', -, hitems, rfl⟩ := catalogLibrary_ok h
  exact items_leaves _ hitems

/-- A catalog lists the same names before and after its slots are filled. -/
lemma catalog_leaves {c c' : Catalog} {s s' : Allocating} (h : catalog c s = .ok c' s') :
    c'.leaves = c.leaves := by
  simp only [catalog, libraries, bind_ok_iff, pure_ok_iff] at h
  obtain ⟨n, s₁, -, _, s₂, ⟨libraries', _, hlibraries, rfl, rfl⟩, _, s₃, -, rfl, -⟩ := h
  rw [Catalog.leaves, Catalog.leaves, List.flatMap_def, List.flatMap_def,
    map_eq_of_mapM_ok (fun _ _ _ _ => catalogLibrary_leaves) hlibraries]

end Allocate

namespace Document

variable {p : Program} {c c' : Catalog} {ids ids' : Counters}

/-! ## Two documents of one program -/

/-- A document can be built if its program and catalog are well-formed. -/
lemma exists_build_of_wellFormed (h : Numbered p c ids) (hwf : WellFormed p c) :
    ∃ tree, (build p c).start.1 = .ok tree := by
  obtain ⟨u, s, hall⟩ := Lower.all_succeeds h hwf {}
  exact ⟨ofPools s.pools, build_ok_iff.2 ⟨u, s, hall, rfl⟩⟩

/-- If a program has a document with one catalog, it has one with every other catalog that lists only
what the program has. -/
lemma exists_build_of_exists_build (h : Numbered p c ids) (h' : Numbered p c' ids')
    (hleaves : ∀ name ∈ c'.leaves, p.Lists name) (hbuild : ∃ tree, (build p c).start.1 = .ok tree) :
    ∃ tree, (build p c').start.1 = .ok tree := by
  obtain ⟨tree, hbuild⟩ := hbuild
  obtain ⟨parts, hcontents⟩ := contents_of_build h hbuild
  have hwf : WellFormed p c := hcontents.wellFormed_program
  exact exists_build_of_wellFormed h' ⟨hleaves, hwf.definitions, hwf.defaults⟩

lemma ElementType.name_eq_category {type : ElementType} :
    type.name = ElementType.category.name ↔ type = .category := by
  cases type <;> decide

/-- The elements that are no folders, in terms of what a document holds. -/
lemma Contents.definitionElements {tree : Node} {parts : List Part}
    (hcontents : Contents p c tree parts) (library : String) :
    tree.definitionElements library =
      ((parts.filter (·.library = library)).filter (·.type ≠ .category)).map Part.node := by
  rw [Node.definitionElements, hcontents.sections, List.filter_map]
  congr 1
  refine List.filter_congr fun part _ => ?_
  have htype : part.node.attribute? "Type" = some part.type.name := rfl
  simp only [Function.comp_apply, htype, ne_eq, Option.some.injEq, ElementType.name_eq_category]

/-- The catalog has no part in the elements that are no folders. -/
lemma Contents.mem_parts_iff {tree : Node} {parts : List Part} (hcontents : Contents p c tree parts)
    {part : Part} (htype : part.type ≠ .category) :
    part ∈ parts ↔ ∃ job, p.Lowers job ∧ .part part ∈ job.plan p := by
  rw [hcontents.mem_parts]
  constructor
  · rintro (hpart | hpart)
    · -- an element of the plan of the catalog is that of a folder
      have hkey : part.key ∈ c.slots.filterMap Slot.key? := by
        rw [← wholePlan_keys p]
        exact List.mem_map_of_mem (mem_planParts.2 hpart)
      have hslot : ⟨some part.type, some part.allocation⟩ ∈ c.slots := mem_filterMap_key?.1 hkey
      obtain ⟨l, -, hslot⟩ := List.mem_flatMap.1 hslot
      have hcategory := type_of_mem_itemsSlots l.items _ hslot
      simp only [Option.some.injEq] at hcategory
      exact (htype hcategory).elim
    · exact hpart
  · exact .inr

/-- Two documents of one program have the same elements, apart from those of folders. -/
lemma definitionElements_perm (h : Numbered p c ids) (h' : Numbered p c' ids') {tree tree' : Node}
    (hbuild : (build p c).start.1 = .ok tree) (hbuild' : (build p c').start.1 = .ok tree')
    (library : String) : (tree.definitionElements library).Perm (tree'.definitionElements library) := by
  obtain ⟨parts, hcontents⟩ := contents_of_build h hbuild
  obtain ⟨parts', hcontents'⟩ := contents_of_build h' hbuild'
  rw [hcontents.definitionElements, hcontents'.definitionElements]
  apply List.Perm.map
  have hnodup := (hcontents.nodup.of_map.filter (·.library = library)).filter (·.type ≠ .category)
  have hnodup' := (hcontents'.nodup.of_map.filter (·.library = library)).filter (·.type ≠ .category)
  rw [List.perm_ext_iff_of_nodup hnodup hnodup']
  intro part
  simp only [List.mem_filter, decide_eq_true_eq]
  constructor
  · rintro ⟨⟨hpart, hlibrary⟩, htype⟩
    exact ⟨⟨(hcontents'.mem_parts_iff htype).2 ((hcontents.mem_parts_iff htype).1 hpart), hlibrary⟩,
      htype⟩
  · rintro ⟨⟨hpart, hlibrary⟩, htype⟩
    exact ⟨⟨(hcontents.mem_parts_iff htype).2 ((hcontents'.mem_parts_iff htype).1 hpart), hlibrary⟩,
      htype⟩

end Document

namespace Compilation

/-! ## Two compilations of one program -/

variable {preamble : List (String × String)} {programText catalogText catalogText' : String}
  {p : Program} {a : Allocator} {c c' : Catalog}

/-- The program of a source text has been numbered by a fresh allocator. -/
lemma exists_run_of_program_ok (h : (program programText).start.1 = .ok (p, a)) :
    ∃ p₀, (({} : Allocator).run (Allocate.program p₀)).start.1 = .ok (p, a) := by
  rw [start_program] at h
  rcases hp : (Program.ofSource programText).start.1 with e | p₀
  · rw [hp] at h
    cases h
  · rw [hp] at h
    exact ⟨p₀, h⟩

/-- What has been gone through when a compilation is put together. -/
lemma assemble_ok_iff {r : Compilation} : (assemble preamble p a c).start.1 = .ok r ↔
    ∃ c₁ a₁ tree, (a.run (Allocate.catalog c)).start.1 = .ok (c₁, a₁) ∧
      (Document.build p c₁).start.1 = .ok tree ∧ ofTree preamble tree a₁ = r := by
  rw [start_assemble]
  rcases (a.run (Allocate.catalog c)).start.1 with e | ⟨c₁, a₁⟩
  · simp [Except.bind]
  rcases hbuild : (Document.build p c₁).start.1 with e | tree
  · simp [Except.bind, hbuild, Except.mapError]
  · simp [Except.bind, hbuild, Except.mapError]

/-- What a successful compilation has gone through. -/
lemma ofSources_ok_iff {r : Compilation} :
    (ofSources preamble programText catalogText).start.1 = .ok r ↔
      ∃ p a c c₁ a₁ tree, (program programText).start.1 = .ok (p, a) ∧
        (Catalog.ofSource catalogText).start.1 = .ok c ∧
        (a.run (Allocate.catalog c)).start.1 = .ok (c₁, a₁) ∧
        (Document.build p c₁).start.1 = .ok tree ∧ ofTree preamble tree a₁ = r := by
  rw [start_ofSources]
  rcases (program programText).start.1 with e | ⟨p, a⟩
  · simp [Except.bind]
  rcases (Catalog.ofSource catalogText).start.1 with e | c
  · simp [Except.bind]
  · simp [Except.bind, assemble_ok_iff]

/-- A numbered program with a catalog numbered behind it. -/
lemma numbered_of_runs {c₁ : Catalog} {a₁ : Allocator}
    (hp : (program programText).start.1 = .ok (p, a))
    (hc : (a.run (Allocate.catalog c)).start.1 = .ok (c₁, a₁)) : Numbered p c₁ a₁.ids := by
  obtain ⟨p₀, hp₀⟩ := exists_run_of_program_ok hp
  exact Allocated.numbered ⟨p₀, c, a, hp₀, hc⟩

/-- If a program compiles with one catalog, it compiles with every other one that lists only what the
program has and whose folders get ids. -/
lemma succeeds_of_succeeds (hc' : (Catalog.ofSource catalogText').start.1 = .ok c')
    (hleaves : ∀ p a, (program programText).start.1 = .ok (p, a) → ∀ name ∈ c'.leaves, p.Lists name)
    (hids : ∀ p a, (program programText).start.1 = .ok (p, a) →
      (a.run (Allocate.catalog c')).start.1 ≠ .error .counter)
    (h : ∃ r, (ofSources preamble programText catalogText).start.1 = .ok r) :
    ∃ r, (ofSources preamble programText catalogText').start.1 = .ok r := by
  obtain ⟨r, h⟩ := h
  obtain ⟨p, a, c, c₁, a₁, tree, hp, -, hrun, hbuild, -⟩ := ofSources_ok_iff.1 h
  -- numbering a catalog can only fail because of a counter
  obtain ⟨c₁', a₁', hrun'⟩ : ∃ c₁' a₁', (a.run (Allocate.catalog c')).start.1 = .ok (c₁', a₁') := by
    rcases hrun' : (a.run (Allocate.catalog c')).start.1 with e | ⟨c₁', a₁'⟩
    · exact (hids p a hp (hrun'.trans (congrArg _ (Allocator.run_start_error hrun')))).elim
    · exact ⟨c₁', a₁', rfl⟩
  obtain ⟨s, hs, -⟩ := Allocator.run_start_ok hrun'
  have hlisted : ∀ name ∈ c₁'.leaves, p.Lists name := by
    rw [Allocate.catalog_leaves hs]
    exact hleaves p a hp
  obtain ⟨tree', hbuild'⟩ := Document.exists_build_of_exists_build (numbered_of_runs hp hrun)
    (numbered_of_runs hp hrun') hlisted ⟨tree, hbuild⟩
  exact ⟨_, ofSources_ok_iff.2 ⟨p, a, c', c₁', a₁', tree', hp, hc', hrun', hbuild', rfl⟩⟩

/-- The catalog only orders and groups. Let two catalogs list only what a program has, without imported
presets, and let the counters have ids for their folders. Then the program compiles with the one if and
only if it compiles with the other, and if it does, each library has the same elements, apart from
those of folders and from their order. -/
theorem elements_of_catalogs (hc : (Catalog.ofSource catalogText).start.1 = .ok c)
    (hc' : (Catalog.ofSource catalogText').start.1 = .ok c')
    (hleaves : ∀ p a, (program programText).start.1 = .ok (p, a) →
      ∀ name ∈ c.leaves ++ c'.leaves, p.Lists name)
    (hids : ∀ p a, (program programText).start.1 = .ok (p, a) →
      (a.run (Allocate.catalog c)).start.1 ≠ .error .counter ∧
        (a.run (Allocate.catalog c')).start.1 ≠ .error .counter) :
    ((∃ r, (ofSources preamble programText catalogText).start.1 = .ok r) ↔
        ∃ r, (ofSources preamble programText catalogText').start.1 = .ok r) ∧
      ∀ r r', (ofSources preamble programText catalogText).start.1 = .ok r →
        (ofSources preamble programText catalogText').start.1 = .ok r' →
        ∀ library, (r.tree.definitionElements library).Perm (r'.tree.definitionElements library) := by
  refine ⟨⟨?_, ?_⟩, ?_⟩
  · exact succeeds_of_succeeds hc'
      (fun p a hp name hname => hleaves p a hp name (List.mem_append_right _ hname))
      (fun p a hp => (hids p a hp).2)
  · exact succeeds_of_succeeds hc
      (fun p a hp name hname => hleaves p a hp name (List.mem_append_left _ hname))
      (fun p a hp => (hids p a hp).1)
  · intro r r' h h' library
    obtain ⟨p, a, _, c₁, a₁, tree, hp, -, hrun, hbuild, rfl⟩ := ofSources_ok_iff.1 h
    obtain ⟨p', a', _, c₁', a₁', tree', hp', -, hrun', hbuild', rfl⟩ := ofSources_ok_iff.1 h'
    obtain ⟨rfl, rfl⟩ := Prod.mk.inj (Except.ok.inj (hp.symm.trans hp'))
    exact Document.definitionElements_perm (numbered_of_runs hp hrun) (numbered_of_runs hp' hrun')
      hbuild hbuild' library

end Compilation

/-! ## A program with two catalogs -/

namespace Sample

/-- The catalog with a folder, numbered behind the program. -/
def folderNumbered : Catalog × Allocator :=
  (writtenNumbered.2.run (Allocate.catalog folderCatalog)).start.1.toOption.get (by decide +kernel)

/-- The catalog without a folder, numbered behind the program. -/
def plainNumbered : Catalog × Allocator :=
  (writtenNumbered.2.run (Allocate.catalog plainCatalog)).start.1.toOption.get (by decide +kernel)

lemma folderNumbered_ok :
    (writtenNumbered.2.run (Allocate.catalog folderCatalog)).start.1 = .ok folderNumbered :=
  eq_ok_get _

lemma plainNumbered_ok :
    (writtenNumbered.2.run (Allocate.catalog plainCatalog)).start.1 = .ok plainNumbered :=
  eq_ok_get _

/-- The document of the program and the catalog with a folder. -/
def folderTree : Node :=
  (Document.build writtenNumbered.1 folderNumbered.1).start.1.toOption.get (by decide +kernel)

/-- The document of the program and the catalog without a folder. -/
def plainTree : Node :=
  (Document.build writtenNumbered.1 plainNumbered.1).start.1.toOption.get (by decide +kernel)

end Sample

namespace Compilation

/-- With either catalog the sample compiles. Its default library has six elements that are no folders,
in two different orders. -/
theorem elements_of_catalogs_sample :
    ∃ r r', (ofSources [] Sample.programText Sample.folderText).start.1 = .ok r ∧
      (ofSources [] Sample.programText Sample.plainText).start.1 = .ok r' ∧
      (r.tree.definitionElements defaultLibrary).length = 6 ∧
      r.tree.definitionElements defaultLibrary ≠ r'.tree.definitionElements defaultLibrary ∧
      (r.tree.definitionElements defaultLibrary).Perm (r'.tree.definitionElements defaultLibrary) := by
  have hprogram : ∀ p a, (program Sample.programText).start.1 = .ok (p, a) →
      p = Sample.writtenNumbered.1 ∧ a = Sample.writtenNumbered.2 := fun p a hp =>
    Prod.ext_iff.1 (Except.ok.inj (hp.symm.trans Sample.programText_numbered))
  have hlists : ∀ name ∈ Sample.folderCatalog.leaves ++ Sample.plainCatalog.leaves,
      Sample.writtenNumbered.1.Lists name := by decide +kernel
  have hresult := @elements_of_catalogs [] _ _ _ _ _ Sample.folderText_read Sample.plainText_read
    (fun p a hp => (hprogram p a hp).1 ▸ hlists)
    (fun p a hp => by
      rw [(hprogram p a hp).2, Sample.folderNumbered_ok, Sample.plainNumbered_ok]
      exact ⟨nofun, nofun⟩)
  have hfolder : (ofSources [] Sample.programText Sample.folderText).start.1 =
      .ok (ofTree [] Sample.folderTree Sample.folderNumbered.2) :=
    ofSources_ok_iff.2 ⟨_, _, _, _, _, _, Sample.programText_numbered, Sample.folderText_read,
      Sample.folderNumbered_ok, eq_ok_get _, rfl⟩
  have hplain : (ofSources [] Sample.programText Sample.plainText).start.1 =
      .ok (ofTree [] Sample.plainTree Sample.plainNumbered.2) :=
    ofSources_ok_iff.2 ⟨_, _, _, _, _, _, Sample.programText_numbered, Sample.plainText_read,
      Sample.plainNumbered_ok, eq_ok_get _, rfl⟩
  exact ⟨_, _, hfolder, hplain, by decide +kernel, by decide +kernel,
    hresult.2 _ _ hfolder hplain defaultLibrary⟩

end Compilation

end TriggerScript
