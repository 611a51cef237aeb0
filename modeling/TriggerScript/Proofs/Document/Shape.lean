import TriggerScript.Proofs.Document.Nodes

/-!
# The shape of a document

A document has one section for each library that is in use: because a section of the program or of the
catalog bears its name, or because an element is made in it. A section is a root with elements behind it.
The sections of libraries other than the default one are wrapped and stand in front; what belongs to the
default library stands at the top level behind them.

References name the type and the id of an entity, and its library unless that is the default one. Which
entities the references of an element lead to is said by the plan, and those of a root by the catalog and
the definitions that it leaves over (`Document.rootNodes`). All this holds whatever the slots of the
program and the catalog hold (`Document.shape_of_build`).
-/

namespace TriggerScript

namespace Document

/-- A root with elements behind it. -/
def IsSection (nodes : List Node) : Prop :=
  ∃ root elements, nodes = root :: elements ∧ root.tag = "Root" ∧ ∀ e ∈ elements, e.tag = "Element"

/-- An element that is made when the plan of a program and a catalog is followed. -/
def Lowered (p : Program) (c : Catalog) (part : Part) : Prop :=
  ∃ parts done, Makes p [] (wholePlan p c) parts done ∧ part ∈ parts

/-- A library is in use: a section of the program or of the catalog bears its name, or an element is made
in it. -/
def InUse (p : Program) (c : Catalog) (library : String) : Prop :=
  (∃ s ∈ p.libraries, s.library = library) ∨ (∃ l ∈ c.libraries, l.name = library) ∨
    ∃ part, Lowered p c part ∧ part.library = library

/-- The definitions that have not been begun when it is their turn, behind what the catalog lists. -/
def Shown (p : Program) (c : Catalog) (shown : List (String × Definition)) : Prop :=
  ∃ parts done done', Makes p [] (c.libraries.flatMap fun l => itemsPlan p l.items) parts done ∧
    Turns p done p.definitions shown done'

/-- The references in the root of a library: to what the catalog lists under its name, and to its
definitions among `shown`. -/
def rootNodes (p : Program) (c : Catalog) (shown : List (String × Definition)) (library : String) :
    List Node :=
  (c.libraries.filter (·.name = library)).flatMap (fun l => itemsNodes p l.items) ++
    (shown.filter (·.1 = library)).flatMap fun e => slotNodes "Item" e.2.type e.2.allocation

variable {p : Program} {c : Catalog} {pools : Pools} {parts : List Part}
  {items : List (String × Node)}

/-- References are put into the roots of libraries that the program or the catalog names. -/
lemma library_of_mem_wholeItems {item : String × Node} (h : item ∈ wholeItems p c) :
    item.1 ∈ c.libraries.map CatalogLibrary.name ++ p.libraries.map LibraryScope.library := by
  rcases List.mem_append.1 h with h | h
  · obtain ⟨l, hl, h⟩ := List.mem_flatMap.1 h
    obtain ⟨n, -, rfl⟩ := List.mem_map.1 h
    exact List.mem_append_left _ (List.mem_map_of_mem hl)
  · obtain ⟨s, hs, h⟩ := List.mem_flatMap.1 h
    obtain ⟨d, -, h⟩ := List.mem_flatMap.1 h
    obtain ⟨n, -, rfl⟩ := List.mem_map.1 h
    exact List.mem_append_right _ (List.mem_map_of_mem hs)

/-- What has been put under the key of a list is what belongs to the entries with this key. -/
lemma filter_flatMap_key {α β : Type} (key : α → String) (f : α → List β) (xs : List α) (k : String) :
    ((xs.flatMap fun x => (f x).map fun y => (key x, y)).filter (·.1 = k)).map Prod.snd =
      (xs.filter (key · = k)).flatMap f := by
  induction xs with
  | nil => rfl
  | cons x rest ih =>
    rw [List.flatMap_cons, List.filter_append, List.map_append, ih, List.filter_map, List.map_map]
    by_cases hx : key x = k
    · have hall : (f x).filter ((fun y => decide (y.1 = k)) ∘ fun y => (key x, y)) = f x :=
        List.filter_eq_self.2 fun y _ => by simp [hx]
      rw [hall, List.filter_cons_of_pos (by simp [hx]), List.flatMap_cons]
      congr 1
      exact List.map_id' (f x)
    · have hnone : (f x).filter ((fun y => decide (y.1 = k)) ∘ fun y => (key x, y)) = [] :=
        List.filter_eq_nil_iff.2 fun y _ => by simp [hx]
      rw [hnone, List.filter_cons_of_neg (by simp [hx])]
      rfl

namespace Composition

lemma lowered_iff (h : Composition p c pools parts items) {part : Part} :
    Lowered p c part ↔ part ∈ parts := by
  obtain ⟨done, hmakes⟩ := h.makes
  constructor
  · rintro ⟨parts', done', hmakes', hpart⟩
    obtain ⟨rfl, -⟩ := hmakes.unique hmakes'
    exact hpart
  · exact fun hpart => ⟨parts, done, hmakes, hpart⟩

/-- The libraries with pools are those in use. -/
lemma mem_libraries_iff (h : Composition p c pools parts items) {library : String} :
    library ∈ pools.libraries ↔ InUse p c library := by
  have hnamed : library ∈ c.libraries.map CatalogLibrary.name ++
      p.libraries.map LibraryScope.library → InUse p c library := by
    intro hmem
    rcases List.mem_append.1 hmem with hmem | hmem
    · exact .inr (.inl (List.mem_map.1 hmem))
    · exact .inl (List.mem_map.1 hmem)
  rw [h.grows.libraries]
  constructor
  · rintro (hmem | hmem | hmem | hmem)
    · exact (List.not_mem_nil hmem).elim
    · obtain ⟨part, hpart, rfl⟩ := List.mem_map.1 hmem
      exact .inr (.inr ⟨part, h.lowered_iff.2 hpart, rfl⟩)
    · obtain ⟨item, hitem, rfl⟩ := List.mem_map.1 hmem
      exact hnamed (library_of_mem_wholeItems (h.items_subset hitem))
    · exact hnamed hmem
  · rintro (hmem | hmem | ⟨part, hpart, rfl⟩)
    · exact .inr (.inr (.inr (List.mem_append_right _ (List.mem_map.2 hmem))))
    · exact .inr (.inr (.inr (List.mem_append_left _ (List.mem_map.2 hmem))))
    · exact .inr (.inl (List.mem_map_of_mem (h.lowered_iff.1 hpart)))

lemma exists_shown (h : Composition p c pools parts items) :
    ∃ shown, Shown p c shown ∧ ∀ library, pools.roots library = rootNodes p c shown library := by
  obtain ⟨parts₁, done₁, shown, done, hmakes, hturns, rfl⟩ := h.turns
  refine ⟨shown, ⟨parts₁, done₁, done, hmakes, hturns⟩, fun library => ?_⟩
  have hempty : Pools.roots [] library = [] := rfl
  rw [h.grows.roots, hempty, List.nil_append, List.filter_append, List.map_append]
  exact congrArg₂ (· ++ ·)
    (filter_flatMap_key CatalogLibrary.name (fun l => itemsNodes p l.items) c.libraries library)
    (filter_flatMap_key Prod.fst (fun e : String × Definition =>
      slotNodes "Item" e.2.type e.2.allocation) shown library)

/-- The pool of a library makes a section. -/
lemma isSection (h : Composition p c pools parts items) {q : LibraryPool} (hq : q ∈ pools) :
    IsSection (root q :: q.elements) := by
  refine ⟨root q, q.elements, rfl, rfl, fun e he => ?_⟩
  obtain ⟨part, -, rfl⟩ := exists_part_of_mem_elements h.nodup h.places hq he
  rfl

end Composition

/-- The parts of a document that are wrapped. -/
def wrappers (pools : Pools) : List Node :=
  (pools.filter (·.library ≠ defaultLibrary)).map libraryNode

/-- The part of a document that stands at the top level. -/
def topLevel (pools : Pools) : List Node :=
  (pools.filter (·.library = defaultLibrary)).flatMap fun q => root q :: q.elements

lemma children_ofPools (pools : Pools) : (ofPools pools).children = wrappers pools ++ topLevel pools :=
  rfl

lemma exists_wrapper_iff {library : String} (hlibrary : library ≠ defaultLibrary) :
    (∃ w ∈ wrappers pools, w.attribute? "Id" = some library) ↔ library ∈ pools.libraries := by
  have hid : ∀ q, (libraryNode q).attribute? "Id" = some q.library := fun _ => rfl
  rw [wrappers, Pools.libraries]
  constructor
  · rintro ⟨w, hw, hwid⟩
    obtain ⟨q, hq, rfl⟩ := List.mem_map.1 hw
    rw [hid, Option.some.injEq] at hwid
    exact List.mem_map.2 ⟨q, (List.mem_filter.1 hq).1, hwid⟩
  · intro hmem
    obtain ⟨q, hq, rfl⟩ := List.mem_map.1 hmem
    exact ⟨_, List.mem_map_of_mem (List.mem_filter.2 ⟨hq, by simpa using hlibrary⟩), hid q⟩

lemma topLevel_ne_nil_iff : topLevel pools ≠ [] ↔ defaultLibrary ∈ pools.libraries := by
  rw [topLevel, Pools.libraries, ne_eq, List.flatMap_eq_nil_iff]
  simp

lemma Composition.topLevel_cases (h : Composition p c pools parts items) :
    topLevel pools = [] ∨ IsSection (topLevel pools) := by
  rw [topLevel, Pools.filter_library h.nodup]
  rcases hq : pools.get? defaultLibrary with _ | q
  · exact .inl rfl
  · have hmem : q ∈ pools := List.mem_of_find?_eq_some hq
    rw [Option.toList_some, List.flatMap_singleton]
    exact .inr (h.isSection hmem)

lemma nodup_wrappers (h : pools.libraries.Nodup) :
    ((wrappers pools).map fun w => w.attribute? "Id").Nodup := by
  have hids : (wrappers pools).map (fun w => w.attribute? "Id") =
      ((pools.filter (·.library ≠ defaultLibrary)).map LibraryPool.library).map some := by
    rw [wrappers, List.map_map, List.map_map]
    rfl
  rw [hids]
  exact (h.sublist (List.filter_sublist.map _)).map fun _ _ => Option.some.inj

/-- The default library is written down in no inner node. -/
lemma not_mem_attributes_inner {Target : ElementType → Allocation → Prop} {n : Node}
    (h : n.Inner Target) : ("Library", defaultLibrary) ∉ n.attributes := by
  have hwritten : ∀ (a : Allocation) type, ("Library", defaultLibrary) ∉ a.written type := by
    intro a type
    rw [Allocation.written]
    split_ifs with hlibrary
    · simp
    · simp [defaultLibrary, Ne.symm hlibrary]
  cases h with
  | @reference _ type a _ _ => exact hwritten a type
  | @dimension index type a _ => simpa using hwritten a type
  | plain _ hkeys =>
    have hplain : ∀ keys ∈ Node.plainKeys, "Library" ∉ keys := by decide
    exact fun hmem => hplain _ hkeys (List.mem_map_of_mem hmem)

/-- The shape of a document, whatever the slots of the program and the catalog hold. First come the
wrapped sections of the libraries other than the default one that are in use, one for each, and then, if
the default library is in use, its section. No node names the default library.

Each node inside an element or a root refers to an entity by the type, the id and the library of that
entity, or it refers to nothing. Which entities these are is said by the plan: the elements of a section
are those that the plan makes in its library, with the references that the plan gives them, and its root
refers to what the catalog lists under the name of the library and to its remaining definitions. -/
theorem shape_of_build {tree : Node} (hbuild : (build p c).start.1 = .ok tree) :
    tree.tag = "TriggerData" ∧ tree.attributes = [] ∧
      (∃ wrapped top, tree.children = wrapped ++ top ∧
        (∀ w ∈ wrapped, w.tag = "Library" ∧ (∃ l ≠ defaultLibrary, w.attributes = [("Id", l)]) ∧
          IsSection w.children) ∧
        (wrapped.map fun w => w.attribute? "Id").Nodup ∧
        (∀ l ≠ defaultLibrary, (∃ w ∈ wrapped, w.attribute? "Id" = some l) ↔ InUse p c l) ∧
        (top = [] ∨ IsSection top) ∧ (top ≠ [] ↔ InUse p c defaultLibrary)) ∧
      (∀ n ∈ tree.descendants, ("Library", defaultLibrary) ∉ n.attributes) ∧
      (∀ n ∈ tree.descendants, n.tag ∈ ["Library", "Root", "Element"] ∨ n.Inner (Entity p c)) ∧
      (∃ parts done, Makes p [] (wholePlan p c) parts done ∧
        ∀ l, tree.sectionElements l = (parts.filter (·.library = l)).map Part.node) ∧
      ∃ shown, Shown p c shown ∧
        ∀ l, ∀ root ∈ tree.sectionRoots l, root.children = rootNodes p c shown l := by
  obtain ⟨pools, parts, items, rfl, h⟩ := composition_of_build hbuild
  refine ⟨rfl, rfl, ⟨wrappers pools, topLevel pools, children_ofPools pools, ?_, nodup_wrappers h.nodup,
    ?_, ?_, ?_⟩, ?_, ?_, ?_, ?_⟩
  · intro w hw
    obtain ⟨q, hq, rfl⟩ := List.mem_map.1 hw
    obtain ⟨hq, hlibrary⟩ := List.mem_filter.1 hq
    exact ⟨rfl, ⟨q.library, by simpa using hlibrary, rfl⟩, h.isSection hq⟩
  · intro l hl
    rw [exists_wrapper_iff hl, h.mem_libraries_iff]
  · exact h.topLevel_cases
  · rw [topLevel_ne_nil_iff, h.mem_libraries_iff]
  · refine h.forall_nodes ?_ ?_ ?_ fun n hn => not_mem_attributes_inner hn
    · simp [libraryNode]
    · simp [root]
    · simp [Part.node]
  · refine h.forall_nodes ?_ ?_ ?_ fun n hn => .inr hn
    · simp [libraryNode]
    · simp [root]
    · simp [Part.node]
  · obtain ⟨done, hmakes⟩ := h.makes
    exact ⟨parts, done, hmakes, sectionElements_ofPools h.nodup h.places⟩
  · obtain ⟨shown, hshown, hroots⟩ := h.exists_shown
    refine ⟨shown, hshown, fun l r hr => ?_⟩
    rw [sectionRoots_ofPools h.nodup h.places] at hr
    obtain ⟨q, hq, rfl⟩ := List.mem_map.1 hr
    rw [← hroots, Pools.roots, Pools.pool, Option.mem_toList.1 hq]
    rfl

end Document

namespace Sample

/-- A program with allocations of libraries that it does not name. -/
def scattered : Program :=
  ⟨[.library ⟨"Tools",
    [.variable ⟨[], ⟨"int", []⟩, "speed", ⟨.literal (.int 1), some ⟨"0", ⟨5⟩⟩⟩, some ⟨"Far", ⟨5⟩⟩⟩]⟩]⟩

/-- A catalog that lists the variable of the program in yet another library. -/
def scatteredListing : Catalog :=
  ⟨[⟨"Misc", "Misc", [.leaf "speed"]⟩]⟩

/-- The document of the program and the catalog. -/
def scatteredDocument : Node :=
  (Document.build scattered scatteredListing).start.1.toOption.get (by decide +kernel)

end Sample

/-- Elements put two libraries in use that are named nowhere, one of them the default one. The root of
the library in which the variable is listed refers to it, and names its library. -/
theorem Document.shape_of_build_sample :
    (build Sample.scattered Sample.scatteredListing).start.1 = .ok Sample.scatteredDocument ∧
      InUse Sample.scattered Sample.scatteredListing "Far" ∧
      InUse Sample.scattered Sample.scatteredListing defaultLibrary ∧
      (∀ n ∈ Sample.scatteredDocument.descendants, ("Library", defaultLibrary) ∉ n.attributes) ∧
      ∃ shown, Shown Sample.scattered Sample.scatteredListing shown ∧
        ∃ root ∈ Sample.scatteredDocument.sectionRoots "Misc",
          root.children = rootNodes Sample.scattered Sample.scatteredListing shown "Misc" ∧
          root.children = [{ tag := "Item",
                             attributes := [("Type", "Variable"), ("Id", "00000005"),
                               ("Library", "Far")] }] := by
  have hbuild : (build Sample.scattered Sample.scatteredListing).start.1 =
      .ok Sample.scatteredDocument := eq_ok_get _
  obtain ⟨-, -, ⟨wrapped, top, hchildren, hwrapped, -, huse, htop, htop'⟩, hdefault, -, -, shown, hshown,
    hroots⟩ := shape_of_build hbuild
  have hfar : ∃ w ∈ wrapped ++ top, w.tag = "Library" ∧ w.attribute? "Id" = some "Far" := by
    rw [← hchildren]
    decide +kernel
  have hroot : ∃ w ∈ wrapped ++ top, w.tag = "Root" := by
    rw [← hchildren]
    decide +kernel
  refine ⟨hbuild, ?_, ?_, hdefault, shown, hshown, ?_⟩
  · obtain ⟨w, hw, htag, hid⟩ := hfar
    rcases List.mem_append.1 hw with hw | hw
    · exact (huse "Far" (by decide)).1 ⟨w, hw, hid⟩
    · obtain rfl | ⟨root, elements, rfl, hroot', helements⟩ := htop
      · exact (List.not_mem_nil hw).elim
      · rcases List.mem_cons.1 hw with rfl | hw
        · simp [htag] at hroot'
        · exact absurd (helements w hw) (by simp [htag])
  · obtain ⟨w, hw, htag⟩ := hroot
    rcases List.mem_append.1 hw with hw | hw
    · have hlibrary := (hwrapped w hw).1
      simp [htag] at hlibrary
    · exact htop'.1 (List.ne_nil_of_mem hw)
  · obtain ⟨root, hroot, hitem⟩ : ∃ root ∈ Sample.scatteredDocument.sectionRoots "Misc",
        root.children = [{ tag := "Item",
                           attributes := [("Type", "Variable"), ("Id", "00000005"),
                             ("Library", "Far")] }] := by
      decide +kernel
    exact ⟨root, hroot, hroots "Misc" root hroot, hitem⟩

end TriggerScript
