import TriggerScript.Proofs.Lowering.Sound

/-!
# What making a whole document does when it succeeds

The entries of a catalog have plans like definitions have: a folder becomes an element, and what a
name lists is a job. If everything is lowered then the plan of the whole has been followed, that is,
the plan of the catalog and behind it the jobs of all definitions (`Lower.all_ok`). Which definitions
are then referred to in roots is said by `Turns`.
-/

namespace TriggerScript

/-! ## The plans of catalogs -/

namespace Entry

/-- The reference to what is listed. -/
def nodes : Entry → List Node
  | .trigger d => slotNodes "Item" .trigger d.allocation
  | .callable f => slotNodes "Item" .functionDef f.allocation
  | .preset (.library d) => slotNodes "Item" .preset d.allocation
  | .preset (.external _) => []
  | .global g => slotNodes "Item" .variable g.allocation

/-- The job of what is listed. There is none for what is imported. -/
def jobs : Entry → List Job
  | .trigger d => [.definition (.trigger d)]
  | .callable (.library d) => [.definition (.function d)]
  | .preset (.library d) => [.definition (.preset d)]
  | .global (.library d) => [.definition (.variable d)]
  | _ => []

end Entry

/-- The reference to an entry of a catalog. -/
def CatalogItem.nodes (p : Program) : CatalogItem → List Node
  | .leaf name => (p.listed? name).elim [] Entry.nodes
  | .folder f => slotNodes "Item" .category f.allocation

/-- The references to entries of a catalog. -/
def itemsNodes (p : Program) (items : List CatalogItem) : List Node :=
  items.flatMap (CatalogItem.nodes p)

lemma itemsNodes_cons (p : Program) (i : CatalogItem) (rest : List CatalogItem) :
    itemsNodes p (i :: rest) = i.nodes p ++ itemsNodes p rest :=
  List.flatMap_cons

mutual

/-- The plan of an entry of a catalog. -/
def CatalogItem.plan (p : Program) : CatalogItem → List PlanStep
  | .leaf name => ((p.listed? name).elim [] Entry.jobs).map .job
  | .folder f => f.plan p

/-- The plan of a folder. -/
def Folder.plan (p : Program) : Folder → List PlanStep
  | ⟨_, entries, allocation⟩ =>
    slotPart .category allocation (itemsNodes p entries) ++ itemsPlan p entries

/-- The plan of entries. -/
def itemsPlan (p : Program) : List CatalogItem → List PlanStep
  | [] => []
  | i :: rest => i.plan p ++ itemsPlan p rest

end

/-- The jobs of definitions. -/
def definitionsPlan (definitions : List Definition) : List PlanStep :=
  definitions.map fun d => .job (.definition d)

/-- The plan of a catalog and behind it the jobs of all definitions of a program. -/
def wholePlan (p : Program) (c : Catalog) : List PlanStep :=
  c.libraries.flatMap (fun l => itemsPlan p l.items) ++
    p.libraries.flatMap fun l => definitionsPlan l.definitions

/-- The references to a catalog and to all definitions of a program, with the libraries whose roots
they belong to. -/
def wholeItems (p : Program) (c : Catalog) : List (String × Node) :=
  c.libraries.flatMap (fun l => (itemsNodes p l.items).map fun n => (l.name, n)) ++
    p.libraries.flatMap fun l =>
      l.definitions.flatMap fun d => (slotNodes "Item" d.type d.allocation).map fun n => (l.library, n)

/-- The definitions of a program, with the libraries of their sections. -/
def Program.definitions (p : Program) : List (String × Definition) :=
  p.libraries.flatMap fun l => l.definitions.map fun d => (l.library, d)

/-- The references to definitions, with the libraries whose roots they belong to. -/
def definitionsItems (definitions : List (String × Definition)) : List (String × Node) :=
  definitions.flatMap fun (library, d) =>
    (slotNodes "Item" d.type d.allocation).map fun n => (library, n)

lemma definitionsItems_cons {library : String} {d : Definition} {a : Allocation}
    (ha : d.allocation = some a) (rest : List (String × Definition)) :
    definitionsItems ((library, d) :: rest) =
      (library, .referring "Item" d.type a) :: definitionsItems rest := by
  simp [definitionsItems, slotNodes, ha]

lemma definitionsItems_append (ds ds' : List (String × Definition)) :
    definitionsItems (ds ++ ds') = definitionsItems ds ++ definitionsItems ds' :=
  List.flatMap_append

/-- Definitions are done one after the other where `done` has been begun, and `shown` are those that
had not been begun when it was their turn. -/
inductive Turns (p : Program) : List Allocation → List (String × Definition) →
    List (String × Definition) → List Allocation → Prop
  | nil (done : List Allocation) : Turns p done [] [] done
  | again {done done' : List Allocation} {ds shown : List (String × Definition)} {library : String}
      {d : Definition} {a : Allocation} (ha : d.allocation = some a) (hdone : a ∈ done)
      (hrest : Turns p done ds shown done') : Turns p done ((library, d) :: ds) shown done'
  | first {done done₁ done' : List Allocation} {ds shown : List (String × Definition)}
      {library : String} {d : Definition} {a : Allocation} {parts : List Part}
      (ha : d.allocation = some a) (hdone : a ∉ done)
      (hmakes : Makes p done [.job (.definition d)] parts done₁)
      (hrest : Turns p done₁ ds shown done') :
      Turns p done ((library, d) :: ds) ((library, d) :: shown) done'

namespace Turns

variable {p : Program} {done done₁ done' : List Allocation}
  {ds ds' shown shown' : List (String × Definition)}

lemma append (h : Turns p done ds shown done₁) (h' : Turns p done₁ ds' shown' done') :
    Turns p done (ds ++ ds') (shown ++ shown') done' := by
  induction h with
  | nil => exact h'
  | again ha hdone _ ih => exact .again ha hdone (ih h')
  | first ha hdone hmakes _ ih => exact .first ha hdone hmakes (ih h')

lemma sublist (h : Turns p done ds shown done') : shown.Sublist ds := by
  induction h with
  | nil => exact .refl _
  | again _ _ _ ih => exact ih.cons _
  | first _ _ _ _ ih => exact ih.cons_cons _

end Turns

/-- A computation that leads from one state to the other has followed the plan, has put references
into roots and has touched libraries. -/
def Composes (p : Program) (plan : List PlanStep) (items : List (String × Node))
    (touched : List String) (s s' : LowerState) : Prop :=
  ∃ parts, Makes p s.done plan parts s'.done ∧ s.pools.Grows parts items touched s'.pools

namespace Composes

variable {p : Program} {plan plan' : List PlanStep} {items items' : List (String × Node)}
  {touched touched' : List String} {s s₁ s' : LowerState}

lemma nil (p : Program) (s : LowerState) : Composes p [] [] [] s s :=
  ⟨[], .nil _, .refl _⟩

lemma append (h : Composes p plan items touched s s₁) (h' : Composes p plan' items' touched' s₁ s') :
    Composes p (plan ++ plan') (items ++ items') (touched ++ touched') s s' := by
  obtain ⟨parts, hmakes, hgrows⟩ := h
  obtain ⟨parts', hmakes', hgrows'⟩ := h'
  exact ⟨parts ++ parts', hmakes.append hmakes', hgrows.trans hgrows'⟩

/-- What has been made is referred to in a root. -/
lemma addToRoot (h : Runs p plan s s₁) (library : String) (n : Node) :
    Composes p plan [(library, n)] [] s { s₁ with pools := s₁.pools.addToRoot library n } := by
  obtain ⟨parts, hmakes, hpools⟩ := h
  refine ⟨parts, hmakes, ?_⟩
  have hgrows := (Pools.Grows.extend s.pools parts).trans (.addToRoot _ library n)
  rw [← hpools, List.append_nil] at hgrows
  exact hgrows

/-- A library is touched first. -/
lemma touch {library : String}
    (h : Composes p plan items touched { s with pools := s.pools.touch library } s') :
    Composes p plan items (library :: touched) s s' := by
  obtain ⟨parts, hmakes, hgrows⟩ := h
  exact ⟨parts, hmakes, (Pools.Grows.touch s.pools library).trans hgrows⟩

end Composes

namespace Lower

variable {p : Program} {ctx : Context} {s s' : LowerState} {library : String}

/-! ## Catalogs -/

lemma leaf_ok (hctx : Faithful p ctx) {name : String} {n : Node} (h : leaf ctx name s = .ok n s') :
    p.Lists name ∧ [n] = (CatalogItem.leaf name).nodes p ∧
      Runs p ((CatalogItem.leaf name).plan p) s s' := by
  rw [CatalogItem.nodes, CatalogItem.plan]
  rw [leaf, hctx.symbols, Symbols.entry?_ofProgram] at h
  rcases hlisted : p.listed? name with _ | e
  · simp only [hlisted] at h
    exact (throw_ok_iff.1 h).elim
  have hjob : ∀ {d : Definition}, JobOk p d n s s' →
      [n] = slotNodes "Item" d.type d.allocation ∧ Runs p [.job (.definition d)] s s' := by
    rintro d ⟨a, ha, rfl, -, hruns⟩
    exact ⟨by rw [slotNodes, ha]; rfl, hruns⟩
  have himported : ∀ {type : ElementType} {slot : Option Allocation} {a : Allocation},
      slot = some a → [Node.reference "Item" type a] = slotNodes "Item" type slot := by
    rintro type _ a rfl
    rw [Node.reference_eq, slotNodes_some]
  rcases e with d | (d | d) | (d | d) | (d | d) <;> simp only [hlisted] at h
  · exact ⟨⟨_, hlisted, trivial⟩, hjob (trigger_ok hctx h)⟩
  · exact ⟨⟨_, hlisted, trivial⟩, hjob (function_ok hctx h)⟩
  · simp only [bind_ok_iff, allocated_ok_iff, pure_ok_iff] at h
    obtain ⟨a, _, ⟨ha, rfl⟩, rfl, rfl⟩ := h
    exact ⟨⟨_, hlisted, trivial⟩, himported ha, .nil p _⟩
  · exact ⟨⟨_, hlisted, by simp [Entry.Listable, Preset.isExternal]⟩, hjob (preset_ok h)⟩
  · exact (shape_ok_iff.1 h).elim
  · exact ⟨⟨_, hlisted, trivial⟩, hjob (global_ok hctx h)⟩
  · simp only [bind_ok_iff, allocated_ok_iff, pure_ok_iff] at h
    obtain ⟨a, _, ⟨ha, rfl⟩, rfl, rfl⟩ := h
    exact ⟨⟨_, hlisted, trivial⟩, himported ha, .nil p _⟩

mutual

lemma item_ok (hctx : Faithful p ctx) {s s' : LowerState} {n : Node} : ∀ (i : CatalogItem),
    item ctx i s = .ok n s' →
      (∀ name ∈ i.leaves, p.Lists name) ∧ [n] = i.nodes p ∧ Runs p (i.plan p) s s'
  | .leaf name, h => by
    obtain ⟨hlists, hn, hruns⟩ := leaf_ok hctx h
    refine ⟨?_, hn, hruns⟩
    rw [CatalogItem.leaves]
    simpa using hlists
  | .folder f, h => by
    rw [CatalogItem.leaves, CatalogItem.plan]
    exact folder_ok hctx f h

lemma folder_ok (hctx : Faithful p ctx) {s s' : LowerState} {n : Node} : ∀ (f : Folder),
    folder ctx f s = .ok n s' →
      (∀ name ∈ f.leaves, p.Lists name) ∧ [n] = slotNodes "Item" .category f.allocation ∧
        Runs p (f.plan p) s s'
  | ⟨label, entries, allocation⟩, h => by
    simp only [folder, bind_ok_iff, allocated_ok_iff, reserve_ok_iff, fill_ok_iff, pure_ok_iff,
      Node.reference_eq] at h
    obtain ⟨a, _, ⟨rfl, rfl⟩, _, _, ⟨rfl, rfl⟩, nodes, s₁, hnodes, _, _, ⟨-, rfl⟩, rfl, rfl⟩ := h
    obtain ⟨hlists, rfl, hruns⟩ := items_ok hctx entries hnodes
    rw [Folder.leaves, Folder.plan]
    exact ⟨hlists, rfl, hruns.fill_reserve⟩

lemma items_ok (hctx : Faithful p ctx) {s s' : LowerState} {nodes : List Node} :
    ∀ (is : List CatalogItem), items ctx is s = .ok nodes s' →
      (∀ name ∈ itemsLeaves is, p.Lists name) ∧ nodes = itemsNodes p is ∧
        Runs p (itemsPlan p is) s s'
  | [], h => by
    obtain ⟨rfl, rfl⟩ := pure_ok_iff.1 h
    rw [itemsLeaves, itemsPlan]
    exact ⟨by simp, rfl, .nil p _⟩
  | i :: rest, h => by
    simp only [items, bind_ok_iff, pure_ok_iff] at h
    obtain ⟨n, s₁, hn, others, s₂, hothers, rfl, rfl⟩ := h
    obtain ⟨hlists, hn, hruns⟩ := item_ok hctx i hn
    obtain ⟨hlists', rfl, hruns'⟩ := items_ok hctx rest hothers
    rw [itemsLeaves, itemsPlan, List.forall_mem_append, itemsNodes_cons, ← hn]
    exact ⟨⟨hlists, hlists'⟩, rfl, hruns.append hruns'⟩

end

lemma rootItems_ok (hctx : Faithful p ctx) {is : List CatalogItem} {u : Unit}
    (h : rootItems ctx library is s = .ok u s') :
    (∀ name ∈ itemsLeaves is, p.Lists name) ∧
      Composes p (itemsPlan p is) ((itemsNodes p is).map fun n => (library, n)) [] s s' := by
  induction is generalizing s with
  | nil =>
    obtain ⟨-, rfl⟩ := pure_ok_iff.1 h
    rw [itemsLeaves, itemsPlan]
    exact ⟨by simp, .nil p _⟩
  | cons i rest ih =>
    simp only [rootItems, bind_ok_iff, addToRoot_ok_iff] at h
    obtain ⟨n, s₁, hn, _, _, rfl, h⟩ := h
    obtain ⟨hlists, hn, hruns⟩ := item_ok hctx i hn
    obtain ⟨hlists', hcomposes⟩ := ih h
    rw [itemsLeaves, itemsPlan, List.forall_mem_append, itemsNodes_cons, ← hn]
    exact ⟨⟨hlists, hlists'⟩, (Composes.addToRoot hruns library n).append hcomposes⟩

lemma catalogLibraries_ok (hctx : Faithful p ctx) {ls : List CatalogLibrary} {u : Unit}
    (h : catalogLibraries ctx ls s = .ok u s') :
    (∀ l ∈ ls, ∀ name ∈ itemsLeaves l.items, p.Lists name) ∧
      Composes p (ls.flatMap fun l => itemsPlan p l.items)
        (ls.flatMap fun l => (itemsNodes p l.items).map fun n => (l.name, n))
        (ls.map CatalogLibrary.name) s s' := by
  induction ls generalizing s with
  | nil =>
    obtain ⟨-, rfl⟩ := pure_ok_iff.1 h
    exact ⟨by simp, .nil p _⟩
  | cons l rest ih =>
    simp only [catalogLibraries, bind_ok_iff, touch_ok_iff] at h
    obtain ⟨_, _, rfl, _, s₁, hroot, h⟩ := h
    obtain ⟨hlists, hcomposes⟩ := rootItems_ok hctx hroot
    obtain ⟨hlists', hcomposes'⟩ := ih h
    rw [List.forall_mem_cons, List.flatMap_cons, List.flatMap_cons]
    exact ⟨⟨hlists, hlists'⟩, hcomposes.touch.append hcomposes'⟩

/-! ## Definitions -/

/-- The definitions of a library are done one after the other, and those are referred to in its root
that had not been begun. -/
lemma definitions_ok (hctx : Faithful p ctx) {ds : List Definition} {u : Unit}
    (h : definitions ctx library ds s = .ok u s') :
    ∃ shown, Composes p (definitionsPlan ds) (definitionsItems shown) [] s s' ∧
      Turns p s.done (ds.map fun d => (library, d)) shown s'.done := by
  induction ds generalizing s with
  | nil =>
    obtain ⟨-, rfl⟩ := pure_ok_iff.1 h
    exact ⟨[], .nil p _, .nil _⟩
  | cons d rest ih =>
    simp only [definitions, bind_ok_iff, get_ok_iff] at h
    obtain ⟨_, _, ⟨rfl, rfl⟩, h⟩ := h
    split_ifs at h with hdone
    · simp only [bind_ok_iff, addToRoot_ok_iff] at h
      obtain ⟨n, s₁, hd, _, _, rfl, h⟩ := h
      obtain ⟨a, ha, rfl, -, hruns⟩ := definition_ok hctx hd
      obtain ⟨shown, hcomposes, hturns⟩ := ih h
      have hfresh : a ∉ s.done := by simpa [ha] using hdone
      obtain ⟨parts, hmakes, -⟩ := id hruns
      refine ⟨(library, d) :: shown, ?_, .first ha hfresh hmakes hturns⟩
      rw [definitionsItems_cons ha]
      exact (Composes.addToRoot hruns library _).append hcomposes
    · obtain ⟨shown, ⟨parts, hmakes, hgrows⟩, hturns⟩ := ih h
      obtain ⟨a, ha, hbegun⟩ : ∃ a, d.allocation = some a ∧ a ∈ s.done := by
        simpa [Option.any_eq_true] using hdone
      exact ⟨shown, ⟨parts, .again ha hbegun hmakes, hgrows⟩, .again ha hbegun hturns⟩

lemma libraries_ok (hctx : Faithful p ctx) {ls : List LibraryScope} {u : Unit}
    (h : libraries ctx ls s = .ok u s') :
    ∃ shown, Composes p (ls.flatMap fun l => definitionsPlan l.definitions) (definitionsItems shown)
        (ls.map LibraryScope.library) s s' ∧
      Turns p s.done (ls.flatMap fun l => l.definitions.map fun d => (l.library, d)) shown s'.done := by
  induction ls generalizing s with
  | nil =>
    obtain ⟨-, rfl⟩ := pure_ok_iff.1 h
    exact ⟨[], .nil p _, .nil _⟩
  | cons l rest ih =>
    simp only [libraries, bind_ok_iff, touch_ok_iff] at h
    obtain ⟨_, _, rfl, _, s₁, hdefinitions, h⟩ := h
    obtain ⟨shown, hcomposes, hturns⟩ := definitions_ok hctx hdefinitions
    obtain ⟨shown', hcomposes', hturns'⟩ := ih h
    refine ⟨shown ++ shown', ?_, hturns.append hturns'⟩
    rw [List.flatMap_cons, definitionsItems_append]
    exact hcomposes.touch.append hcomposes'

/-- If everything is lowered then the plan of the catalog has been followed and behind it the jobs of
all definitions. -/
theorem all_ok {c : Catalog} {u : Unit} (h : all (.ofSymbols (Symbols.ofProgram p).1) p c s = .ok u s') :
    (∀ name ∈ c.leaves, p.Lists name) ∧
      ∃ s₁ shown,
        Composes p (c.libraries.flatMap fun l => itemsPlan p l.items)
          (c.libraries.flatMap fun l => (itemsNodes p l.items).map fun n => (l.name, n))
          (c.libraries.map CatalogLibrary.name) s s₁ ∧
        Composes p (p.libraries.flatMap fun l => definitionsPlan l.definitions)
          (definitionsItems shown) (p.libraries.map LibraryScope.library) s₁ s' ∧
        Turns p s₁.done p.definitions shown s'.done := by
  obtain ⟨_, s₁, hcatalog, h⟩ := bind_ok_iff.1 h
  obtain ⟨hlists, hcomposes⟩ := catalogLibraries_ok (faithful_ofSymbols p) hcatalog
  obtain ⟨shown, hcomposes', hturns⟩ := libraries_ok (faithful_ofSymbols p) h
  refine ⟨?_, s₁, shown, hcomposes, hcomposes', hturns⟩
  intro name hname
  obtain ⟨l, hl, hname⟩ := List.mem_flatMap.1 hname
  exact hlists l hl name hname

end Lower

end TriggerScript
