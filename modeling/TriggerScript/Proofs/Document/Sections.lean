import TriggerScript.Document
import TriggerScript.Proofs.Lowering.Pools

/-!
# The sections of a document

What a document holds of a library is its section: for the default library what stands at the top
level, and for any other what stands in the part that bears its name. The elements of the section of a
library are the elements of its pool (`Document.sectionElements_ofPools`).

Whatever holds of all nodes of the roots and of the elements of pools holds of all nodes of their
document (`Document.forall_descendants_ofPools`).
-/

namespace TriggerScript

namespace Node

/-- What a document holds of a library. -/
def sectionNodes (tree : Node) (library : String) : List Node :=
  if library = defaultLibrary then tree.children
  else (tree.children.filter fun n => n.tag = "Library" ∧ n.attribute? "Id" = some library).flatMap
    Node.children

/-- The elements of a library in a document. -/
def sectionElements (tree : Node) (library : String) : List Node :=
  (tree.sectionNodes library).filter (·.tag = "Element")

/-- The roots of a library in a document. -/
def sectionRoots (tree : Node) (library : String) : List Node :=
  (tree.sectionNodes library).filter (·.tag = "Root")

/-- Something holds of all nodes of a tree. -/
inductive Every (P : Node → Prop) : Node → Prop
  | mk {n : Node} (hn : P n) (hchildren : ∀ child ∈ n.children, Every P child) : Every P n

lemma Every.imp {P Q : Node → Prop} {n : Node} (h : n.Every P) (hPQ : ∀ n, P n → Q n) :
    n.Every Q := by
  induction h with
  | mk hn _ ih => exact ⟨hPQ _ hn, ih⟩

/-- What holds of all nodes of trees holds of each node that is visited. -/
lemma forall_visit {P : Node → Prop} {trees : List Node} (h : ∀ n ∈ trees, n.Every P) :
    ∀ n ∈ visit trees, P n := by
  induction trees using visit.induct with
  | case1 =>
    rw [visit]
    simp
  | case2 n rest ih =>
    rw [List.forall_mem_cons] at h
    obtain ⟨⟨hn, hchildren⟩, hrest⟩ := h
    rw [visit, List.forall_mem_cons]
    exact ⟨hn, ih (List.forall_mem_append.2 ⟨hchildren, hrest⟩)⟩

lemma every_of_forall_visit {P : Node → Prop} {trees : List Node} (h : ∀ n ∈ visit trees, P n) :
    ∀ n ∈ trees, n.Every P := by
  induction trees using visit.induct with
  | case1 => simp
  | case2 n rest ih =>
    rw [visit, List.forall_mem_cons] at h
    obtain ⟨hchildren, hrest⟩ := List.forall_mem_append.1 (ih h.2)
    exact List.forall_mem_cons.2 ⟨⟨h.1, hchildren⟩, hrest⟩

end Node

namespace Pools

/-- There is at most one pool for a library. -/
lemma filter_library {pools : Pools} (h : pools.libraries.Nodup) (library : String) :
    pools.filter (·.library = library) = (pools.get? library).toList := by
  induction pools with
  | nil => rfl
  | cons q rest ih =>
    rw [libraries, List.map_cons, List.nodup_cons] at h
    by_cases hq : q.library = library
    · have hrest : rest.filter (·.library = library) = [] := by
        rw [List.filter_eq_nil_iff]
        intro q' hq' heq
        simp only [decide_eq_true_eq] at heq
        exact h.1 (List.mem_map.2 ⟨q', hq', by rw [heq, hq]⟩)
      simp [get?, hq, hrest]
    · simpa [get?, hq] using ih h.2

lemma get?_of_mem {pools : Pools} (h : pools.libraries.Nodup) {q : LibraryPool}
    (hq : q ∈ pools) : pools.get? q.library = some q := by
  have hmem : q ∈ pools.filter (·.library = q.library) := List.mem_filter.2 ⟨hq, by simp⟩
  rw [filter_library h, Option.mem_toList] at hmem
  exact hmem

lemma isSome_get?_iff {pools : Pools} {library : String} :
    (pools.get? library).isSome ↔ library ∈ pools.libraries := by
  rw [get?, List.find?_isSome, libraries]
  simp

lemma elements_of_get? {pools : Pools} {library : String} {q : LibraryPool}
    (h : pools.get? library = some q) : q.elements = (pools.places library).filterMap id := by
  rw [LibraryPool.elements, places, pool, h, Option.getD_some]

end Pools

namespace Document

variable {pools : Pools} {parts : List Part}

lemma filterMap_places
    (hplaces : ∀ l, pools.places l = (parts.filter (·.library = l)).map fun part => some part.node)
    (library : String) : (pools.places library).filterMap id =
      (parts.filter (·.library = library)).map Part.node := by
  rw [hplaces, List.filterMap_map]
  exact congrFun List.filterMap_eq_map _

/-- What stands in a pool has been put there. -/
lemma exists_part_of_mem_elements (hnodup : pools.libraries.Nodup)
    (hplaces : ∀ l, pools.places l = (parts.filter (·.library = l)).map fun part => some part.node)
    {q : LibraryPool} (hq : q ∈ pools) {n : Node} (hn : n ∈ q.elements) :
    ∃ part ∈ parts, part.node = n := by
  rw [Pools.elements_of_get? (Pools.get?_of_mem hnodup hq), filterMap_places hplaces] at hn
  obtain ⟨part, hpart, rfl⟩ := List.mem_map.1 hn
  exact ⟨part, (List.mem_filter.1 hpart).1, rfl⟩

/-- Of the root of a pool and its elements, the elements are those that were put there. -/
lemma filter_element_pool
    (hplaces : ∀ l, pools.places l = (parts.filter (·.library = l)).map fun part => some part.node)
    (library : String) :
    ((pools.get? library).toList.flatMap fun q => root q :: q.elements).filter (·.tag = "Element") =
      (parts.filter (·.library = library)).map Part.node := by
  rw [← filterMap_places hplaces]
  rcases hq : pools.get? library with _ | q
  · have hnone : pools.places library = [] := by rw [Pools.places, Pools.pool, hq]; rfl
    rw [hnone]
    rfl
  · have hroot : (root q :: q.elements).filter (·.tag = "Element") = q.elements := by
      rw [Pools.elements_of_get? hq, filterMap_places hplaces,
        List.filter_cons_of_neg (by simp [root]), List.filter_eq_self]
      intro n hn
      obtain ⟨part, -, rfl⟩ := List.mem_map.1 hn
      rfl
    rw [← Pools.elements_of_get? hq, Option.toList_some, List.flatMap_singleton, hroot]

/-- Which parts of a document bear the name of a library. -/
lemma filter_library_children (hnodup : pools.libraries.Nodup)
    (hplaces : ∀ l, pools.places l = (parts.filter (·.library = l)).map fun part => some part.node)
    {library : String} (hlibrary : library ≠ defaultLibrary) :
    ((ofPools pools).children.filter fun n =>
        n.tag = "Library" ∧ n.attribute? "Id" = some library) =
      (pools.filter (·.library = library)).map libraryNode := by
  have htop : ((pools.filter (·.library = defaultLibrary)).flatMap fun q => root q :: q.elements).filter
      (fun n => n.tag = "Library" ∧ n.attribute? "Id" = some library) = [] := by
    rw [List.filter_eq_nil_iff]
    intro n hn
    obtain ⟨q, hq, hn⟩ := List.mem_flatMap.1 hn
    rcases List.mem_cons.1 hn with rfl | hn
    · simp [root]
    · obtain ⟨part, -, rfl⟩ := exists_part_of_mem_elements hnodup hplaces (List.mem_filter.1 hq).1 hn
      simp [Part.node]
  rw [ofPools, List.filter_append, htop, List.append_nil, List.filter_map, List.filter_filter]
  congr 1
  apply List.filter_congr
  intro q _
  by_cases hq : q.library = library
  · simp [libraryNode, Node.attribute?, hq, hlibrary]
  · simp [libraryNode, Node.attribute?, hq]

/-- The section of a library is its pool, but for the parts of other libraries that stand beside the
default one. -/
lemma filter_sectionNodes_ofPools (hnodup : pools.libraries.Nodup)
    (hplaces : ∀ l, pools.places l = (parts.filter (·.library = l)).map fun part => some part.node)
    {keep : Node → Bool} (hkeep : ∀ q, ¬keep (libraryNode q)) (library : String) :
    ((ofPools pools).sectionNodes library).filter keep =
      ((pools.get? library).toList.flatMap fun q => root q :: q.elements).filter keep := by
  rw [← Pools.filter_library hnodup, Node.sectionNodes]
  split_ifs with hl
  · subst hl
    rw [ofPools, List.filter_append, List.filter_eq_nil_iff.2, List.nil_append]
    intro n hn
    obtain ⟨q, -, rfl⟩ := List.mem_map.1 hn
    exact hkeep q
  · rw [filter_library_children hnodup hplaces hl, List.flatMap_map]
    rfl

/-- The elements of the section of a library are the elements of its pool, in order. -/
theorem sectionElements_ofPools (hnodup : pools.libraries.Nodup)
    (hplaces : ∀ l, pools.places l = (parts.filter (·.library = l)).map fun part => some part.node)
    (library : String) :
    (ofPools pools).sectionElements library = (parts.filter (·.library = library)).map Part.node := by
  rw [← filter_element_pool hplaces, Node.sectionElements,
    filter_sectionNodes_ofPools hnodup hplaces (by simp [libraryNode])]

/-- The section of a library has the root of its pool. -/
lemma sectionRoots_ofPools (hnodup : pools.libraries.Nodup)
    (hplaces : ∀ l, pools.places l = (parts.filter (·.library = l)).map fun part => some part.node)
    (library : String) :
    (ofPools pools).sectionRoots library = (pools.get? library).toList.map root := by
  rw [Node.sectionRoots, filter_sectionNodes_ofPools hnodup hplaces (by simp [libraryNode])]
  rcases hq : pools.get? library with _ | q
  · rfl
  · have helements : q.elements.filter (·.tag = "Root") = [] := by
      rw [List.filter_eq_nil_iff]
      intro n hn
      obtain ⟨part, -, rfl⟩ :=
        exists_part_of_mem_elements hnodup hplaces (List.mem_of_find?_eq_some hq) hn
      simp [Part.node]
    simp [root, helements]

/-- What holds of all nodes of elements and references, and of the nodes that hold them, holds of all
nodes of a document. -/
theorem forall_descendants_ofPools {P : Node → Prop} (hlibrary : ∀ q : LibraryPool, P (libraryNode q))
    (hroot : ∀ q : LibraryPool, P (root q)) (hitems : ∀ q ∈ pools, ∀ n ∈ q.root, n.Every P)
    (helements : ∀ q ∈ pools, ∀ n ∈ q.elements, n.Every P) :
    ∀ n ∈ (ofPools pools).descendants, P n := by
  have hpool : ∀ q ∈ pools, ∀ n ∈ root q :: q.elements, n.Every P := by
    intro q hq
    rw [List.forall_mem_cons]
    exact ⟨⟨hroot q, hitems q hq⟩, helements q hq⟩
  apply Node.forall_visit
  intro n hn
  rw [ofPools, List.mem_append] at hn
  rcases hn with hn | hn
  · obtain ⟨q, hq, rfl⟩ := List.mem_map.1 hn
    exact ⟨hlibrary q, hpool q (List.mem_filter.1 hq).1⟩
  · obtain ⟨q, hq, hn⟩ := List.mem_flatMap.1 hn
    exact hpool q (List.mem_filter.1 hq).1 n hn

end Document

end TriggerScript
