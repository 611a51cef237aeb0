import Mathlib.Tactic.Common
import TriggerScript.Tree

/-!
# Visiting the nodes below a node

Nodes are visited with a stack of the trees that are still to be visited: the top one is taken, and its
children are put on the others, the first child on top. The trees on the stack do not interfere with
each other (`Node.visit_append`), so each is visited in pre-order: its root, and then what is below it,
child by child (`Node.visit_eq_flatMap`).

Equal nodes can stand in several places of a tree. What tells them apart is the address, the way from
the root to the node. In lexicographic order, addresses are in document order: a node comes before all
that is below it, and what is below a child before the next child. The visit follows this order
(`Node.map_snd_locatedBelow`, `Node.pairwise_locatedBelow`), and a search ends at the first node in it
(`Node.find?_descendants_eq_some_iff`).
-/

namespace TriggerScript

namespace Node

/-! ## Pre-order -/

/-- The first trees are visited as if there were no others, and then the others. -/
lemma visit_append (trees others : List Node) :
    visit (trees ++ others) = visit trees ++ visit others := by
  -- along the rounds of the visit: what is put on the stack stands in front of the others
  induction trees using visit.induct with
  | case1 => rw [visit, List.nil_append, List.nil_append]
  | case2 n rest ih => rw [List.cons_append, visit, visit, ← List.append_assoc, ih, List.cons_append]

lemma visit_cons (n : Node) (rest : List Node) :
    visit (n :: rest) = n :: n.descendants ++ visit rest := by
  rw [visit, visit_append, descendants, List.cons_append]

/-- Each tree is visited in pre-order, one tree behind the other. -/
lemma visit_eq_flatMap (trees : List Node) :
    visit trees = trees.flatMap fun n => n :: n.descendants := by
  induction trees with
  | nil => rw [visit, List.flatMap_nil]
  | cons n rest ih => rw [visit_cons, ih, List.flatMap_cons]

/-- There are as many rounds as there are nodes. -/
lemma length_visit (trees : List Node) : (visit trees).length = sizeAll trees := by
  induction trees using visit.induct with
  | case1 => rw [visit, sizeAll, List.length_nil]
  | case2 n rest ih =>
    rw [visit, List.length_cons, ih, sizeAll_append, sizeAll, size_eq]
    omega

/-! ## Addresses -/

/-- The node at an address. The address says through which children the node is reached, by the place
of each among the children of the node before. The empty address is that of the root. -/
def nodeAt? (n : Node) : List Nat → Option Node
  | [] => some n
  | place :: rest => n.children[place]?.bind fun child => child.nodeAt? rest

mutual

/-- The nodes of a tree with their addresses, in pre-order. -/
def located : Node → List (List Nat × Node)
  | ⟨tag, attributes, children, text⟩ =>
    ([], ⟨tag, attributes, children, text⟩) :: locatedFrom 0 children

/-- The nodes of several trees with their addresses, in pre-order, if the trees are the children of a
node from this place on. -/
def locatedFrom : Nat → List Node → List (List Nat × Node)
  | _, [] => []
  | place, n :: others =>
    (located n).map (Prod.map (List.cons place) id) ++ locatedFrom (place + 1) others

end

mutual

lemma map_snd_located : ∀ n : Node, n.located.map Prod.snd = n :: n.descendants
  | ⟨_, _, children, _⟩ => by rw [located, List.map_cons, map_snd_locatedFrom 0 children, descendants]

lemma map_snd_locatedFrom : ∀ (place : Nat) (trees : List Node),
    (locatedFrom place trees).map Prod.snd = visit trees
  | _, [] => by rw [locatedFrom, visit, List.map_nil]
  | place, n :: others => by
    rw [locatedFrom, visit_cons, List.map_append, List.map_map, ← map_snd_located n,
      ← map_snd_locatedFrom (place + 1) others]
    rfl

end

mutual

/-- All nodes of a tree are listed, each with its address. -/
lemma mem_located_iff {p : List Nat} {d : Node} :
    ∀ n : Node, (p, d) ∈ n.located ↔ n.nodeAt? p = some d
  | ⟨tag, attributes, children, text⟩ => by
    rw [located, List.mem_cons, mem_locatedFrom_iff 0 children]
    rcases p with _ | ⟨place, rest⟩
    · simp [nodeAt?, eq_comm]
    · simp [nodeAt?, Option.bind_eq_some_iff]

lemma mem_locatedFrom_iff {p : List Nat} {d : Node} : ∀ (place : Nat) (trees : List Node),
    (p, d) ∈ locatedFrom place trees ↔
      ∃ i rest child, p = (place + i) :: rest ∧ trees[i]? = some child ∧ child.nodeAt? rest = some d
  | _, [] => by simp [locatedFrom]
  | place, n :: others => by
    have hfirst : (p, d) ∈ n.located.map (Prod.map (List.cons place) id) ↔
        ∃ rest, p = place :: rest ∧ n.nodeAt? rest = some d := by
      constructor
      · intro h
        obtain ⟨⟨rest, d'⟩, hmem, heq⟩ := List.mem_map.1 h
        cases heq
        exact ⟨rest, rfl, (mem_located_iff n).1 hmem⟩
      · rintro ⟨rest, rfl, hd⟩
        exact List.mem_map.2 ⟨(rest, d), (mem_located_iff n).2 hd, rfl⟩
    rw [locatedFrom, List.mem_append, hfirst, mem_locatedFrom_iff (place + 1) others]
    constructor
    · rintro (⟨rest, rfl, hd⟩ | ⟨i, rest, child, rfl, hchild, hd⟩)
      · exact ⟨0, rest, n, rfl, rfl, hd⟩
      · exact ⟨i + 1, rest, child, by rw [Nat.add_right_comm, Nat.add_assoc], hchild, hd⟩
    · rintro ⟨_ | i, rest, child, rfl, hchild, hd⟩
      · cases hchild
        exact Or.inl ⟨rest, rfl, hd⟩
      · exact Or.inr ⟨i, rest, child, by rw [Nat.add_right_comm, Nat.add_assoc], hchild, hd⟩

end

mutual

/-- Pre-order is the lexicographic order of the addresses. -/
lemma pairwise_located : ∀ n : Node, n.located.Pairwise fun x y => x.1 < y.1
  | ⟨_, _, children, _⟩ => by
    rw [located, List.pairwise_cons]
    refine ⟨?_, pairwise_locatedFrom 0 children⟩
    rintro ⟨p, d⟩ hmem
    obtain ⟨i, rest, -, rfl, -⟩ := (mem_locatedFrom_iff 0 children).1 hmem
    exact List.nil_lt_cons _ _

lemma pairwise_locatedFrom : ∀ (place : Nat) (trees : List Node),
    (locatedFrom place trees).Pairwise fun x y => x.1 < y.1
  | _, [] => by
    rw [locatedFrom]
    exact List.Pairwise.nil
  | place, n :: others => by
    rw [locatedFrom, List.pairwise_append, List.pairwise_map]
    refine ⟨?_, pairwise_locatedFrom (place + 1) others, ?_⟩
    · exact (pairwise_located n).imp fun hlt => List.cons_lt_cons_iff.2 (Or.inr ⟨rfl, hlt⟩)
    · intro x hx y hy
      obtain ⟨x', -, rfl⟩ := List.mem_map.1 hx
      obtain ⟨i, rest, -, hy', -⟩ := (mem_locatedFrom_iff (place + 1) others).1 hy
      rw [hy']
      exact List.cons_lt_cons_iff.2 (Or.inl (by omega))

end

/-- The nodes below a node with their addresses, in pre-order. -/
def locatedBelow (n : Node) : List (List Nat × Node) :=
  locatedFrom 0 n.children

lemma map_snd_locatedBelow (n : Node) : n.locatedBelow.map Prod.snd = n.descendants :=
  map_snd_locatedFrom 0 n.children

lemma pairwise_locatedBelow (n : Node) : n.locatedBelow.Pairwise fun x y => x.1 < y.1 :=
  pairwise_locatedFrom 0 n.children

lemma mem_locatedBelow_iff {n d : Node} {p : List Nat} :
    (p, d) ∈ n.locatedBelow ↔ p ≠ [] ∧ n.nodeAt? p = some d := by
  rw [locatedBelow, mem_locatedFrom_iff]
  rcases p with _ | ⟨place, rest⟩
  · simp
  · simp [nodeAt?, Option.bind_eq_some_iff]

/-! ## Searching -/

/-- Among nodes in document order, the first with a property is the one with the least address. -/
lemma find?_eq_some_iff_of_pairwise {nodes : List (List Nat × Node)}
    (h : nodes.Pairwise fun x y => x.1 < y.1) {P : Node → Bool} {x : List Nat × Node} :
    nodes.find? (P ∘ Prod.snd) = some x ↔
      x ∈ nodes ∧ P x.2 ∧ ∀ y ∈ nodes, y.1 < x.1 → ¬P y.2 := by
  constructor
  · intro hfound
    obtain ⟨hP, before, behind, rfl, hbefore⟩ := List.find?_eq_some_iff_append.1 hfound
    obtain ⟨hbehind, -⟩ := List.pairwise_cons.1 (List.pairwise_append.1 h).2.1
    refine ⟨List.mem_of_find?_eq_some hfound, hP, ?_⟩
    intro y hy hlt
    rcases List.mem_append.1 hy with hy | hy
    · simpa using hbefore y hy
    · rcases List.mem_cons.1 hy with rfl | hy
      · exact absurd hlt (List.lt_irrefl _)
      · exact absurd hlt (List.lt_asymm (hbehind y hy))
  · rintro ⟨hx, hP, hfirst⟩
    obtain ⟨before, behind, rfl⟩ := List.append_of_mem hx
    refine List.find?_eq_some_iff_append.2 ⟨hP, before, behind, rfl, ?_⟩
    intro y hy
    have hlt : y.1 < x.1 := (List.pairwise_append.1 h).2.2 y hy x List.mem_cons_self
    simpa using hfirst y (List.mem_append_left _ hy) hlt

/-- A node is the first below another one with a property, in document order. -/
def IsFirstBelow (n : Node) (P : Node → Prop) (d : Node) : Prop :=
  ∃ p ≠ [], n.nodeAt? p = some d ∧ P d ∧ ∀ q ≠ [], q < p → ∀ d', n.nodeAt? q = some d' → ¬P d'

lemma find?_descendants_eq_some_iff {n d : Node} {P : Node → Bool} :
    n.descendants.find? P = some d ↔ n.IsFirstBelow (P ·) d := by
  rw [← map_snd_locatedBelow, List.find?_map, Option.map_eq_some_iff]
  constructor
  · rintro ⟨⟨p, d⟩, hfound, rfl⟩
    obtain ⟨hmem, hP, hfirst⟩ := (find?_eq_some_iff_of_pairwise n.pairwise_locatedBelow).1 hfound
    obtain ⟨hp, hd⟩ := mem_locatedBelow_iff.1 hmem
    refine ⟨p, hp, hd, hP, ?_⟩
    intro q hq hlt d' hd'
    exact hfirst (q, d') (mem_locatedBelow_iff.2 ⟨hq, hd'⟩) hlt
  · rintro ⟨p, hp, hd, hP, hfirst⟩
    have hmem : (p, d) ∈ n.locatedBelow := mem_locatedBelow_iff.2 ⟨hp, hd⟩
    refine ⟨(p, d), (find?_eq_some_iff_of_pairwise n.pairwise_locatedBelow).2 ⟨hmem, hP, ?_⟩, rfl⟩
    rintro ⟨q, d'⟩ hmem' hlt
    obtain ⟨hq, hd'⟩ := mem_locatedBelow_iff.1 hmem'
    exact hfirst q hq hlt d' hd'

lemma mem_descendants_iff {n d : Node} : d ∈ n.descendants ↔ ∃ p ≠ [], n.nodeAt? p = some d := by
  rw [← map_snd_locatedBelow, List.mem_map]
  constructor
  · rintro ⟨⟨p, d⟩, hmem, rfl⟩
    exact ⟨p, mem_locatedBelow_iff.1 hmem⟩
  · rintro ⟨p, hp⟩
    exact ⟨(p, d), mem_locatedBelow_iff.2 hp, rfl⟩

/-- A node is an element with this type and id. -/
def IsElement (type id : String) (n : Node) : Prop :=
  n.tag = "Element" ∧ n.attribute? "Type" = some type ∧ n.attribute? "Id" = some id

lemma isElement_iff {type id : String} {n : Node} :
    (n.isElementOf type && n.attribute? "Id" = some id) ↔ n.IsElement type id := by
  simp [isElementOf, IsElement, and_assoc]

/-- The visit of the nodes below a node takes one round for each of them, and it is the recursion over
the tree: a child, what is below this child, and so on with the next child. All nodes below are visited,
each once, in document order. So a search for an element finds the first one in document order, and
nothing only if there is none. -/
theorem descendants_in_document_order (n : Node) :
    n.descendants.length + 1 = n.size ∧
      n.descendants = n.children.flatMap (fun child => child :: child.descendants) ∧
      n.locatedBelow.map Prod.snd = n.descendants ∧
      n.locatedBelow.Pairwise (fun x y => x.1 < y.1) ∧
      (∀ p d, (p, d) ∈ n.locatedBelow ↔ p ≠ [] ∧ n.nodeAt? p = some d) ∧
      ∀ type id,
        (∀ e, n.findElement? type id = some e ↔ n.IsFirstBelow (IsElement type id) e) ∧
        (n.findElement? type id = none ↔
          ∀ p ≠ [], ∀ d, n.nodeAt? p = some d → ¬d.IsElement type id) := by
  refine ⟨?_, visit_eq_flatMap n.children, n.map_snd_locatedBelow, n.pairwise_locatedBelow,
    fun p d => mem_locatedBelow_iff, fun type id => ⟨fun e => ?_, ?_⟩⟩
  · rw [descendants, length_visit, size_eq, Nat.add_comm]
  · rw [findElement?, find?_descendants_eq_some_iff]
    simp only [isElement_iff]
  · rw [findElement?, List.find?_eq_none]
    simp only [isElement_iff, mem_descendants_iff]
    constructor
    · intro h p hp d hd
      exact h d ⟨p, hp, hd⟩
    · rintro h d ⟨p, hp, hd⟩
      exact h p hp d hd

end Node

end TriggerScript
