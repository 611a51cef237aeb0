import TriggerScript.Allocation

/-!
# Document trees

A document is a tree of tagged nodes with attributes, children and a text. The nodes with the tag
`Element` are the elements of the document: each has a type and an id. Other nodes refer to elements
by type, id and, unless it is the default one, library.
-/

namespace TriggerScript

/-- A node of a document. -/
structure Node where
  tag : String
  /-- Keys with their values, in order. -/
  attributes : List (String × String) := []
  children : List Node := []
  text : Option String := none
deriving Repr, Inhabited

namespace Node

mutual

/-- Decides whether two trees are equal. -/
def decEq : (a b : Node) → Decidable (a = b)
  | ⟨tag, attributes, children, text⟩, ⟨tag', attributes', children', text'⟩ =>
    match decEqList children children' with
    | isTrue h =>
      decidable_of_iff (tag = tag' ∧ attributes = attributes' ∧ text = text') (by simp [h])
    | isFalse h => isFalse (by simp [h])

/-- Decides whether two lists of trees are equal. -/
def decEqList : (a b : List Node) → Decidable (a = b)
  | [], [] => isTrue rfl
  | [], _ :: _ => isFalse (by simp)
  | _ :: _, [] => isFalse (by simp)
  | a :: as, b :: bs =>
    match decEq a b, decEqList as bs with
    | isTrue h, isTrue h' => isTrue (by simp [h, h'])
    | isFalse h, _ => isFalse (by simp [h])
    | _, isFalse h => isFalse (by simp [h])

end

instance : DecidableEq Node := decEq

/-- A node that refers to an element. -/
def reference (tag : String) (type : ElementType) (a : Allocation) : Node where
  tag := tag
  attributes :=
    [("Type", type.name), ("Id", a.id.text)] ++
      match a.library? with
      | some library => [("Library", library)]
      | none => []

/-- An element with its children. -/
def element (type : ElementType) (id : ElementId) (children : List Node := []) : Node where
  tag := "Element"
  attributes := [("Type", type.name), ("Id", id.text)]
  children := children

/-- The value of the first attribute with this key. -/
def attribute? (n : Node) (key : String) : Option String :=
  n.attributes.lookup key

/-- The children with this tag. -/
def childrenTagged (n : Node) (tag : String) : List Node :=
  n.children.filter (·.tag = tag)

/-- Whether the node is an element of this type. -/
def isElementOf (n : Node) (type : String) : Bool :=
  n.tag = "Element" && n.attribute? "Type" = some type

mutual

/-- The number of nodes of a tree. -/
def size : Node → Nat
  | ⟨_, _, children, _⟩ => 1 + sizeAll children

/-- The number of nodes of several trees. -/
def sizeAll : List Node → Nat
  | [] => 0
  | n :: rest => size n + sizeAll rest

end

theorem size_eq (n : Node) : n.size = 1 + sizeAll n.children := by
  cases n
  rw [size]

theorem sizeAll_append (a b : List Node) : sizeAll (a ++ b) = sizeAll a + sizeAll b := by
  induction a with
  | nil => simp [sizeAll]
  | cons n rest ih =>
    simp only [List.cons_append, sizeAll, ih]
    omega

/-- The nodes of several trees, each in front of its children. The trees that are still to be
visited are kept in a list, so that no depth is too much. -/
def visit (trees : List Node) : List Node :=
  match trees with
  | [] => []
  | n :: rest => n :: visit (n.children ++ rest)
termination_by sizeAll trees
decreasing_by
  rw [sizeAll_append, sizeAll, size_eq]
  omega

/-- The nodes below a node, each in front of its own children. -/
def descendants (n : Node) : List Node :=
  visit n.children

/-- The first element below a node with this type and id. -/
def findElement? (n : Node) (type id : String) : Option Node :=
  n.descendants.find? fun d => d.isElementOf type && d.attribute? "Id" = some id

/-- The elements of this type below a node. -/
def elementsOf (n : Node) (type : String) : List Node :=
  n.descendants.filter (·.isElementOf type)

end Node

end TriggerScript
