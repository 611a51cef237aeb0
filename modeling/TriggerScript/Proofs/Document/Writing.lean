import Mathlib.Tactic.Common
import TriggerScript.Document

/-!
# How elements are written

What stands in the elements of a document, without how it is made. A reference gives the type and the id
of the entity that it refers to, and its library unless that is the default one (`Node.referring`);
a literal is written with its text and its type, and attributes of a definition as flags and a comment.

For each of them it is shown that the program writes it like this.
-/

namespace TriggerScript

/-! ## References -/

/-- The attributes that say which entity of a type is meant. -/
def Allocation.written (a : Allocation) (type : ElementType) : List (String × String) :=
  ("Type", type.name) :: ("Id", a.id.text) ::
    if a.library = "0" then [] else [("Library", a.library)]

/-- A reference to an entity. -/
def Node.referring (tag : String) (type : ElementType) (a : Allocation) : Node where
  tag := tag
  attributes := a.written type

/-- The program writes references like this. -/
@[simp] lemma Node.reference_eq : Node.reference = Node.referring := by
  funext tag type a
  rw [reference, referring, Allocation.written, Allocation.library?, Allocation.isDefault]
  by_cases hdefault : a.library = "0"
  · simp [defaultLibrary, hdefault]
  · simp [defaultLibrary, hdefault]

/-- References of one kind to several entities, in order. -/
def references (tag : String) (type : ElementType) (targets : List Allocation) : List Node :=
  targets.map (.referring tag type)

namespace Binding

/-- A reference to what a name means. -/
def node : Binding → Node
  | .parameter a => .referring "Parameter" .paramDef a
  | .variable a => .referring "Variable" .variable a

/-- A dimension of an array whose size is what a name means. -/
def size (index : Nat) : Binding → Node
  | .parameter a =>
    { tag := "ArraySizeVariable",
      attributes := ("Dim", Text.natText index) :: a.written .paramDef }
  | .variable a =>
    { tag := "ArraySizeVariable",
      attributes := ("Dim", Text.natText index) :: a.written .variable }

end Binding

/-! ## Literals and attributes -/

namespace Literal

/-- The name of the type of a literal. -/
def typeName : Literal → String
  | .text _ => "text"
  | .string _ => "string"
  | .int _ => "int"
  | .bool _ => "bool"

/-- The text of a literal. A text for display has none in the document. -/
def written? : Literal → Option String
  | .text _ => none
  | .string s => some s
  | .int n => some (Text.intText n)
  | .bool true => some "true"
  | .bool false => some "false"

/-- The children that give the text and the type of a literal. -/
def nodes (l : Literal) : List Node :=
  l.written?.toList.map (fun text => { tag := "Value", text := some text }) ++
    [{ tag := "ValueType", attributes := [("Type", l.typeName)] }]

end Literal

namespace Attribute

/-- The child for a flag, if it is present. -/
def flag (attributes : List Attribute) (key tag : String) : List Node :=
  if present attributes key then [{ tag }] else []

/-- The child for a comment, if there is one. -/
def comment (attributes : List Attribute) : List Node :=
  (valueOf? attributes "comment").toList.map fun text => { tag := "Comment", text := some text }

end Attribute

/-- The child that tells actions from other callable entities. -/
def CallableKind.node (kind : CallableKind) : Node :=
  { tag := if kind = .action then "FlagAction" else "FlagCall" }

/-! ## What the program writes -/

namespace Lower

@[simp] lemma bindingNode_eq : bindingNode = Binding.node := by
  funext b
  rw [bindingNode, Node.reference_eq]
  cases b <;> rfl

@[simp] lemma literalNodes_eq : literalNodes = Literal.nodes := by
  funext l
  rcases l with s | s | n | (_ | _) <;> rfl

@[simp] lemma flagNodes_nil (attributes : List Attribute) : flagNodes attributes [] = [] :=
  rfl

@[simp] lemma flagNodes_cons (attributes : List Attribute) (key tag : String)
    (rest : List (String × String)) :
    flagNodes attributes ((key, tag) :: rest) =
      Attribute.flag attributes key tag ++ flagNodes attributes rest := by
  by_cases h : Attribute.present attributes key <;> simp [flagNodes, Attribute.flag, h]

@[simp] lemma commentNodes_eq : commentNodes = Attribute.comment := by
  funext attributes
  rw [commentNodes, Attribute.comment]
  rcases Attribute.valueOf? attributes "comment" with _ | text <;> rfl

@[simp] lemma kindNode_eq : kindNode = CallableKind.node := by
  funext kind
  cases kind <;> rfl

end Lower

end TriggerScript
