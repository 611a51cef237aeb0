import TriggerScript.Tree

/-!
# XML text of documents

A tree is written with one node to a line, indented by four spaces for each level. A node with
neither text nor children is an empty tag. Text is written as it is, without any space of its own:
no line is broken between a text and the tag behind it.
-/

namespace TriggerScript.Xml

/-- A character of a text or an attribute value. -/
def escapedChar (c : Char) : List Char :=
  if c = '<' then ['&', 'l', 't', ';']
  else if c = '>' then ['&', 'g', 't', ';']
  else if c = '&' then ['&', 'a', 'm', 'p', ';']
  else if c = '\'' then ['&', 'a', 'p', 'o', 's', ';']
  else if c = '"' then ['&', 'q', 'u', 'o', 't', ';']
  else [c]

/-- A text or an attribute value. -/
def escaped (s : String) : List Char :=
  s.toList.flatMap escapedChar

/-- The attributes of a tag, each behind a space. -/
def attributeChars (attributes : List (String × String)) : List Char :=
  attributes.flatMap fun (key, value) => ' ' :: key.toList ++ '=' :: '"' :: escaped value ++ ['"']

/-- A line break with the indentation of a depth, where a line may be broken. -/
def lineBreak (allowed : Bool) (depth : Nat) : List Char :=
  if allowed then '\n' :: List.replicate (4 * depth) ' ' else []

mutual

/-- A node at a depth; `breakBefore` if a line may be broken in front of it. -/
def nodeChars (depth : Nat) (breakBefore : Bool) : Node → List Char
  | ⟨tag, attributes, [], none⟩ =>
    lineBreak breakBefore depth ++ '<' :: tag.toList ++ attributeChars attributes ++ ['/', '>']
  | ⟨tag, attributes, children, text⟩ =>
    lineBreak breakBefore depth ++ '<' :: tag.toList ++ attributeChars attributes ++ '>' ::
      (match text with
        | some s => escaped s
        | none => []) ++
      childrenChars (depth + 1) text.isNone children ++
      lineBreak (text.isNone || !children.isEmpty) depth ++ '<' :: '/' :: tag.toList ++ ['>']

/-- Nodes at a depth; `breakBefore` if a line may be broken in front of the first one. -/
def childrenChars (depth : Nat) (breakBefore : Bool) : List Node → List Char
  | [] => []
  | n :: rest => nodeChars depth breakBefore n ++ childrenChars depth true rest

end

/-- The line that can stand in front of a document. -/
def declaration : String :=
  "<?xml version=\"1.0\" encoding=\"utf-8\"?>"

/-- The text of a document, with the declaration in front of it or not. -/
def render (withDeclaration : Bool) (tree : Node) : String :=
  if withDeclaration then declaration ++ String.ofList (nodeChars 0 true tree)
  else String.ofList (nodeChars 0 false tree)

end TriggerScript.Xml
