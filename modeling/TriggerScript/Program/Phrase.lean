import TriggerScript.Grammar
import TriggerScript.Program

/-!
# Phrases of programs

While a program is parsed, each part of it that has been recognised is a phrase: a token, a list
of phrases, or a finished node of the syntax tree. The functions here take out of a phrase what the
rules of the grammar expect there.
-/

namespace TriggerScript

/-- A recognised part of a program. -/
inductive ProgramPhrase where
  | token (v : TokenValue)
  | list (items : List ProgramPhrase)
  | program (p : Program)
  | scope (s : Scope)
  | definition (d : Definition)
  | external (d : ExternalDefinition)
  | kind (k : CallableKind)
  | value (v : Value)
  | call (c : Call)
  | block (b : Block)
  | variable (d : VariableDef)
  | param (d : ParamDef)
  | externalParam (d : ExternalParam)
  | externalMember (d : ExternalMember)
  | attribute (a : Attribute)
  | type (t : TypeRef)
  | dimension (d : Dimension)

namespace ProgramPhrase

/-- How a message shows a phrase. A finished node is shown by the name of its sort. -/
def describe : ProgramPhrase → String
  | .token v => "Token(" ++ v.describe ++ ")"
  | .list _ => "List"
  | .program _ => "Program"
  | .scope _ => "Scope"
  | .definition _ => "Definition"
  | .external _ => "External"
  | .kind _ => "Kind"
  | .value _ => "Value"
  | .call _ => "Call"
  | .block _ => "Block"
  | .variable _ => "Variable"
  | .param _ => "Param"
  | .externalParam _ => "ExternalParam"
  | .externalMember _ => "ExternalMember"
  | .attribute _ => "Attribute"
  | .type _ => "Type"
  | .dimension _ => "Dim"

/-- The error of a phrase that stands where another sort is expected. -/
def unexpected {α : Type} (sort : String) (p : ProgramPhrase) : Except String α :=
  .error ("expected " ++ sort ++ ", found " ++ p.describe)

/-- The text of a token. -/
def toText : ProgramPhrase → Except String String
  | .token (.text s) => .ok s
  | p => p.unexpected "text token"

/-- The integer of a token. -/
def toInt : ProgramPhrase → Except String Int
  | .token (.int n) => .ok n
  | p => p.unexpected "int token"

/-- The truth value of a token. -/
def toBool : ProgramPhrase → Except String Bool
  | .token (.bool b) => .ok b
  | p => p.unexpected "bool token"

/-- The id that the text of a token is. -/
def toId (p : ProgramPhrase) : Except String ElementId := do
  let s ← p.toText
  match ElementId.ofText? s with
  | some id => .ok id
  | none => .error (ElementId.notAnId s)

/-- The items of a list. -/
def items : ProgramPhrase → Except String (List ProgramPhrase)
  | .list items => .ok items
  | p => p.unexpected "List"

/-- The items of a list, each taken out of its phrase. -/
def listOf {α : Type} (item : ProgramPhrase → Except String α) (p : ProgramPhrase) :
    Except String (List α) := do
  (← p.items).mapM item

/-- The program of a phrase. -/
def toProgram : ProgramPhrase → Except String Program
  | .program p => .ok p
  | p => p.unexpected "Program"

/-- The scope of a phrase. -/
def toScope : ProgramPhrase → Except String Scope
  | .scope s => .ok s
  | p => p.unexpected "Scope"

/-- The definition of a phrase. -/
def toDefinition : ProgramPhrase → Except String Definition
  | .definition d => .ok d
  | p => p.unexpected "Definition"

/-- The imported entity of a phrase. -/
def toExternal : ProgramPhrase → Except String ExternalDefinition
  | .external d => .ok d
  | p => p.unexpected "External"

/-- The kind of a phrase. -/
def toKind : ProgramPhrase → Except String CallableKind
  | .kind k => .ok k
  | p => p.unexpected "Kind"

/-- The value of a phrase. -/
def toValue : ProgramPhrase → Except String Value
  | .value v => .ok v
  | p => p.unexpected "Value"

/-- The call of a phrase. -/
def toCall : ProgramPhrase → Except String Call
  | .call c => .ok c
  | p => p.unexpected "Call"

/-- The block of a phrase. -/
def toBlock : ProgramPhrase → Except String Block
  | .block b => .ok b
  | p => p.unexpected "Block"

/-- The variable of a phrase. -/
def toVariable : ProgramPhrase → Except String VariableDef
  | .variable d => .ok d
  | p => p.unexpected "Variable"

/-- The parameter of a phrase. -/
def toParam : ProgramPhrase → Except String ParamDef
  | .param d => .ok d
  | p => p.unexpected "Param"

/-- The imported parameter of a phrase. -/
def toExternalParam : ProgramPhrase → Except String ExternalParam
  | .externalParam d => .ok d
  | p => p.unexpected "ExternalParam"

/-- The imported member of a phrase. -/
def toExternalMember : ProgramPhrase → Except String ExternalMember
  | .externalMember d => .ok d
  | p => p.unexpected "ExternalMember"

/-- The attribute of a phrase. -/
def toAttribute : ProgramPhrase → Except String Attribute
  | .attribute a => .ok a
  | p => p.unexpected "Attribute"

/-- The type of a phrase. -/
def toType : ProgramPhrase → Except String TypeRef
  | .type t => .ok t
  | p => p.unexpected "Type"

/-- The dimension of a phrase. -/
def toDimension : ProgramPhrase → Except String Dimension
  | .dimension d => .ok d
  | p => p.unexpected "Dim"

/-- The attributes that a phrase lists. -/
def attributes (p : ProgramPhrase) : Except String (List Attribute) :=
  p.listOf toAttribute

/-- The variables that a phrase lists. -/
def variableDefs (p : ProgramPhrase) : Except String (List VariableDef) :=
  p.listOf toVariable

instance : Phrase ProgramPhrase where
  ofToken t := .token t.value
  ofList := .list
  toList := items

end ProgramPhrase

end TriggerScript
