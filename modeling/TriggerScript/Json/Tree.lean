import TriggerScript.Catalog
import TriggerScript.Json
import TriggerScript.Program
import TriggerScript.Token

/-!
# Syntax trees as JSON

The JSON form of tokens, programs and catalogs. A structure is an object with its fields in the
order of their declaration; one of several cases is an object with the name of the case as its only
key, or only the name where the case has no content. An empty slot is `null`.
-/

namespace TriggerScript

open Json (str arr obj)

/-- A case with its content. -/
def Json.case (name : String) (content : Json) : Json :=
  obj [(name, content)]

/-- A value or null. -/
def Json.orNull {α : Type} (f : α → Json) : Option α → Json
  | none => .null
  | some a => f a

/-- The value of a token as JSON. -/
def TokenValue.toJson : TokenValue → Json
  | .none => obj [("type", str "none")]
  | .text s => obj [("type", str "text"), ("value", str s)]
  | .int n => obj [("type", str "int"), ("value", .int n)]
  | .bool b => obj [("type", str "bool"), ("value", .bool b)]

/-- A token as JSON. -/
def Token.toJson (t : Token) : Json :=
  obj [("name", str t.name), ("raw", str t.raw), ("value", t.value.toJson),
    ("offset", .nat t.offset)]

/-- An id as JSON: its number. -/
def ElementId.toJson (id : ElementId) : Json :=
  .nat id.val.toNat

/-- An allocation as JSON. -/
def Allocation.toJson (a : Allocation) : Json :=
  obj [("library", str a.library), ("id", a.id.toJson)]

/-- The slot of an allocation as JSON. -/
def Allocation.slotJson (a : Option Allocation) : Json :=
  .orNull toJson a

/-- An attribute as JSON. -/
def Attribute.toJson (a : Attribute) : Json :=
  obj [("key", str a.key), ("value", .textOrNull a.value)]

/-- Attributes as JSON. -/
def Attribute.listJson (attributes : List Attribute) : Json :=
  arr (attributes.map toJson)

/-- A dimension as JSON. -/
def Dimension.toJson : Dimension → Json
  | .size n => .case "size" (.int n)
  | .variable name => .case "variable" (str name)

/-- A type as JSON. -/
def TypeRef.toJson (t : TypeRef) : Json :=
  obj [("name", str t.name), ("dims", arr (t.dims.map Dimension.toJson))]

/-- A kind as JSON. -/
def CallableKind.toJson : CallableKind → Json
  | .function => str "function"
  | .action => str "action"
  | .event => str "event"

/-- A literal as JSON. -/
def Literal.toJson : Literal → Json
  | .text s => .case "text" (str s)
  | .string s => .case "string" (str s)
  | .int n => .case "int" (.int n)
  | .bool b => .case "bool" (.bool b)

mutual

/-- A kind of value as JSON. -/
def ValueKind.toJson : ValueKind → Json
  | .literal l => l.toJson
  | .presetMember preset member =>
    .case "preset_member" (obj [("preset", str preset), ("member", str member)])
  | .variable name => .case "variable" (str name)
  | .arrayElement name indices =>
    .case "array_element" (obj [("name", str name), ("indices", arr (Value.listJson indices))])
  | .call c => .case "call" c.toJson
  | .block b => .case "block" b.toJson

/-- A value as JSON. -/
def Value.toJson : Value → Json
  | ⟨kind, allocation⟩ =>
    obj [("kind", kind.toJson), ("allocation", Allocation.slotJson allocation)]

/-- A call as JSON. -/
def Call.toJson : Call → Json
  | ⟨callee, args, allocation⟩ =>
    obj [("callee", str callee), ("args", arr (Value.listJson args)),
      ("allocation", Allocation.slotJson allocation)]

/-- A block as JSON. -/
def Block.toJson : Block → Json
  | ⟨locals, statements⟩ =>
    obj [("locals", arr (VariableDef.listJson locals)),
      ("statements", arr (Call.listJson statements))]

/-- A variable as JSON. -/
def VariableDef.toJson : VariableDef → Json
  | ⟨attributes, ty, name, value, allocation⟩ =>
    obj [("attributes", Attribute.listJson attributes), ("ty", ty.toJson), ("name", str name),
      ("value", value.toJson), ("allocation", Allocation.slotJson allocation)]

/-- Each value of a list as JSON. -/
def Value.listJson : List Value → List Json
  | [] => []
  | v :: rest => v.toJson :: Value.listJson rest

/-- Each call of a list as JSON. -/
def Call.listJson : List Call → List Json
  | [] => []
  | c :: rest => c.toJson :: Call.listJson rest

/-- Each variable of a list as JSON. -/
def VariableDef.listJson : List VariableDef → List Json
  | [] => []
  | d :: rest => d.toJson :: VariableDef.listJson rest

end

/-- A parameter as JSON. -/
def ParamDef.toJson (d : ParamDef) : Json :=
  obj [("attributes", Attribute.listJson d.attributes), ("name", str d.name), ("ty", d.ty.toJson),
    ("default", .orNull Value.toJson d.default), ("allocation", Allocation.slotJson d.allocation)]

/-- A member of a preset as JSON. -/
def PresetMember.toJson (m : PresetMember) : Json :=
  obj [("name", str m.name), ("allocation", Allocation.slotJson m.allocation)]

/-- A preset as JSON. -/
def PresetDef.toJson (d : PresetDef) : Json :=
  obj [("attributes", Attribute.listJson d.attributes), ("name", str d.name),
    ("description", str d.description), ("members", arr (d.members.map PresetMember.toJson)),
    ("allocation", Allocation.slotJson d.allocation)]

/-- A function as JSON. -/
def FunctionDef.toJson (d : FunctionDef) : Json :=
  obj [("kind", d.kind.toJson), ("attributes", Attribute.listJson d.attributes),
    ("name", str d.name), ("description", str d.description),
    ("params", arr (d.params.map ParamDef.toJson)), ("returns", d.returns.toJson),
    ("body", d.body.toJson), ("allocation", Allocation.slotJson d.allocation)]

/-- A trigger as JSON. -/
def TriggerDef.toJson (d : TriggerDef) : Json :=
  obj [("attributes", Attribute.listJson d.attributes), ("name", str d.name),
    ("description", str d.description), ("event", d.event.toJson), ("body", d.body.toJson),
    ("allocation", Allocation.slotJson d.allocation)]

/-- A definition as JSON. -/
def Definition.toJson : Definition → Json
  | .preset d => .case "preset" d.toJson
  | .variable d => .case "variable" d.toJson
  | .function d => .case "function" d.toJson
  | .trigger d => .case "trigger" d.toJson

/-- An imported parameter as JSON. -/
def ExternalParam.toJson (d : ExternalParam) : Json :=
  obj [("attributes", Attribute.listJson d.attributes), ("name", str d.name), ("ty", d.ty.toJson),
    ("id", d.id.toJson), ("default", .orNull Value.toJson d.default),
    ("allocation", Allocation.slotJson d.allocation)]

/-- An imported function as JSON. -/
def ExternalFunction.toJson (d : ExternalFunction) : Json :=
  obj [("kind", d.kind.toJson), ("attributes", Attribute.listJson d.attributes),
    ("name", str d.name), ("id", d.id.toJson), ("params", arr (d.params.map ExternalParam.toJson)),
    ("returns", d.returns.toJson), ("allocation", Allocation.slotJson d.allocation)]

/-- An imported member of a preset as JSON. -/
def ExternalMember.toJson (m : ExternalMember) : Json :=
  obj [("name", str m.name), ("id", m.id.toJson),
    ("allocation", Allocation.slotJson m.allocation)]

/-- An imported preset as JSON. -/
def ExternalPreset.toJson (d : ExternalPreset) : Json :=
  obj [("attributes", Attribute.listJson d.attributes), ("name", str d.name),
    ("members", arr (d.members.map ExternalMember.toJson)),
    ("allocation", Allocation.slotJson d.allocation)]

/-- An imported variable as JSON. -/
def ExternalVariable.toJson (d : ExternalVariable) : Json :=
  obj [("attributes", Attribute.listJson d.attributes), ("ty", d.ty.toJson), ("name", str d.name),
    ("id", d.id.toJson), ("allocation", Allocation.slotJson d.allocation)]

/-- An imported entity as JSON. -/
def ExternalDefinition.toJson : ExternalDefinition → Json
  | .preset d => .case "preset" d.toJson
  | .function d => .case "function" d.toJson
  | .variable d => .case "variable" d.toJson

/-- A section of a program as JSON. -/
def Scope.toJson : Scope → Json
  | .import_ s =>
    .case "import" (obj [("library", str s.library),
      ("definitions", arr (s.definitions.map ExternalDefinition.toJson))])
  | .library s =>
    .case "library" (obj [("library", str s.library),
      ("definitions", arr (s.definitions.map Definition.toJson))])

/-- A program as JSON. -/
def Program.toJson (p : Program) : Json :=
  obj [("scopes", arr (p.scopes.map Scope.toJson))]

mutual

/-- An entry of a catalog as JSON. -/
def CatalogItem.toJson : CatalogItem → Json
  | .leaf name => .case "leaf" (str name)
  | .folder f => .case "folder" f.toJson

/-- A folder as JSON. -/
def Folder.toJson : Folder → Json
  | ⟨description, items, allocation⟩ =>
    obj [("description", str description), ("items", arr (CatalogItem.listJson items)),
      ("allocation", Allocation.slotJson allocation)]

/-- Each entry of a list as JSON. -/
def CatalogItem.listJson : List CatalogItem → List Json
  | [] => []
  | i :: rest => i.toJson :: CatalogItem.listJson rest

end

/-- A library of a catalog as JSON. -/
def CatalogLibrary.toJson (l : CatalogLibrary) : Json :=
  obj [("name", str l.name), ("description", str l.description),
    ("items", arr (CatalogItem.listJson l.items))]

/-- A catalog as JSON. -/
def Catalog.toJson (c : Catalog) : Json :=
  obj [("libraries", arr (c.libraries.map CatalogLibrary.toJson))]

end TriggerScript
