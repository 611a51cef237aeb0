import TriggerScript.Json.Decoder
import TriggerScript.Program

/-!
# Programs from JSON

Decoders for the syntax trees of programs, the other way of their JSON form.

The main definition is `Program.decoder`.
-/

namespace TriggerScript

open Json (Decoder)
open Json.Decoder

/-- An id from JSON. -/
def ElementId.decoder : Decoder ElementId :=
  fun n v => (word n v).map ElementId.mk

/-- An allocation from JSON. -/
def Allocation.decoder : Decoder Allocation :=
  record ["library", "id"] fun n parts =>
    match parts with
    | [library, id] => return ⟨← text.required n library, ← ElementId.decoder.required n id⟩
    | _ => none

/-- An attribute from JSON. -/
def Attribute.decoder : Decoder Attribute :=
  record ["key", "value"] fun n parts =>
    match parts with
    | [key, value] => return ⟨← text.required n key, ← text.optional n value⟩
    | _ => none

/-- A dimension from JSON. -/
def Dimension.decoder : Decoder Dimension :=
  cases fun n name content =>
    match name with
    | "size" => (int.required n content).map .size
    | "variable" => (text.required n content).map .variable
    | _ => none

/-- A type from JSON. -/
def TypeRef.decoder : Decoder TypeRef :=
  record ["name", "dims"] fun n parts =>
    match parts with
    | [name, dims] =>
      return ⟨← text.required n name, ← (list Dimension.decoder).required n dims⟩
    | _ => none

/-- A kind from JSON. -/
def CallableKind.decoder : Decoder CallableKind :=
  cases fun _ name content =>
    match name with
    | "function" => (noContent content).map fun _ => .function
    | "action" => (noContent content).map fun _ => .action
    | "event" => (noContent content).map fun _ => .event
    | _ => none

/-! ### Values

The decoders of what is inside a value are given the decoder of values. -/

/-- A call from JSON. -/
def Call.decoderWith (value : Decoder Value) : Decoder Call :=
  record ["callee", "args", "allocation"] fun n parts =>
    match parts with
    | [callee, args, allocation] =>
      return ⟨← text.required n callee, ← (list value).required n args,
        ← Allocation.decoder.optional n allocation⟩
    | _ => none

/-- A variable from JSON. -/
def VariableDef.decoderWith (value : Decoder Value) : Decoder VariableDef :=
  record ["attributes", "ty", "name", "value", "allocation"] fun n parts =>
    match parts with
    | [attributes, ty, name, v, allocation] =>
      return ⟨← (list Attribute.decoder).required n attributes, ← TypeRef.decoder.required n ty,
        ← text.required n name, ← value.required n v, ← Allocation.decoder.optional n allocation⟩
    | _ => none

/-- A block from JSON. -/
def Block.decoderWith (value : Decoder Value) : Decoder Block :=
  record ["locals", "statements"] fun n parts =>
    match parts with
    | [locals, statements] =>
      return ⟨← (list (VariableDef.decoderWith value)).required n locals,
        ← (list (Call.decoderWith value)).required n statements⟩
    | _ => none

/-- The preset and the member of a value from JSON. -/
def ValueKind.presetMemberDecoder : Decoder ValueKind :=
  record ["preset", "member"] fun n parts =>
    match parts with
    | [preset, member] =>
      return .presetMember (← text.required n preset) (← text.required n member)
    | _ => none

/-- The array and the indices of a value from JSON. -/
def ValueKind.arrayElementDecoder (value : Decoder Value) : Decoder ValueKind :=
  record ["name", "indices"] fun n parts =>
    match parts with
    | [name, indices] =>
      return .arrayElement (← text.required n name) (← (list value).required n indices)
    | _ => none

/-- A kind of value from JSON. -/
def ValueKind.decoderWith (value : Decoder Value) : Decoder ValueKind :=
  cases fun n name content =>
    match name with
    | "text" => (text.required n content).map fun s => .literal (.text s)
    | "string" => (text.required n content).map fun s => .literal (.string s)
    | "int" => (int.required n content).map fun i => .literal (.int i)
    | "bool" => (bool.required n content).map fun b => .literal (.bool b)
    | "preset_member" => presetMemberDecoder.required n content
    | "variable" => (text.required n content).map .variable
    | "array_element" => (arrayElementDecoder value).required n content
    | "call" => ((Call.decoderWith value).required n content).map .call
    | "block" => ((Block.decoderWith value).required n content).map .block
    | _ => none

/-- A value from JSON with at most this many values inside one another. Every value opens an object,
so the limit on open arrays and objects is a limit on values too. -/
def Value.decoderUpTo : Nat → Decoder Value
  | 0 => fun _ _ => none
  | levels + 1 =>
    record ["kind", "allocation"] fun n parts =>
      match parts with
      | [kind, allocation] =>
        return ⟨← (ValueKind.decoderWith (decoderUpTo levels)).required n kind,
          ← Allocation.decoder.optional n allocation⟩
      | _ => none

/-- A value from JSON. -/
def Value.decoder : Decoder Value :=
  Value.decoderUpTo limit

/-- A call from JSON. -/
def Call.decoder : Decoder Call :=
  Call.decoderWith Value.decoder

/-- A block from JSON. -/
def Block.decoder : Decoder Block :=
  Block.decoderWith Value.decoder

/-- A variable from JSON. -/
def VariableDef.decoder : Decoder VariableDef :=
  VariableDef.decoderWith Value.decoder

/-! ### Definitions -/

/-- A parameter from JSON. -/
def ParamDef.decoder : Decoder ParamDef :=
  record ["attributes", "name", "ty", "default", "allocation"] fun n parts =>
    match parts with
    | [attributes, name, ty, default, allocation] =>
      return ⟨← (list Attribute.decoder).required n attributes, ← text.required n name,
        ← TypeRef.decoder.required n ty, ← Value.decoder.optional n default,
        ← Allocation.decoder.optional n allocation⟩
    | _ => none

/-- A member of a preset from JSON. -/
def PresetMember.decoder : Decoder PresetMember :=
  record ["name", "allocation"] fun n parts =>
    match parts with
    | [name, allocation] =>
      return ⟨← text.required n name, ← Allocation.decoder.optional n allocation⟩
    | _ => none

/-- A preset from JSON. -/
def PresetDef.decoder : Decoder PresetDef :=
  record ["attributes", "name", "description", "members", "allocation"] fun n parts =>
    match parts with
    | [attributes, name, description, members, allocation] =>
      return ⟨← (list Attribute.decoder).required n attributes, ← text.required n name,
        ← text.required n description, ← (list PresetMember.decoder).required n members,
        ← Allocation.decoder.optional n allocation⟩
    | _ => none

/-- A function from JSON. -/
def FunctionDef.decoder : Decoder FunctionDef :=
  record ["kind", "attributes", "name", "description", "params", "returns", "body", "allocation"]
    fun n parts =>
      match parts with
      | [kind, attributes, name, description, params, returns, body, allocation] =>
        return ⟨← CallableKind.decoder.required n kind,
          ← (list Attribute.decoder).required n attributes, ← text.required n name,
          ← text.required n description, ← (list ParamDef.decoder).required n params,
          ← TypeRef.decoder.required n returns, ← Block.decoder.required n body,
          ← Allocation.decoder.optional n allocation⟩
      | _ => none

/-- A trigger from JSON. -/
def TriggerDef.decoder : Decoder TriggerDef :=
  record ["attributes", "name", "description", "event", "body", "allocation"] fun n parts =>
    match parts with
    | [attributes, name, description, event, body, allocation] =>
      return ⟨← (list Attribute.decoder).required n attributes, ← text.required n name,
        ← text.required n description, ← Call.decoder.required n event,
        ← Block.decoder.required n body, ← Allocation.decoder.optional n allocation⟩
    | _ => none

/-- A definition from JSON. -/
def Definition.decoder : Decoder Definition :=
  cases fun n name content =>
    match name with
    | "preset" => (PresetDef.decoder.required n content).map .preset
    | "variable" => (VariableDef.decoder.required n content).map .variable
    | "function" => (FunctionDef.decoder.required n content).map .function
    | "trigger" => (TriggerDef.decoder.required n content).map .trigger
    | _ => none

/-- An imported parameter from JSON. -/
def ExternalParam.decoder : Decoder ExternalParam :=
  record ["attributes", "name", "ty", "id", "default", "allocation"] fun n parts =>
    match parts with
    | [attributes, name, ty, id, default, allocation] =>
      return ⟨← (list Attribute.decoder).required n attributes, ← text.required n name,
        ← TypeRef.decoder.required n ty, ← ElementId.decoder.required n id,
        ← Value.decoder.optional n default, ← Allocation.decoder.optional n allocation⟩
    | _ => none

/-- An imported function from JSON. -/
def ExternalFunction.decoder : Decoder ExternalFunction :=
  record ["kind", "attributes", "name", "id", "params", "returns", "allocation"] fun n parts =>
    match parts with
    | [kind, attributes, name, id, params, returns, allocation] =>
      return ⟨← CallableKind.decoder.required n kind,
        ← (list Attribute.decoder).required n attributes, ← text.required n name,
        ← ElementId.decoder.required n id, ← (list ExternalParam.decoder).required n params,
        ← TypeRef.decoder.required n returns, ← Allocation.decoder.optional n allocation⟩
    | _ => none

/-- An imported member of a preset from JSON. -/
def ExternalMember.decoder : Decoder ExternalMember :=
  record ["name", "id", "allocation"] fun n parts =>
    match parts with
    | [name, id, allocation] =>
      return ⟨← text.required n name, ← ElementId.decoder.required n id,
        ← Allocation.decoder.optional n allocation⟩
    | _ => none

/-- An imported preset from JSON. -/
def ExternalPreset.decoder : Decoder ExternalPreset :=
  record ["attributes", "name", "members", "allocation"] fun n parts =>
    match parts with
    | [attributes, name, members, allocation] =>
      return ⟨← (list Attribute.decoder).required n attributes, ← text.required n name,
        ← (list ExternalMember.decoder).required n members,
        ← Allocation.decoder.optional n allocation⟩
    | _ => none

/-- An imported variable from JSON. -/
def ExternalVariable.decoder : Decoder ExternalVariable :=
  record ["attributes", "ty", "name", "id", "allocation"] fun n parts =>
    match parts with
    | [attributes, ty, name, id, allocation] =>
      return ⟨← (list Attribute.decoder).required n attributes, ← TypeRef.decoder.required n ty,
        ← text.required n name, ← ElementId.decoder.required n id,
        ← Allocation.decoder.optional n allocation⟩
    | _ => none

/-- An imported entity from JSON. -/
def ExternalDefinition.decoder : Decoder ExternalDefinition :=
  cases fun n name content =>
    match name with
    | "preset" => (ExternalPreset.decoder.required n content).map .preset
    | "function" => (ExternalFunction.decoder.required n content).map .function
    | "variable" => (ExternalVariable.decoder.required n content).map .variable
    | _ => none

/-- An import scope from JSON. -/
def ImportScope.decoder : Decoder ImportScope :=
  record ["library", "definitions"] fun n parts =>
    match parts with
    | [library, definitions] =>
      return ⟨← text.required n library, ← (list ExternalDefinition.decoder).required n definitions⟩
    | _ => none

/-- A library scope from JSON. -/
def LibraryScope.decoder : Decoder LibraryScope :=
  record ["library", "definitions"] fun n parts =>
    match parts with
    | [library, definitions] =>
      return ⟨← text.required n library, ← (list Definition.decoder).required n definitions⟩
    | _ => none

/-- A section of a program from JSON. -/
def Scope.decoder : Decoder Scope :=
  cases fun n name content =>
    match name with
    | "import" => (ImportScope.decoder.required n content).map .import_
    | "library" => (LibraryScope.decoder.required n content).map .library
    | _ => none

/-- A program from JSON. -/
def Program.decoder : Decoder Program :=
  record ["scopes"] fun n parts =>
    match parts with
    | [scopes] => return ⟨← (list Scope.decoder).required n scopes⟩
    | _ => none

end TriggerScript
