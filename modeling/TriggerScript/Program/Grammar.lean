import TriggerScript.Grammar.Matching
import TriggerScript.Program.Phrase

/-!
# The grammar of programs

```text
program      := section*
section      := imported | library
imported     := "import" STR "{" ext_item* "}"
library      := "library" STR "{" lib_item* "}"
ext_item     := attrs "preset" LABEL "{" (LABEL "=" ID),* "}"
              | attrs ("function"|"action"|"event") LABEL "=" ID "(" ext_param,* ")" ret ";"
              | attrs type LABEL "=" ID ";"
ext_param    := attrs LABEL ":" type "=" ID [ "(" value ")" ]
lib_item     := attrs "preset" LABEL STR "{" LABEL,* "}"
              | attrs "function" LABEL STR "(" param,* ")" ret locals block
              | attrs "action"   LABEL STR "(" param,* ")" locals block
              | attrs "trigger"  LABEL STR call locals block
              | variable
variable     := attrs type LABEL "=" value ";"
param        := attrs LABEL ":" type [ "=" value ]
ret          := ε | "->" type
type         := LABEL ("[" (INT | LABEL) "]")*
attrs        := ε | "[" (LABEL | LABEL "=" STR),* "]"
locals       := variable*
block        := "{" variable* statement* "}"
statement    := call ";"
call         := LABEL "(" value,* ")"
value        := TEXT | STR | INT | BOOL | LABEL "." LABEL | LABEL
              | LABEL ("[" value "]")+ | call | block
```

The locals between a signature and its block come in front of those inside the block. An action
returns nothing. Each rule below has a reducer of its own, which takes the parts out of the phrases
of its symbols from left to right.
-/

namespace TriggerScript

namespace ProgramGrammar

open Grammar
open ProgramPhrase (toText toScope toDefinition toExternal toExternalMember toExternalParam toParam
  toValue toCall toDimension)

/-- A token of this name. -/
def t (name : String) : Symbol :=
  .terminal name

/-- A part that another rule describes. -/
def r (name : String) : Symbol :=
  .rule name

/-- `sections` -/
def program : Reducer ProgramPhrase
  | [sections] => do
    let scopes ← sections.listOf toScope
    return .program ⟨scopes⟩
  | _ => .error tooFewValues

/-- `"import" STR "{" ext_items "}"` -/
def importScope : Reducer ProgramPhrase
  | [_, library, _, items, _] => do
    let library ← library.toText
    let definitions ← items.listOf toExternal
    return .scope (.import_ ⟨library, definitions⟩)
  | _ => .error tooFewValues

/-- `"library" STR "{" lib_items "}"` -/
def libraryScope : Reducer ProgramPhrase
  | [_, library, _, items, _] => do
    let library ← library.toText
    let definitions ← items.listOf toDefinition
    return .scope (.library ⟨library, definitions⟩)
  | _ => .error tooFewValues

/-- `attrs "preset" LABEL "{" ext_members "}"` -/
def externalPreset : Reducer ProgramPhrase
  | [attrs, _, name, _, members, _] => do
    let attributes ← attrs.attributes
    let name ← name.toText
    let members ← members.listOf toExternalMember
    return .external (.preset ⟨attributes, name, members, none⟩)
  | _ => .error tooFewValues

/-- `attrs callable_kind LABEL "=" ID "(" ext_params ")" ret ";"` -/
def externalFunction : Reducer ProgramPhrase
  | [attrs, kind, name, _, id, _, params, _, returns, _] => do
    let attributes ← attrs.attributes
    let kind ← kind.toKind
    let name ← name.toText
    let id ← id.toId
    let params ← params.listOf toExternalParam
    let returns ← returns.toType
    return .external (.function ⟨kind, attributes, name, id, params, returns, none⟩)
  | _ => .error tooFewValues

/-- `attrs type LABEL "=" ID ";"` -/
def externalVariable : Reducer ProgramPhrase
  | [attrs, ty, name, _, id, _] => do
    let attributes ← attrs.attributes
    let ty ← ty.toType
    let name ← name.toText
    let id ← id.toId
    return .external (.variable ⟨attributes, ty, name, id, none⟩)
  | _ => .error tooFewValues

/-- `LABEL "=" ID` -/
def externalMember : Reducer ProgramPhrase
  | [name, _, id] => do
    let name ← name.toText
    let id ← id.toId
    return .externalMember ⟨name, id, none⟩
  | _ => .error tooFewValues

/-- `attrs LABEL ":" type "=" ID` -/
def externalParam : Reducer ProgramPhrase
  | [attrs, name, _, ty, _, id] => do
    let attributes ← attrs.attributes
    let name ← name.toText
    let ty ← ty.toType
    let id ← id.toId
    return .externalParam ⟨attributes, name, ty, id, none, none⟩
  | _ => .error tooFewValues

/-- `attrs LABEL ":" type "=" ID "(" value ")"` -/
def externalParamWithDefault : Reducer ProgramPhrase
  | [attrs, name, _, ty, _, id, _, default, _] => do
    let attributes ← attrs.attributes
    let name ← name.toText
    let ty ← ty.toType
    let id ← id.toId
    let default ← default.toValue
    return .externalParam ⟨attributes, name, ty, id, some default, none⟩
  | _ => .error tooFewValues

/-- `attrs "preset" LABEL STR "{" member_names "}"` -/
def preset : Reducer ProgramPhrase
  | [attrs, _, name, description, _, members, _] => do
    let attributes ← attrs.attributes
    let name ← name.toText
    let description ← description.toText
    let members ← members.listOf toText
    return .definition
      (.preset ⟨attributes, name, description, members.map fun m => ⟨m, none⟩, none⟩)
  | _ => .error tooFewValues

/-- A body: the locals in front of a block come first. -/
def body (locals block : ProgramPhrase) : Except String Block := do
  let outer ← locals.variableDefs
  let block ← block.toBlock
  return ⟨outer ++ block.locals, block.statements⟩

/-- `attrs "function" LABEL STR "(" params ")" ret locals block` -/
def function : Reducer ProgramPhrase
  | [attrs, _, name, description, _, params, _, returns, locals, block] => do
    let attributes ← attrs.attributes
    let name ← name.toText
    let description ← description.toText
    let params ← params.listOf toParam
    let returns ← returns.toType
    let body ← body locals block
    return .definition
      (.function ⟨.function, attributes, name, description, params, returns, body, none⟩)
  | _ => .error tooFewValues

/-- `attrs "action" LABEL STR "(" params ")" locals block` -/
def action : Reducer ProgramPhrase
  | [attrs, _, name, description, _, params, _, locals, block] => do
    let attributes ← attrs.attributes
    let name ← name.toText
    let description ← description.toText
    let params ← params.listOf toParam
    let body ← body locals block
    return .definition
      (.function ⟨.action, attributes, name, description, params, .void, body, none⟩)
  | _ => .error tooFewValues

/-- `attrs "trigger" LABEL STR call locals block` -/
def trigger : Reducer ProgramPhrase
  | [attrs, _, name, description, event, locals, block] => do
    let attributes ← attrs.attributes
    let name ← name.toText
    let description ← description.toText
    let event ← event.toCall
    let body ← body locals block
    return .definition (.trigger ⟨attributes, name, description, event, body, none⟩)
  | _ => .error tooFewValues

/-- `variable` -/
def globalVariable : Reducer ProgramPhrase
  | [d] => do
    let d ← d.toVariable
    return .definition (.variable d)
  | _ => .error tooFewValues

/-- `attrs LABEL ":" type` -/
def param : Reducer ProgramPhrase
  | [attrs, name, _, ty] => do
    let attributes ← attrs.attributes
    let name ← name.toText
    let ty ← ty.toType
    return .param ⟨attributes, name, ty, none, none⟩
  | _ => .error tooFewValues

/-- `attrs LABEL ":" type "=" value` -/
def paramWithDefault : Reducer ProgramPhrase
  | [attrs, name, _, ty, _, default] => do
    let attributes ← attrs.attributes
    let name ← name.toText
    let ty ← ty.toType
    let default ← default.toValue
    return .param ⟨attributes, name, ty, some default, none⟩
  | _ => .error tooFewValues

/-- `attrs type LABEL "=" value ";"` -/
def variableDef : Reducer ProgramPhrase
  | [attrs, ty, name, _, value, _] => do
    let attributes ← attrs.attributes
    let ty ← ty.toType
    let name ← name.toText
    let value ← value.toValue
    return .variable ⟨attributes, ty, name, value, none⟩
  | _ => .error tooFewValues

/-- `LABEL dims` -/
def typeRef : Reducer ProgramPhrase
  | [name, dims] => do
    let name ← name.toText
    let dims ← dims.listOf toDimension
    return .type ⟨name, dims⟩
  | _ => .error tooFewValues

/-- `"[" INT "]"` -/
def sizeDimension : Reducer ProgramPhrase
  | [_, n, _] => do
    let n ← n.toInt
    return .dimension (.size n)
  | _ => .error tooFewValues

/-- `"[" LABEL "]"` -/
def variableDimension : Reducer ProgramPhrase
  | [_, name, _] => do
    let name ← name.toText
    return .dimension (.variable name)
  | _ => .error tooFewValues

/-- `LABEL` -/
def flag : Reducer ProgramPhrase
  | [key] => do
    let key ← key.toText
    return .attribute ⟨key, none⟩
  | _ => .error tooFewValues

/-- `LABEL "=" STR` -/
def valuedAttribute : Reducer ProgramPhrase
  | [key, _, value] => do
    let key ← key.toText
    let value ← value.toText
    return .attribute ⟨key, some value⟩
  | _ => .error tooFewValues

/-- `"{" block_locals statements "}"` -/
def block : Reducer ProgramPhrase
  | [_, locals, statements, _] => do
    let locals ← locals.variableDefs
    let statements ← statements.listOf toCall
    return .block ⟨locals, statements⟩
  | _ => .error tooFewValues

/-- `LABEL "(" args ")"` -/
def call : Reducer ProgramPhrase
  | [callee, _, args, _] => do
    let callee ← callee.toText
    let args ← args.listOf toValue
    return .call ⟨callee, args, none⟩
  | _ => .error tooFewValues

/-- A value of this kind that has no allocation yet. -/
def value (kind : ValueKind) : ProgramPhrase :=
  .value ⟨kind, none⟩

/-- `TEXT` -/
def textLiteral : Reducer ProgramPhrase
  | [s] => do
    let s ← s.toText
    return value (.literal (.text s))
  | _ => .error tooFewValues

/-- `STR` -/
def stringLiteral : Reducer ProgramPhrase
  | [s] => do
    let s ← s.toText
    return value (.literal (.string s))
  | _ => .error tooFewValues

/-- `INT` -/
def intLiteral : Reducer ProgramPhrase
  | [n] => do
    let n ← n.toInt
    return value (.literal (.int n))
  | _ => .error tooFewValues

/-- `BOOL` -/
def boolLiteral : Reducer ProgramPhrase
  | [b] => do
    let b ← b.toBool
    return value (.literal (.bool b))
  | _ => .error tooFewValues

/-- `LABEL "." LABEL` -/
def presetMember : Reducer ProgramPhrase
  | [preset, _, member] => do
    let preset ← preset.toText
    let member ← member.toText
    return value (.presetMember preset member)
  | _ => .error tooFewValues

/-- `LABEL` -/
def variableValue : Reducer ProgramPhrase
  | [name] => do
    let name ← name.toText
    return value (.variable name)
  | _ => .error tooFewValues

/-- `LABEL index indices` -/
def arrayElement : Reducer ProgramPhrase
  | [name, index, indices] => do
    let name ← name.toText
    let first ← index.toValue
    let others ← indices.listOf toValue
    return value (.arrayElement name (first :: others))
  | _ => .error tooFewValues

/-- `call` -/
def callValue : Reducer ProgramPhrase
  | [c] => do
    let c ← c.toCall
    return value (.call c)
  | _ => .error tooFewValues

/-- `block` -/
def blockValue : Reducer ProgramPhrase
  | [b] => do
    let b ← b.toBlock
    return value (.block b)
  | _ => .error tooFewValues

/-- A reducer that needs no values. -/
def constant (p : ProgramPhrase) : Reducer ProgramPhrase :=
  fun _ => .ok p

/-- The sections of a program. -/
def sectionClauses : List (Clause ProgramPhrase) :=
  [.rule "program" [r "sections"] program,
    .many "sections" (r "section"),
    .same "section" (r "import"),
    .same "section" (r "library"),
    .rule "import" [t "import", t "str", t "\x7b", r "ext_items", t "\x7d"] importScope,
    .rule "library" [t "library", t "str", t "\x7b", r "lib_items", t "\x7d"] libraryScope,
    .many "ext_items" (r "ext_item"),
    .many "lib_items" (r "lib_item")]

/-- What an import scope lists. -/
def externalClauses : List (Clause ProgramPhrase) :=
  [.rule "ext_item" [r "attrs", t "preset", t "label", t "\x7b", r "ext_members", t "\x7d"]
      externalPreset,
    .rule "ext_item"
      [r "attrs", r "callable_kind", t "label", t "=", t "id", t "(", r "ext_params", t ")",
        r "ret", t ";"]
      externalFunction,
    .rule "ext_item" [r "attrs", r "type", t "label", t "=", t "id", t ";"] externalVariable,
    .separated "ext_members" (r "ext_member") (t ","),
    .rule "ext_member" [t "label", t "=", t "id"] externalMember,
    .rule "callable_kind" [t "function"] (constant (.kind .function)),
    .rule "callable_kind" [t "action"] (constant (.kind .action)),
    .rule "callable_kind" [t "event"] (constant (.kind .event)),
    .separated "ext_params" (r "ext_param") (t ","),
    .rule "ext_param" [r "attrs", t "label", t ":", r "type", t "=", t "id"] externalParam,
    .rule "ext_param"
      [r "attrs", t "label", t ":", r "type", t "=", t "id", t "(", r "value", t ")"]
      externalParamWithDefault]

/-- What a library scope defines. -/
def libraryClauses : List (Clause ProgramPhrase) :=
  [.rule "lib_item"
      [r "attrs", t "preset", t "label", t "str", t "\x7b", r "member_names", t "\x7d"] preset,
    .separated "member_names" (t "label") (t ","),
    .rule "lib_item"
      [r "attrs", t "function", t "label", t "str", t "(", r "params", t ")", r "ret", r "locals",
        r "block"]
      function,
    .rule "lib_item"
      [r "attrs", t "action", t "label", t "str", t "(", r "params", t ")", r "locals", r "block"]
      action,
    .rule "lib_item"
      [r "attrs", t "trigger", t "label", t "str", r "call", r "locals", r "block"] trigger,
    .rule "lib_item" [r "variable"] globalVariable,
    .many "locals" (r "variable"),
    .separated "params" (r "param") (t ","),
    .rule "param" [r "attrs", t "label", t ":", r "type"] param,
    .rule "param" [r "attrs", t "label", t ":", r "type", t "=", r "value"] paramWithDefault,
    .rule "ret" [] (constant (.type .void)),
    .rule "ret" [t "->", r "type"] Reducers.second]

/-- Variables, types and attributes. -/
def declarationClauses : List (Clause ProgramPhrase) :=
  [.rule "variable" [r "attrs", r "type", t "label", t "=", r "value", t ";"] variableDef,
    .rule "type" [t "label", r "dims"] typeRef,
    .many "dims" (r "dim"),
    .rule "dim" [t "[", t "int", t "]"] sizeDimension,
    .rule "dim" [t "[", t "label", t "]"] variableDimension,
    .rule "attrs" [] Reducers.emptyList,
    .rule "attrs" [t "[", r "attr_list", t "]"] Reducers.second,
    .separated "attr_list" (r "attribute") (t ","),
    .rule "attribute" [t "label"] flag,
    .rule "attribute" [t "label", t "=", t "str"] valuedAttribute]

/-- Blocks, calls and values. -/
def valueClauses : List (Clause ProgramPhrase) :=
  [.rule "block" [t "\x7b", r "block_locals", r "statements", t "\x7d"] block,
    .many "block_locals" (r "variable"),
    .many "statements" (r "statement"),
    .rule "statement" [r "call", t ";"] Reducers.first,
    .rule "call" [t "label", t "(", r "args", t ")"] call,
    .separated "args" (r "value") (t ","),
    .rule "value" [t "text"] textLiteral,
    .rule "value" [t "str"] stringLiteral,
    .rule "value" [t "int"] intLiteral,
    .rule "value" [t "bool"] boolLiteral,
    .rule "value" [t "label", t ".", t "label"] presetMember,
    .rule "value" [t "label"] variableValue,
    .rule "value" [t "label", r "index", r "indices"] arrayElement,
    .rule "value" [r "call"] callValue,
    .rule "value" [r "block"] blockValue,
    .many "indices" (r "index"),
    .rule "index" [t "[", r "value", t "]"] Reducers.second]

/-- All clauses of the grammar. -/
def clauses : List (Clause ProgramPhrase) :=
  sectionClauses ++ externalClauses ++ libraryClauses ++ declarationClauses ++ valueClauses

end ProgramGrammar

/-- The grammar of programs. Every rule it mentions has a production. -/
def programGrammar : Grammar ProgramPhrase :=
  ⟨"program", Grammar.Clause.allProductions 0 ProgramGrammar.clauses⟩

end TriggerScript
