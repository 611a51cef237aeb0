import TriggerScript.Program.Grammar
import TriggerScript.Proofs.Grammar.Languages

/-!
# Renderings of programs

The token lists that the documented grammar gives for a tree. A tree can have more than one rendering:

* an empty list of attributes is nothing or `[]`,
* a return type that is void is nothing or `-> void`,
* the locals of a body stand in front of its braces or inside them, as far as the order allows,
* a keyword may carry any value, and the letters of an id may be in lower case.

A tree with a slot that is filled, an array element without an index or an action that returns
something has none.
-/

namespace TriggerScript

open Grammar

namespace Rendering

/-- A token of this name, whatever it carries. -/
def keyword (name : String) : Language Token :=
  {ts | ∃ t : Token, ts = [t] ∧ t.name = name}

/-- A token of this name that carries this value. -/
def word (name : String) (value : TokenValue) : Language Token :=
  {ts | ∃ t : Token, ts = [t] ∧ t.name = name ∧ t.value = value}

/-- `LABEL` -/
def label (s : String) : Language Token :=
  word "label" (.text s)

/-- `STR` -/
def str (s : String) : Language Token :=
  word "str" (.text s)

/-- `ID`: the digits of the id, each in upper or lower case. -/
def ident (id : ElementId) : Language Token :=
  {ts | ∃ (t : Token) (s : String), ts = [t] ∧ t.name = "id" ∧ t.value = .text s ∧
    s.toList.map Char.toUpper = id.chars}

/-- `item,*` -/
def commas : List (Language Token) → Language Token :=
  separated (keyword ",")

/-! Whether tokens are a rendering is read off them from left to right. -/

variable {token : Token} {ts : List Token} {name : String} {value : TokenValue} {l : Language Token}

/-- The first token is one of those that may come first, and the others are a rendering of the rest. -/
lemma cons_mem_mul_of_single {first : Language Token} {P : Token → Prop}
    (hfirst : ∀ us, us ∈ first ↔ ∃ t, us = [t] ∧ P t) : token :: ts ∈ first * l ↔ P token ∧ ts ∈ l := by
  rw [Language.mem_mul]
  constructor
  · rintro ⟨us, hus, rest, hrest, heq⟩
    obtain ⟨t, rfl, ht⟩ := (hfirst us).1 hus
    obtain ⟨rfl, rfl⟩ := List.cons.inj heq
    exact ⟨ht, hrest⟩
  · rintro ⟨htoken, hts⟩
    exact ⟨[token], (hfirst _).2 ⟨token, rfl, htoken⟩, ts, hts, rfl⟩

@[simp]
lemma cons_mem_keyword_mul : token :: ts ∈ keyword name * l ↔ token.name = name ∧ ts ∈ l :=
  cons_mem_mul_of_single fun _ => Iff.rfl

@[simp]
lemma cons_mem_word_mul :
    token :: ts ∈ word name value * l ↔ (token.name = name ∧ token.value = value) ∧ ts ∈ l :=
  cons_mem_mul_of_single fun _ => Iff.rfl

@[simp]
lemma cons_mem_keyword : token :: ts ∈ keyword name ↔ token.name = name ∧ ts = [] := by
  rw [← mul_one (keyword name), cons_mem_keyword_mul, Language.mem_one]

end Rendering

open Rendering

/-- `LABEL | LABEL "=" STR` -/
def Attribute.rendering : Attribute → Language Token
  | ⟨name, none⟩ => label name
  | ⟨name, some value⟩ => label name * keyword "=" * str value

/-- `attrs := ε | "[" attribute,* "]"` -/
def attributesRendering (attributes : List Attribute) : Language Token :=
  given (attributes = []) + keyword "[" * commas (attributes.map Attribute.rendering) * keyword "]"

/-- `"[" (INT | LABEL) "]"` -/
def Dimension.rendering : Dimension → Language Token
  | .size n => keyword "[" * word "int" (.int n) * keyword "]"
  | .variable name => keyword "[" * label name * keyword "]"

/-- `type := LABEL dimension*` -/
def TypeRef.rendering (ty : TypeRef) : Language Token :=
  label ty.name * (ty.dims.map Dimension.rendering).prod

/-- `ret := ε | "->" type` -/
def returnsRendering (ty : TypeRef) : Language Token :=
  given (ty = .void) + keyword "->" * ty.rendering

mutual

/-- A value whose slot is empty. -/
def Value.rendering : Value → Language Token
  | ⟨kind, allocation⟩ => given (allocation = none) * kind.rendering

/-- `value := TEXT | STR | INT | BOOL | LABEL "." LABEL | LABEL | LABEL ("[" value "]")+ | call |
block` -/
def ValueKind.rendering : ValueKind → Language Token
  | .literal (.text s) => word "text" (.text s)
  | .literal (.string s) => str s
  | .literal (.int n) => word "int" (.int n)
  | .literal (.bool b) => word "bool" (.bool b)
  | .presetMember preset member => label preset * keyword "." * label member
  | .variable name => label name
  | .arrayElement name indices => given (indices ≠ []) * label name *
      ((valueRenderings indices).map fun index => keyword "[" * index * keyword "]").prod
  | .call c => c.rendering
  | .block b => b.rendering

/-- `call := LABEL "(" value,* ")"` -/
def Call.rendering : Call → Language Token
  | ⟨callee, args, allocation⟩ => given (allocation = none) *
      (label callee * keyword "(" * commas (valueRenderings args) * keyword ")")

/-- `block := "{" variable* (call ";")* "}"` -/
def Block.rendering : Block → Language Token
  | ⟨locals, statements⟩ => keyword "\x7b" * (variableRenderings locals).prod *
      ((callRenderings statements).map (· * keyword ";")).prod * keyword "\x7d"

/-- `variable := attrs type LABEL "=" value ";"` -/
def VariableDef.rendering : VariableDef → Language Token
  | ⟨attributes, ty, name, value, allocation⟩ => given (allocation = none) *
      (attributesRendering attributes * ty.rendering * label name * keyword "=" * value.rendering *
        keyword ";")

/-- The renderings of values. -/
def valueRenderings : List Value → List (Language Token)
  | [] => []
  | v :: rest => v.rendering :: valueRenderings rest

/-- The renderings of calls. -/
def callRenderings : List Call → List (Language Token)
  | [] => []
  | c :: rest => c.rendering :: callRenderings rest

/-- The renderings of variables. -/
def variableRenderings : List VariableDef → List (Language Token)
  | [] => []
  | d :: rest => d.rendering :: variableRenderings rest

end

/-- `param := attrs LABEL ":" type [ "=" value ]` -/
def ParamDef.rendering (d : ParamDef) : Language Token :=
  given (d.allocation = none) *
    (attributesRendering d.attributes * label d.name * keyword ":" * d.ty.rendering *
      match d.default with
      | none => 1
      | some v => keyword "=" * v.rendering)

/-- Two lists that make up the locals of a body. -/
abbrev Block.Split (b : Block) : Type :=
  {s : List VariableDef × List VariableDef // s.1 ++ s.2 = b.locals}

/-- `locals block`, where the locals stand in front of the block or in it. -/
def bodyRendering (b : Block) : Language Token :=
  ⨆ s : b.Split, (variableRenderings s.1.1).prod * Block.rendering ⟨s.1.2, b.statements⟩

/-- What a library defines:
```text
lib_item := attrs "preset" LABEL STR "{" LABEL,* "}"
          | attrs "function" LABEL STR "(" param,* ")" ret locals block
          | attrs "action" LABEL STR "(" param,* ")" locals block
          | attrs "trigger" LABEL STR call locals block
          | variable
```
An action returns nothing. -/
def Definition.rendering : Definition → Language Token
  | .preset d => given ((∀ m ∈ d.members, m.allocation = none) ∧ d.allocation = none) *
      (attributesRendering d.attributes * keyword "preset" * label d.name * str d.description *
        keyword "\x7b" * commas (d.members.map fun m => label m.name) * keyword "\x7d")
  | .function d =>
    match d.kind with
    | .function => given (d.allocation = none) * (attributesRendering d.attributes *
        keyword "function" * label d.name * str d.description * keyword "(" *
        commas (d.params.map ParamDef.rendering) * keyword ")" * returnsRendering d.returns *
        bodyRendering d.body)
    | .action => given (d.returns = .void ∧ d.allocation = none) *
        (attributesRendering d.attributes * keyword "action" * label d.name * str d.description *
          keyword "(" * commas (d.params.map ParamDef.rendering) * keyword ")" *
          bodyRendering d.body)
    | .event => 0
  | .trigger d => given (d.allocation = none) *
      (attributesRendering d.attributes * keyword "trigger" * label d.name * str d.description *
        d.event.rendering * bodyRendering d.body)
  | .variable d => d.rendering

/-- `"function" | "action" | "event"` -/
def CallableKind.rendering : CallableKind → Language Token
  | .function => keyword "function"
  | .action => keyword "action"
  | .event => keyword "event"

/-- `LABEL "=" ID` -/
def ExternalMember.rendering (m : ExternalMember) : Language Token :=
  given (m.allocation = none) * (label m.name * keyword "=" * ident m.id)

/-- `ext_param := attrs LABEL ":" type "=" ID [ "(" value ")" ]` -/
def ExternalParam.rendering (d : ExternalParam) : Language Token :=
  given (d.allocation = none) *
    (attributesRendering d.attributes * label d.name * keyword ":" * d.ty.rendering *
      keyword "=" * ident d.id *
      match d.default with
      | none => 1
      | some v => keyword "(" * v.rendering * keyword ")")

/-- What is imported:
```text
ext_item := attrs "preset" LABEL "{" (LABEL "=" ID),* "}"
          | attrs ("function"|"action"|"event") LABEL "=" ID "(" ext_param,* ")" ret ";"
          | attrs type LABEL "=" ID ";"
``` -/
def ExternalDefinition.rendering : ExternalDefinition → Language Token
  | .preset d => given (d.allocation = none) *
      (attributesRendering d.attributes * keyword "preset" * label d.name * keyword "\x7b" *
        commas (d.members.map ExternalMember.rendering) * keyword "\x7d")
  | .function d => given (d.allocation = none) *
      (attributesRendering d.attributes * d.kind.rendering * label d.name * keyword "=" *
        ident d.id * keyword "(" * commas (d.params.map ExternalParam.rendering) * keyword ")" *
        returnsRendering d.returns * keyword ";")
  | .variable d => given (d.allocation = none) *
      (attributesRendering d.attributes * d.ty.rendering * label d.name * keyword "=" *
        ident d.id * keyword ";")

/-- `section := "import" STR "{" ext_item* "}" | "library" STR "{" lib_item* "}"` -/
def Scope.rendering : Scope → Language Token
  | .import_ s => keyword "import" * str s.library * keyword "\x7b" *
      (s.definitions.map ExternalDefinition.rendering).prod * keyword "\x7d"
  | .library s => keyword "library" * str s.library * keyword "\x7b" *
      (s.definitions.map Definition.rendering).prod * keyword "\x7d"

/-- `program := section*` -/
def Program.rendering (p : Program) : Language Token :=
  (p.scopes.map Scope.rendering).prod

end TriggerScript
