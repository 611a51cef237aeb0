import TriggerScript.Proofs.Identifiers
import TriggerScript.Proofs.Program.Parsing
import TriggerScript.Proofs.Program.Rendering

/-!
# What the grammar of programs accepts

The token lists for which a rule has a given value are the renderings of that value. This is shown rule
by rule: what a rule accepts is made of what its symbols accept, and its reducer says with which values.
The rules for values, calls, blocks and variables use each other, so they come in one induction over the
tree (`language_value`). The other rules follow in the order of the grammar, up to whole programs.
-/

namespace TriggerScript

open Grammar Rendering

namespace ProgramGrammar

open ProgramPhrase

/-- The token lists for which the symbol has a value of the set. -/
abbrev L (x : Symbol) (values : Set ProgramPhrase) : Language Token :=
  programGrammar.language x values

@[simp]
lemma language_keyword (name : String) : L (t name) Set.univ = keyword name := by
  ext ts
  refine mem_language_terminal.trans (exists_congr fun token => ?_)
  rw [and_iff_left (Set.mem_univ _)]

@[simp]
lemma language_word (name : String) (value : TokenValue) :
    L (t name) {.token value} = word name value := by
  ext ts
  refine mem_language_terminal.trans (exists_congr fun token => ?_)
  simp [Phrase.ofToken]

/-- The phrases of which a reducer makes the id. -/
def idPhrases (id : ElementId) : Set ProgramPhrase :=
  {p | p.toId = .ok id}

@[simp]
lemma mem_idPhrases {id : ElementId} {p : ProgramPhrase} : p ∈ idPhrases id ↔ p.toId = .ok id :=
  Iff.rfl

@[simp]
lemma language_ident (id : ElementId) : L (t "id") (idPhrases id) = ident id := by
  ext ts
  refine mem_language_terminal.trans (exists_congr fun token => ?_)
  simp [Phrase.ofToken, ElementId.ofText?_eq_some_iff]

/-- A list of nodes is accepted item by item. -/
lemma language_list_of {α : Type} {name : String} {item : Symbol} {separator : Option Symbol}
    (h : IsList name item separator) (f : α → ProgramPhrase) (xs : List α) :
    L (r name) {.list (xs.map f)} =
      separated (programGrammar.between separator) (xs.map fun x => L item {f x}) := by
  obtain ⟨tail, rest, hlists⟩ := h
  refine (language_list hlists (xs.map f)).trans ?_
  rw [List.map_map, Function.comp_def]

-- From here on simp opens the reducers and the sequences of symbols. So it shows that no other
-- alternative of a rule makes the value, and of which parts the alternative at hand makes it.
attribute [local simp] Production.Never except_bind_ok_iff except_map_ok_iff Grammar.sequence given_of
  mul_assoc and_assoc label str

/-! ### Attributes and types -/

section

attribute [local simp] flag valuedAttribute sizeDimension variableDimension typeRef constant
  Reducers.second Reducers.emptyList Phrase.ofList

lemma language_attribute (a : Attribute) : L (r "attribute") {.attribute a} = a.rendering := by
  obtain ⟨name, _ | value⟩ := a
  · refine (language_rule_eq [] alternatives_attribute True [{.token (.text name)}]
      (by simp) (by simp)).trans ?_
    simp [Attribute.rendering]
  · refine (language_rule_eq [_] alternatives_attribute True
      [{.token (.text name)}, Set.univ, {.token (.text value)}] (by simp) (by simp)).trans ?_
    simp [Attribute.rendering]

lemma language_attr_list (xs : List Attribute) : L (r "attr_list") {.list (xs.map .attribute)} =
    commas (xs.map Attribute.rendering) := by
  rw [language_list_of isList_attr_list]
  simp [between, commas, language_attribute]

lemma language_attrs (xs : List Attribute) :
    L (r "attrs") {.list (xs.map .attribute)} = attributesRendering xs := by
  refine (language_rule_of_pair alternatives_attrs).trans (congrArg₂ (· + ·)
    ((Production.language_eq (xs = []) [] ?_).trans ?_) ((Production.language_eq True
      [Set.univ, {.list (xs.map .attribute)}, Set.univ] ?_).trans ?_))
  -- nothing
  · simp
  · simp
  -- brackets, with or without attributes between them
  · simp
  · simp [language_attr_list]

lemma language_dim (d : Dimension) : L (r "dim") {.dimension d} = d.rendering := by
  rcases d with n | name
  · refine (language_rule_eq [] alternatives_dim True [Set.univ, {.token (.int n)}, Set.univ]
      (by simp) (by simp)).trans ?_
    simp [Dimension.rendering]
  · refine (language_rule_eq [_] alternatives_dim True [Set.univ, {.token (.text name)}, Set.univ]
      (by simp) (by simp)).trans ?_
    simp [Dimension.rendering]

lemma language_dims (xs : List Dimension) : L (r "dims") {.list (xs.map .dimension)} =
    (xs.map Dimension.rendering).prod := by
  rw [language_list_of isList_dims]
  simp [between, language_dim]

lemma language_type (ty : TypeRef) : L (r "type") {.type ty} = ty.rendering := by
  obtain ⟨name, dims⟩ := ty
  refine (language_rule_eq [] alternatives_type True
    [{.token (.text name)}, {.list (dims.map .dimension)}] (by simp) (by simp)).trans ?_
  simp [TypeRef.rendering, language_dims]

lemma language_ret (ty : TypeRef) : L (r "ret") {.type ty} = returnsRendering ty := by
  refine (language_rule_of_pair alternatives_ret).trans (congrArg₂ (· + ·)
    ((Production.language_eq (ty = .void) [] ?_).trans ?_)
    ((Production.language_eq True [Set.univ, {.type ty}] ?_).trans ?_))
  -- nothing, which stands for void
  · simp [eq_comm]
  · simp
  -- an arrow and a type, which may be void as well
  · simp
  · simp [language_type]

end

/-! ### Values -/

section

attribute [local simp] textLiteral stringLiteral intLiteral boolLiteral presetMember variableValue
  arrayElement callValue blockValue value call block variableDef Reducers.first Reducers.second

variable (allocation : Option Allocation)

lemma language_index (v : Value) : L (r "index") {.value v} =
    keyword "[" * L (r "value") {.value v} * keyword "]" := by
  refine (language_rule_eq [] alternatives_index True [Set.univ, {.value v}, Set.univ]
    (by simp) (by simp)).trans ?_
  simp

lemma language_indices (xs : List Value) : L (r "indices") {.list (xs.map .value)} =
    (xs.map fun v => keyword "[" * L (r "value") {.value v} * keyword "]").prod := by
  rw [language_list_of isList_indices]
  simp [between, language_index]

lemma language_args (xs : List Value) : L (r "args") {.list (xs.map .value)} =
    commas (xs.map fun v => L (r "value") {.value v}) := by
  rw [language_list_of isList_args]
  simp [between, commas]

lemma language_call_eq (callee : String) (args : List Value) :
    L (r "call") {.call ⟨callee, args, allocation⟩} = given (allocation = none) *
      (label callee * keyword "(" * commas (args.map fun v => L (r "value") {.value v}) *
        keyword ")") := by
  refine (language_rule_eq [] alternatives_call (allocation = none)
    [{.token (.text callee)}, Set.univ, {.list (args.map .value)}, Set.univ]
    (by simp) (by simp [@eq_comm _ none])).trans ?_
  simp [language_args]

lemma language_statement (c : Call) : L (r "statement") {.call c} =
    L (r "call") {.call c} * keyword ";" := by
  refine (language_rule_eq [] alternatives_statement True [{.call c}, Set.univ]
    (by simp) (by simp)).trans ?_
  simp

lemma language_statements (xs : List Call) : L (r "statements") {.list (xs.map .call)} =
    (xs.map fun c => L (r "call") {.call c} * keyword ";").prod := by
  rw [language_list_of isList_statements]
  simp [between, language_statement]

lemma language_block_locals (xs : List VariableDef) :
    L (r "block_locals") {.list (xs.map .variable)} =
      (xs.map fun d => L (r "variable") {.variable d}).prod := by
  rw [language_list_of isList_block_locals]
  simp [between]

lemma language_block_eq (locals : List VariableDef) (statements : List Call) :
    L (r "block") {.block ⟨locals, statements⟩} =
      keyword "\x7b" * (locals.map fun d => L (r "variable") {.variable d}).prod *
        (statements.map fun c => L (r "call") {.call c} * keyword ";").prod * keyword "\x7d" := by
  refine (language_rule_eq [] alternatives_block True
    [Set.univ, {.list (locals.map .variable)}, {.list (statements.map .call)}, Set.univ]
    (by simp) (by simp)).trans ?_
  simp [language_block_locals, language_statements]

lemma language_variable_eq (attributes : List Attribute) (ty : TypeRef) (name : String) (v : Value) :
    L (r "variable") {.variable ⟨attributes, ty, name, v, allocation⟩} = given (allocation = none) *
      (attributesRendering attributes * ty.rendering * label name * keyword "=" *
        L (r "value") {.value v} * keyword ";") := by
  refine (language_rule_eq [] alternatives_variable (allocation = none)
    [{.list (attributes.map .attribute)}, {.type ty}, {.token (.text name)}, Set.univ, {.value v},
      Set.univ] (by simp) (by simp [@eq_comm _ none])).trans ?_
  simp [language_attrs, language_type]

lemma language_literal (l : Literal) : L (r "value") {.value ⟨.literal l, allocation⟩} =
    given (allocation = none) * (ValueKind.literal l).rendering := by
  cases l with
  | text s =>
    refine (language_rule_eq [] alternatives_value (allocation = none) [{.token (.text s)}]
      (by simp) (by simp [@eq_comm _ none])).trans ?_
    simp [ValueKind.rendering]
  | string s =>
    refine (language_rule_eq [_] alternatives_value (allocation = none) [{.token (.text s)}]
      (by simp) (by simp [@eq_comm _ none])).trans ?_
    simp [ValueKind.rendering]
  | int n =>
    refine (language_rule_eq [_, _] alternatives_value (allocation = none) [{.token (.int n)}]
      (by simp) (by simp [@eq_comm _ none])).trans ?_
    simp [ValueKind.rendering]
  | bool b =>
    refine (language_rule_eq [_, _, _] alternatives_value (allocation = none) [{.token (.bool b)}]
      (by simp) (by cases b <;> simp [@eq_comm _ none])).trans ?_
    simp [ValueKind.rendering]

lemma language_presetMember (preset member : String) :
    L (r "value") {.value ⟨.presetMember preset member, allocation⟩} =
      given (allocation = none) * (label preset * keyword "." * label member) := by
  refine (language_rule_eq [_, _, _, _] alternatives_value (allocation = none)
    [{.token (.text preset)}, Set.univ, {.token (.text member)}]
    (by simp) (by simp [@eq_comm _ none])).trans ?_
  simp

lemma language_variableValue (name : String) : L (r "value") {.value ⟨.variable name, allocation⟩} =
    given (allocation = none) * label name := by
  refine (language_rule_eq [_, _, _, _, _] alternatives_value (allocation = none)
    [{.token (.text name)}] (by simp) (by simp [@eq_comm _ none])).trans ?_
  simp

lemma language_arrayElement (name : String) (indices : List Value) :
    L (r "value") {.value ⟨.arrayElement name indices, allocation⟩} = given (allocation = none) *
      (given (indices ≠ []) * label name *
        (indices.map fun v => keyword "[" * L (r "value") {.value v} * keyword "]").prod) := by
  cases indices with
  | nil =>
    -- The reducer puts the first index in front of the others.
    refine (language_rule_of_never ?_).trans ?_
    · simp [alternatives_value]
    · simp [given_of_not]
  | cons first others =>
    refine (language_rule_eq [_, _, _, _, _, _] alternatives_value (allocation = none)
      [{.token (.text name)}, {.value first}, {.list (others.map .value)}]
      (by simp) (by simp [@eq_comm _ none])).trans ?_
    simp [language_index, language_indices]

lemma language_callValue (c : Call) : L (r "value") {.value ⟨.call c, allocation⟩} =
    given (allocation = none) * L (r "call") {.call c} := by
  refine (language_rule_eq [_, _, _, _, _, _, _] alternatives_value (allocation = none) [{.call c}]
    (by simp) (by simp [@eq_comm _ none])).trans ?_
  simp

lemma language_blockValue (b : Block) : L (r "value") {.value ⟨.block b, allocation⟩} =
    given (allocation = none) * L (r "block") {.block b} := by
  refine (language_rule_eq [_, _, _, _, _, _, _, _] alternatives_value (allocation = none)
    [{.block b}] (by simp) (by simp [@eq_comm _ none])).trans ?_
  simp

end

mutual

/-- Induction over the tree: what a rule accepts is known from what it accepts for the parts. -/
lemma language_value : ∀ v : Value, L (r "value") {.value v} = v.rendering
  | ⟨.literal l, allocation⟩ => by
    rw [language_literal, Value.rendering]
  | ⟨.presetMember preset member, allocation⟩ => by
    rw [language_presetMember, Value.rendering, ValueKind.rendering]
  | ⟨.variable name, allocation⟩ => by
    rw [language_variableValue, Value.rendering, ValueKind.rendering]
  | ⟨.arrayElement name indices, allocation⟩ => by
    rw [language_arrayElement, Value.rendering, ValueKind.rendering, ← language_values indices,
      List.map_map, Function.comp_def]
  | ⟨.call c, allocation⟩ => by
    rw [language_callValue, language_call c, Value.rendering, ValueKind.rendering]
  | ⟨.block b, allocation⟩ => by
    rw [language_blockValue, language_block b, Value.rendering, ValueKind.rendering]

lemma language_call : ∀ c : Call, L (r "call") {.call c} = c.rendering
  | ⟨callee, args, allocation⟩ => by
    rw [language_call_eq, language_values args, Call.rendering]

lemma language_block : ∀ b : Block, L (r "block") {.block b} = b.rendering
  | ⟨locals, statements⟩ => by
    rw [language_block_eq, Block.rendering, language_variables locals, ← language_calls statements,
      List.map_map, Function.comp_def]

lemma language_variable : ∀ d : VariableDef, L (r "variable") {.variable d} = d.rendering
  | ⟨attributes, ty, name, v, allocation⟩ => by
    rw [language_variable_eq, language_value v, VariableDef.rendering]

lemma language_values : ∀ vs : List Value,
    (vs.map fun v => L (r "value") {.value v}) = valueRenderings vs
  | [] => rfl
  | v :: rest => by
    rw [List.map_cons, language_value v, language_values rest, valueRenderings]

lemma language_calls : ∀ cs : List Call,
    (cs.map fun c => L (r "call") {.call c}) = callRenderings cs
  | [] => rfl
  | c :: rest => by
    rw [List.map_cons, language_call c, language_calls rest, callRenderings]

lemma language_variables : ∀ ds : List VariableDef,
    (ds.map fun d => L (r "variable") {.variable d}) = variableRenderings ds
  | [] => rfl
  | d :: rest => by
    rw [List.map_cons, language_variable d, language_variables rest, variableRenderings]

end

/-! ### What a library defines -/

section

attribute [local simp] preset function action trigger globalVariable param paramWithDefault

lemma language_locals (xs : List VariableDef) : L (r "locals") {.list (xs.map .variable)} =
    (variableRenderings xs).prod := by
  rw [language_list_of isList_locals, language_variables]
  simp [between]

lemma language_param (d : ParamDef) : L (r "param") {.param d} = d.rendering := by
  obtain ⟨attributes, name, ty, _ | v, allocation⟩ := d
  · refine (language_rule_eq [] alternatives_param (allocation = none)
      [{.list (attributes.map .attribute)}, {.token (.text name)}, Set.univ, {.type ty}]
      (by simp) (by simp [@eq_comm _ none])).trans ?_
    simp [ParamDef.rendering, language_attrs, language_type]
  · refine (language_rule_eq [_] alternatives_param (allocation = none)
      [{.list (attributes.map .attribute)}, {.token (.text name)}, Set.univ, {.type ty}, Set.univ,
        {.value v}] (by simp) (by simp [@eq_comm _ none])).trans ?_
    simp [ParamDef.rendering, language_attrs, language_type, language_value]

lemma language_params (xs : List ParamDef) : L (r "params") {.list (xs.map .param)} =
    commas (xs.map ParamDef.rendering) := by
  rw [language_list_of isList_params]
  simp [between, commas, language_param]

lemma language_member_names (xs : List PresetMember) :
    L (r "member_names") {.list (xs.map fun m => .token (.text m.name))} =
      commas (xs.map fun m => label m.name) := by
  rw [language_list_of isList_member_names]
  simp [between, commas]

/-- A preset is made of the names of its members. -/
lemma map_members_eq_iff {names : List String} {members : List PresetMember} :
    names.map (fun m => (⟨m, none⟩ : PresetMember)) = members ↔
      names = members.map PresetMember.name ∧ ∀ m ∈ members, m.allocation = none := by
  constructor
  · rintro rfl
    simp [Function.comp_def]
  · rintro ⟨rfl, hmembers⟩
    rw [List.map_map]
    refine (List.map_congr_left fun m hm => ?_).trans (List.map_id members)
    obtain ⟨name, allocation⟩ := m
    rw [id, show allocation = none from hmembers _ hm]
    rfl

lemma language_preset (d : PresetDef) :
    L (r "lib_item") {.definition (.preset d)} = (Definition.preset d).rendering := by
  obtain ⟨attributes, name, description, members, allocation⟩ := d
  refine (language_rule_eq [] alternatives_lib_item
    ((∀ m ∈ members, m.allocation = none) ∧ allocation = none)
    [{.list (attributes.map .attribute)}, Set.univ, {.token (.text name)},
      {.token (.text description)}, Set.univ, {.list (members.map fun m => .token (.text m.name))},
      Set.univ]
    (by simp) (by simp [@eq_comm _ none, map_members_eq_iff, Function.comp_def])).trans ?_
  simp [Definition.rendering, language_attrs, language_member_names]

/-- A body is made of any two lists that make up its locals. -/
lemma body_ok_iff {outer inner : ProgramPhrase} {b : Block} : body outer inner = .ok b ↔
    ∃ s : b.Split, outer = .list (s.1.1.map .variable) ∧ inner = .block ⟨s.1.2, b.statements⟩ := by
  simp only [body, bind_pure_comp, except_bind_ok_iff, except_map_ok_iff, variableDefs_ok_iff,
    toBlock_ok_iff]
  obtain ⟨locals, statements⟩ := b
  constructor
  · rintro ⟨front, rfl, ⟨back, _⟩, rfl, hb⟩
    obtain ⟨hsplit, rfl⟩ := Block.mk.inj hb
    exact ⟨⟨(front, back), hsplit⟩, rfl, rfl⟩
  · rintro ⟨⟨⟨front, back⟩, hsplit⟩, rfl, rfl⟩
    exact ⟨front, rfl, _, rfl, congrArg (Block.mk · statements) hsplit⟩

lemma language_function (d : FunctionDef) :
    L (r "lib_item") {.definition (.function d)} = (Definition.function d).rendering := by
  obtain ⟨_ | _ | _, attributes, name, description, params, returns, b, allocation⟩ := d
  · refine (language_rule_of_only [_] alternatives_lib_item ?_).trans
      ((Production.language_eq_iSup (allocation = none) (fun s : b.Split =>
        [{.list (attributes.map .attribute)}, Set.univ, {.token (.text name)},
          {.token (.text description)}, Set.univ, {.list (params.map .param)}, Set.univ,
          {.type returns}, {.list (s.1.1.map .variable)}, {.block ⟨s.1.2, b.statements⟩}])
            ?_).trans ?_)
    · simp
    · simp [@eq_comm _ none, body_ok_iff]
    · simp [Definition.rendering, language_attrs, language_params, language_ret, language_locals,
        language_block, bodyRendering, Language.mul_iSup]
  · refine (language_rule_of_only [_, _] alternatives_lib_item ?_).trans
      ((Production.language_eq_iSup (returns = .void ∧ allocation = none) (fun s : b.Split =>
        [{.list (attributes.map .attribute)}, Set.univ, {.token (.text name)},
          {.token (.text description)}, Set.univ, {.list (params.map .param)}, Set.univ,
          {.list (s.1.1.map .variable)}, {.block ⟨s.1.2, b.statements⟩}]) ?_).trans ?_)
    · simp
    · simp [@eq_comm _ none, @eq_comm _ TypeRef.void, body_ok_iff]
    · simp [Definition.rendering, language_attrs, language_params, language_locals,
        language_block, bodyRendering, Language.mul_iSup]
  -- A library defines no events.
  · refine (language_rule_of_never ?_).trans ?_
    · simp [alternatives_lib_item]
    · simp [Definition.rendering]

lemma language_trigger (d : TriggerDef) :
    L (r "lib_item") {.definition (.trigger d)} = (Definition.trigger d).rendering := by
  obtain ⟨attributes, name, description, event, b, allocation⟩ := d
  refine (language_rule_of_only [_, _, _] alternatives_lib_item ?_).trans
    ((Production.language_eq_iSup (allocation = none) (fun s : b.Split =>
      [{.list (attributes.map .attribute)}, Set.univ, {.token (.text name)},
        {.token (.text description)}, {.call event}, {.list (s.1.1.map .variable)},
        {.block ⟨s.1.2, b.statements⟩}]) ?_).trans ?_)
  · simp
  · simp [@eq_comm _ none, body_ok_iff]
  · simp [Definition.rendering, language_attrs, language_call, language_locals,
      language_block, bodyRendering, Language.mul_iSup]

lemma language_globalVariable (d : VariableDef) :
    L (r "lib_item") {.definition (.variable d)} = d.rendering := by
  refine (language_rule_eq [_, _, _, _] alternatives_lib_item True [{.variable d}]
    (by simp) (by simp)).trans ?_
  simp [language_variable]

lemma language_lib_item : ∀ d : Definition, L (r "lib_item") {.definition d} = d.rendering
  | .preset d => language_preset d
  | .function d => language_function d
  | .trigger d => language_trigger d
  | .variable d => language_globalVariable d

lemma language_lib_items (xs : List Definition) : L (r "lib_items") {.list (xs.map .definition)} =
    (xs.map Definition.rendering).prod := by
  rw [language_list_of isList_lib_items]
  simp [between, language_lib_item]

end

/-! ### What is imported -/

section

attribute [local simp] externalPreset externalFunction externalVariable externalMember externalParam
  externalParamWithDefault constant

lemma language_ext_member (m : ExternalMember) :
    L (r "ext_member") {.externalMember m} = m.rendering := by
  obtain ⟨name, id, allocation⟩ := m
  refine (language_rule_eq [] alternatives_ext_member (allocation = none)
    [{.token (.text name)}, Set.univ, idPhrases id] (by simp) (by simp [@eq_comm _ none])).trans ?_
  simp [ExternalMember.rendering]

lemma language_ext_members (xs : List ExternalMember) :
    L (r "ext_members") {.list (xs.map .externalMember)} =
      commas (xs.map ExternalMember.rendering) := by
  rw [language_list_of isList_ext_members]
  simp [between, commas, language_ext_member]

lemma language_ext_param (d : ExternalParam) :
    L (r "ext_param") {.externalParam d} = d.rendering := by
  obtain ⟨attributes, name, ty, id, _ | v, allocation⟩ := d
  · refine (language_rule_eq [] alternatives_ext_param (allocation = none)
      [{.list (attributes.map .attribute)}, {.token (.text name)}, Set.univ, {.type ty}, Set.univ,
        idPhrases id] (by simp) (by simp [@eq_comm _ none])).trans ?_
    simp [ExternalParam.rendering, language_attrs, language_type]
  · refine (language_rule_eq [_] alternatives_ext_param (allocation = none)
      [{.list (attributes.map .attribute)}, {.token (.text name)}, Set.univ, {.type ty}, Set.univ,
        idPhrases id, Set.univ, {.value v}, Set.univ]
      (by simp) (by simp [@eq_comm _ none])).trans ?_
    simp [ExternalParam.rendering, language_attrs, language_type, language_value]

lemma language_ext_params (xs : List ExternalParam) :
    L (r "ext_params") {.list (xs.map .externalParam)} =
      commas (xs.map ExternalParam.rendering) := by
  rw [language_list_of isList_ext_params]
  simp [between, commas, language_ext_param]

lemma language_callable_kind (k : CallableKind) :
    L (r "callable_kind") {.kind k} = k.rendering := by
  cases k with
  | function =>
    refine (language_rule_eq [] alternatives_callable_kind True [Set.univ]
      (by simp) (by simp)).trans ?_
    simp [CallableKind.rendering]
  | action =>
    refine (language_rule_eq [_] alternatives_callable_kind True [Set.univ]
      (by simp) (by simp)).trans ?_
    simp [CallableKind.rendering]
  | event =>
    refine (language_rule_eq [_, _] alternatives_callable_kind True [Set.univ]
      (by simp) (by simp)).trans ?_
    simp [CallableKind.rendering]

lemma language_ext_item (d : ExternalDefinition) :
    L (r "ext_item") {.external d} = d.rendering := by
  rcases d with ⟨attributes, name, members, allocation⟩ |
    ⟨kind, attributes, name, id, params, returns, allocation⟩ |
    ⟨attributes, ty, name, id, allocation⟩
  · refine (language_rule_eq [] alternatives_ext_item (allocation = none)
      [{.list (attributes.map .attribute)}, Set.univ, {.token (.text name)}, Set.univ,
        {.list (members.map .externalMember)}, Set.univ]
      (by simp) (by simp [@eq_comm _ none])).trans ?_
    simp [ExternalDefinition.rendering, language_attrs, language_ext_members]
  · refine (language_rule_eq [_] alternatives_ext_item (allocation = none)
      [{.list (attributes.map .attribute)}, {.kind kind}, {.token (.text name)}, Set.univ,
        idPhrases id, Set.univ, {.list (params.map .externalParam)}, Set.univ, {.type returns},
        Set.univ] (by simp) (by simp [@eq_comm _ none])).trans ?_
    simp [ExternalDefinition.rendering, language_attrs, language_callable_kind, language_ext_params,
      language_ret]
  · refine (language_rule_eq [_, _] alternatives_ext_item (allocation = none)
      [{.list (attributes.map .attribute)}, {.type ty}, {.token (.text name)}, Set.univ,
        idPhrases id, Set.univ] (by simp) (by simp [@eq_comm _ none])).trans ?_
    simp [ExternalDefinition.rendering, language_attrs, language_type]

lemma language_ext_items (xs : List ExternalDefinition) :
    L (r "ext_items") {.list (xs.map .external)} =
      (xs.map ExternalDefinition.rendering).prod := by
  rw [language_list_of isList_ext_items]
  simp [between, language_ext_item]

end

/-! ### Sections and programs -/

section

attribute [local simp] importScope libraryScope program Reducers.first

lemma language_import (s : ImportScope) :
    L (r "import") {.scope (.import_ s)} = (Scope.import_ s).rendering := by
  obtain ⟨library, definitions⟩ := s
  refine (language_rule_eq [] alternatives_import True
    [Set.univ, {.token (.text library)}, Set.univ, {.list (definitions.map .external)}, Set.univ]
    (by simp) (by simp)).trans ?_
  simp [Scope.rendering, language_ext_items]

lemma language_library (s : LibraryScope) :
    L (r "library") {.scope (.library s)} = (Scope.library s).rendering := by
  obtain ⟨library, definitions⟩ := s
  refine (language_rule_eq [] alternatives_library True
    [Set.univ, {.token (.text library)}, Set.univ, {.list (definitions.map .definition)}, Set.univ]
    (by simp) (by simp)).trans ?_
  simp [Scope.rendering, language_lib_items]

lemma language_section (s : Scope) : L (r "section") {.scope s} = s.rendering := by
  refine (language_rule_of_pair alternatives_section).trans ?_
  rw [language_first, language_first]
  change L (r "import") {.scope s} + L (r "library") {.scope s} = s.rendering
  cases s with
  | import_ s =>
    have hother : L (r "library") {.scope (.import_ s)} = 0 :=
      language_rule_of_never (by simp [alternatives_library])
    rw [hother, language_import, add_zero]
  | library s =>
    have hother : L (r "import") {.scope (.library s)} = 0 :=
      language_rule_of_never (by simp [alternatives_import])
    rw [hother, language_library, zero_add]

lemma language_sections (xs : List Scope) : L (r "sections") {.list (xs.map .scope)} =
    (xs.map Scope.rendering).prod := by
  rw [language_list_of isList_sections]
  simp [between, language_section]

lemma language_program (p : Program) : L (r "program") {.program p} = p.rendering := by
  obtain ⟨scopes⟩ := p
  refine (language_rule_eq [] alternatives_program True [{.list (scopes.map .scope)}]
    (by simp) (by simp)).trans ?_
  simp [Program.rendering, language_sections]

end

end ProgramGrammar

/-- The parser of programs accepts exactly the renderings. When the values of the tokens fit their names,
the results include a program if and only if the tokens are one of its renderings. -/
theorem Program.parseAll_iff_rendering {tokens : List Token} {length : Nat} {p : Program}
    (htokens : ∀ t ∈ tokens, t.fits) :
    (∃ values, programGrammar.parseAll tokens length = .ok values ∧ .program p ∈ values) ↔
      tokens ∈ p.rendering := by
  rw [ProgramGrammar.exists_mem_parseAll_iff_mem_language htokens]
  exact (congrArg (tokens ∈ ·) (ProgramGrammar.language_program p)).to_iff

namespace Sample

/-- A keyword. -/
def keywordToken (name : String) : Token :=
  ⟨name, name, .text name, 0⟩

/-- A label. -/
def labelToken (s : String) : Token :=
  ⟨"label", s, .text s, 0⟩

/-- A string. -/
def strToken (s : String) : Token :=
  ⟨"str", s, .text s, 0⟩

/-- An integer. -/
def intToken (n : Int) : Token :=
  ⟨"int", Text.intText n, .int n, 0⟩

/-- `int n = 1; { [] int m = 2; Do(xs[n]); }` -/
def bodyTokens : List Token :=
  [labelToken "int", labelToken "n", keywordToken "=", intToken 1, keywordToken ";",
    keywordToken "\x7b", keywordToken "[", keywordToken "]", labelToken "int", labelToken "m",
    keywordToken "=", intToken 2, keywordToken ";", labelToken "Do", keywordToken "(",
    labelToken "xs", keywordToken "[", labelToken "n", keywordToken "]", keywordToken ")",
    keywordToken ";", keywordToken "\x7d"]

/-- `library "L" { action Go "go" () int n = 1; { [] int m = 2; Do(xs[n]); } }` -/
def actionTokens : List Token :=
  [keywordToken "library", strToken "L", keywordToken "\x7b", keywordToken "action",
    labelToken "Go", strToken "go", keywordToken "(", keywordToken ")"] ++
      (bodyTokens ++ [keywordToken "\x7d"])

/-- `int name = n;` -/
def intVariable (name : String) (n : Int) : VariableDef :=
  ⟨[], ⟨"int", []⟩, name, ⟨.literal (.int n), none⟩, none⟩

/-- A block with two locals and a call. -/
def actionBody : Block :=
  ⟨[intVariable "n" 1, intVariable "m" 2],
    [⟨"Do", [⟨.arrayElement "xs" [⟨.variable "n", none⟩], none⟩], none⟩]⟩

/-- A library with an action. -/
def actionProgram : Program :=
  ⟨[.library ⟨"L", [.function ⟨.action, [], "Go", "go", [], .void, actionBody, none⟩]⟩]⟩

/-- One of the locals stands in front of the braces and the other one inside. -/
lemma bodyTokens_mem_rendering : bodyTokens ∈ bodyRendering actionBody := by
  refine Language.mem_iSup.2 ⟨⟨([intVariable "n" 1], [intVariable "m" 2]), rfl⟩, ?_⟩
  simp [bodyTokens, actionBody, intVariable, labelToken, keywordToken, intToken, Block.rendering,
    variableRenderings, callRenderings, valueRenderings, VariableDef.rendering, Call.rendering,
    Value.rendering, ValueKind.rendering, TypeRef.rendering, attributesRendering, commas, separated,
    given_of, mul_assoc, add_mul, Language.mem_add, label]

end Sample

/-- A body with one local in front of its braces and one inside them is among the parses of its
tokens. -/
theorem Program.parseAll_iff_rendering_sample :
    (∀ t ∈ Sample.actionTokens, t.fits) ∧
      ∃ values, programGrammar.parseAll Sample.actionTokens 0 = .ok values ∧
        .program Sample.actionProgram ∈ values := by
  have hfits : ∀ t ∈ Sample.actionTokens, t.fits := by decide
  have hbody : Sample.bodyTokens ++ [Sample.keywordToken "\x7d"] ∈
      bodyRendering Sample.actionBody * keyword "\x7d" :=
    Language.append_mem_mul Sample.bodyTokens_mem_rendering (by simp [Sample.keywordToken])
  refine ⟨hfits, (Program.parseAll_iff_rendering hfits).2 ?_⟩
  simpa [Sample.actionProgram, Sample.actionTokens, Sample.keywordToken, Sample.strToken,
    Sample.labelToken, Program.rendering, Scope.rendering, Definition.rendering,
    attributesRendering, commas, separated, given_of, mul_assoc, add_mul, Language.mem_add, str,
    label] using hbody

end TriggerScript
