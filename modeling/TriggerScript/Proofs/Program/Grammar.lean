import TriggerScript.Program.Grammar
import TriggerScript.Proofs.Grammar.LeftRecursion
import TriggerScript.Proofs.Grammar.Reducing

/-!
# The grammar of programs, rule by rule

What the grammar says is stated here once, for the proofs about its rules:

* taking a node out of a phrase succeeds exactly for the phrase of that node (`toText_ok_iff` and those
  after it),
* the alternatives of each rule (`alternatives_program` and those after it),
* which rules are lists, and of what (`IsList`).
-/

namespace TriggerScript

open Grammar

namespace ProgramPhrase

variable {p : ProgramPhrase}

/-! ## What is taken out of a phrase -/

@[simp]
lemma toText_ok_iff {s : String} : p.toText = .ok s ↔ p = .token (.text s) := by
  cases p with
  | token v => cases v <;> simp [toText, unexpected]
  | _ => simp [toText, unexpected]

@[simp]
lemma toInt_ok_iff {n : Int} : p.toInt = .ok n ↔ p = .token (.int n) := by
  cases p with
  | token v => cases v <;> simp [toInt, unexpected]
  | _ => simp [toInt, unexpected]

@[simp]
lemma toBool_ok_iff {b : Bool} : p.toBool = .ok b ↔ p = .token (.bool b) := by
  cases p with
  | token v => cases v <;> simp [toBool, unexpected]
  | _ => simp [toBool, unexpected]

@[simp]
lemma toId_ok_iff {id : ElementId} :
    p.toId = .ok id ↔ ∃ s, p = .token (.text s) ∧ ElementId.ofText? s = some id := by
  rw [toId, except_bind_ok_iff]
  refine exists_congr fun s => and_congr toText_ok_iff ?_
  cases ElementId.ofText? s <;> simp

@[simp]
lemma items_ok_iff {items : List ProgramPhrase} : p.items = .ok items ↔ p = .list items := by
  cases p <;> simp [ProgramPhrase.items, unexpected]

@[simp]
lemma toProgram_ok_iff {q : Program} : p.toProgram = .ok q ↔ p = .program q := by
  cases p <;> simp [toProgram, unexpected]

@[simp]
lemma toScope_ok_iff {s : Scope} : p.toScope = .ok s ↔ p = .scope s := by
  cases p <;> simp [toScope, unexpected]

@[simp]
lemma toDefinition_ok_iff {d : Definition} : p.toDefinition = .ok d ↔ p = .definition d := by
  cases p <;> simp [toDefinition, unexpected]

@[simp]
lemma toExternal_ok_iff {d : ExternalDefinition} : p.toExternal = .ok d ↔ p = .external d := by
  cases p <;> simp [toExternal, unexpected]

@[simp]
lemma toKind_ok_iff {k : CallableKind} : p.toKind = .ok k ↔ p = .kind k := by
  cases p <;> simp [toKind, unexpected]

@[simp]
lemma toValue_ok_iff {v : Value} : p.toValue = .ok v ↔ p = .value v := by
  cases p <;> simp [toValue, unexpected]

@[simp]
lemma toCall_ok_iff {c : Call} : p.toCall = .ok c ↔ p = .call c := by
  cases p <;> simp [toCall, unexpected]

@[simp]
lemma toBlock_ok_iff {b : Block} : p.toBlock = .ok b ↔ p = .block b := by
  cases p <;> simp [toBlock, unexpected]

@[simp]
lemma toVariable_ok_iff {d : VariableDef} : p.toVariable = .ok d ↔ p = .variable d := by
  cases p <;> simp [toVariable, unexpected]

@[simp]
lemma toParam_ok_iff {d : ParamDef} : p.toParam = .ok d ↔ p = .param d := by
  cases p <;> simp [toParam, unexpected]

@[simp]
lemma toExternalParam_ok_iff {d : ExternalParam} :
    p.toExternalParam = .ok d ↔ p = .externalParam d := by
  cases p <;> simp [toExternalParam, unexpected]

@[simp]
lemma toExternalMember_ok_iff {d : ExternalMember} :
    p.toExternalMember = .ok d ↔ p = .externalMember d := by
  cases p <;> simp [toExternalMember, unexpected]

@[simp]
lemma toAttribute_ok_iff {a : Attribute} : p.toAttribute = .ok a ↔ p = .attribute a := by
  cases p <;> simp [toAttribute, unexpected]

@[simp]
lemma toType_ok_iff {t : TypeRef} : p.toType = .ok t ↔ p = .type t := by
  cases p <;> simp [toType, unexpected]

@[simp]
lemma toDimension_ok_iff {d : Dimension} : p.toDimension = .ok d ↔ p = .dimension d := by
  cases p <;> simp [toDimension, unexpected]

/-- The items of a list are taken out of their phrases one by one. -/
lemma listOf_ok_iff {α : Type} {item : ProgramPhrase → Except String α} {f : α → ProgramPhrase}
    (h : ∀ {p x}, item p = .ok x ↔ p = f x) {xs : List α} :
    p.listOf item = .ok xs ↔ p = .list (xs.map f) := by
  simp only [listOf, except_bind_ok_iff, items_ok_iff, except_mapM_ok_iff_eq_map h,
    exists_eq_right]

/-- A list of nodes of one kind. -/
@[simp]
lemma listOf_map {α : Type} {item : ProgramPhrase → Except String α} {f : α → ProgramPhrase}
    (h : ∀ x, item (f x) = .ok x) (xs : List α) :
    (ProgramPhrase.list (xs.map f)).listOf item = .ok xs := by
  refine except_bind_ok_iff.2 ⟨_, rfl, except_mapM_ok_iff.2 ?_⟩
  rw [List.forall₂_map_left_iff, List.forall₂_same]
  exact fun x _ => h x

@[simp]
lemma listOf_toText_ok_iff {xs : List String} :
    p.listOf toText = .ok xs ↔ p = .list (xs.map fun s => .token (.text s)) :=
  listOf_ok_iff toText_ok_iff

@[simp]
lemma listOf_toScope_ok_iff {xs : List Scope} :
    p.listOf toScope = .ok xs ↔ p = .list (xs.map .scope) :=
  listOf_ok_iff toScope_ok_iff

@[simp]
lemma listOf_toDefinition_ok_iff {xs : List Definition} :
    p.listOf toDefinition = .ok xs ↔ p = .list (xs.map .definition) :=
  listOf_ok_iff toDefinition_ok_iff

@[simp]
lemma listOf_toExternal_ok_iff {xs : List ExternalDefinition} :
    p.listOf toExternal = .ok xs ↔ p = .list (xs.map .external) :=
  listOf_ok_iff toExternal_ok_iff

@[simp]
lemma listOf_toExternalMember_ok_iff {xs : List ExternalMember} :
    p.listOf toExternalMember = .ok xs ↔ p = .list (xs.map .externalMember) :=
  listOf_ok_iff toExternalMember_ok_iff

@[simp]
lemma listOf_toExternalParam_ok_iff {xs : List ExternalParam} :
    p.listOf toExternalParam = .ok xs ↔ p = .list (xs.map .externalParam) :=
  listOf_ok_iff toExternalParam_ok_iff

@[simp]
lemma listOf_toParam_ok_iff {xs : List ParamDef} :
    p.listOf toParam = .ok xs ↔ p = .list (xs.map .param) :=
  listOf_ok_iff toParam_ok_iff

@[simp]
lemma listOf_toDimension_ok_iff {xs : List Dimension} :
    p.listOf toDimension = .ok xs ↔ p = .list (xs.map .dimension) :=
  listOf_ok_iff toDimension_ok_iff

@[simp]
lemma listOf_toCall_ok_iff {xs : List Call} :
    p.listOf toCall = .ok xs ↔ p = .list (xs.map .call) :=
  listOf_ok_iff toCall_ok_iff

@[simp]
lemma listOf_toValue_ok_iff {xs : List Value} :
    p.listOf toValue = .ok xs ↔ p = .list (xs.map .value) :=
  listOf_ok_iff toValue_ok_iff

@[simp]
lemma attributes_ok_iff {xs : List Attribute} :
    p.attributes = .ok xs ↔ p = .list (xs.map .attribute) :=
  listOf_ok_iff toAttribute_ok_iff

@[simp]
lemma attributes_map (xs : List Attribute) :
    (ProgramPhrase.list (xs.map .attribute)).attributes = .ok xs :=
  attributes_ok_iff.2 rfl

@[simp]
lemma variableDefs_ok_iff {xs : List VariableDef} :
    p.variableDefs = .ok xs ↔ p = .list (xs.map .variable) :=
  listOf_ok_iff toVariable_ok_iff

@[simp]
lemma variableDefs_map (xs : List VariableDef) :
    (ProgramPhrase.list (xs.map .variable)).variableDefs = .ok xs :=
  variableDefs_ok_iff.2 rfl

instance : LawfulPhrase ProgramPhrase :=
  ⟨items_ok_iff⟩

end ProgramPhrase

namespace ProgramGrammar

/-! ## The alternatives of the rules -/

lemma alternatives_program :
    programGrammar.alternatives "program" = [⟨"program", [r "sections"], program⟩] :=
  (Clause.alternatives_eq_allHeads (by decide)).trans rfl

lemma alternatives_section : programGrammar.alternatives "section" =
    [⟨"section", [r "import"], Reducers.first⟩, ⟨"section", [r "library"], Reducers.first⟩] :=
  (Clause.alternatives_eq_allHeads (by decide)).trans rfl

lemma alternatives_import : programGrammar.alternatives "import" =
    [⟨"import", [t "import", t "str", t "\x7b", r "ext_items", t "\x7d"], importScope⟩] :=
  (Clause.alternatives_eq_allHeads (by decide)).trans rfl

lemma alternatives_library : programGrammar.alternatives "library" =
    [⟨"library", [t "library", t "str", t "\x7b", r "lib_items", t "\x7d"], libraryScope⟩] :=
  (Clause.alternatives_eq_allHeads (by decide)).trans rfl

lemma alternatives_ext_item : programGrammar.alternatives "ext_item" =
    [⟨"ext_item", [r "attrs", t "preset", t "label", t "\x7b", r "ext_members", t "\x7d"],
      externalPreset⟩,
      ⟨"ext_item", [r "attrs", r "callable_kind", t "label", t "=", t "id", t "(", r "ext_params",
        t ")", r "ret", t ";"], externalFunction⟩,
      ⟨"ext_item", [r "attrs", r "type", t "label", t "=", t "id", t ";"], externalVariable⟩] :=
  (Clause.alternatives_eq_allHeads (by decide)).trans rfl

lemma alternatives_ext_member : programGrammar.alternatives "ext_member" =
    [⟨"ext_member", [t "label", t "=", t "id"], externalMember⟩] :=
  (Clause.alternatives_eq_allHeads (by decide)).trans rfl

lemma alternatives_callable_kind : programGrammar.alternatives "callable_kind" =
    [⟨"callable_kind", [t "function"], constant (.kind .function)⟩,
      ⟨"callable_kind", [t "action"], constant (.kind .action)⟩,
      ⟨"callable_kind", [t "event"], constant (.kind .event)⟩] :=
  (Clause.alternatives_eq_allHeads (by decide)).trans rfl

lemma alternatives_ext_param : programGrammar.alternatives "ext_param" =
    [⟨"ext_param", [r "attrs", t "label", t ":", r "type", t "=", t "id"], externalParam⟩,
      ⟨"ext_param", [r "attrs", t "label", t ":", r "type", t "=", t "id", t "(", r "value", t ")"],
        externalParamWithDefault⟩] :=
  (Clause.alternatives_eq_allHeads (by decide)).trans rfl

lemma alternatives_lib_item : programGrammar.alternatives "lib_item" =
    [⟨"lib_item", [r "attrs", t "preset", t "label", t "str", t "\x7b", r "member_names", t "\x7d"],
      preset⟩,
      ⟨"lib_item", [r "attrs", t "function", t "label", t "str", t "(", r "params", t ")", r "ret",
        r "locals", r "block"], function⟩,
      ⟨"lib_item", [r "attrs", t "action", t "label", t "str", t "(", r "params", t ")", r "locals",
        r "block"], action⟩,
      ⟨"lib_item", [r "attrs", t "trigger", t "label", t "str", r "call", r "locals", r "block"],
        trigger⟩,
      ⟨"lib_item", [r "variable"], globalVariable⟩] :=
  (Clause.alternatives_eq_allHeads (by decide)).trans rfl

lemma alternatives_param : programGrammar.alternatives "param" =
    [⟨"param", [r "attrs", t "label", t ":", r "type"], param⟩,
      ⟨"param", [r "attrs", t "label", t ":", r "type", t "=", r "value"], paramWithDefault⟩] :=
  (Clause.alternatives_eq_allHeads (by decide)).trans rfl

lemma alternatives_ret : programGrammar.alternatives "ret" =
    [⟨"ret", [], constant (.type .void)⟩, ⟨"ret", [t "->", r "type"], Reducers.second⟩] :=
  (Clause.alternatives_eq_allHeads (by decide)).trans rfl

lemma alternatives_variable : programGrammar.alternatives "variable" =
    [⟨"variable", [r "attrs", r "type", t "label", t "=", r "value", t ";"], variableDef⟩] :=
  (Clause.alternatives_eq_allHeads (by decide)).trans rfl

lemma alternatives_type :
    programGrammar.alternatives "type" = [⟨"type", [t "label", r "dims"], typeRef⟩] :=
  (Clause.alternatives_eq_allHeads (by decide)).trans rfl

lemma alternatives_dim : programGrammar.alternatives "dim" =
    [⟨"dim", [t "[", t "int", t "]"], sizeDimension⟩,
      ⟨"dim", [t "[", t "label", t "]"], variableDimension⟩] :=
  (Clause.alternatives_eq_allHeads (by decide)).trans rfl

lemma alternatives_attrs : programGrammar.alternatives "attrs" =
    [⟨"attrs", [], Reducers.emptyList⟩,
      ⟨"attrs", [t "[", r "attr_list", t "]"], Reducers.second⟩] :=
  (Clause.alternatives_eq_allHeads (by decide)).trans rfl

lemma alternatives_attribute : programGrammar.alternatives "attribute" =
    [⟨"attribute", [t "label"], flag⟩,
      ⟨"attribute", [t "label", t "=", t "str"], valuedAttribute⟩] :=
  (Clause.alternatives_eq_allHeads (by decide)).trans rfl

lemma alternatives_block : programGrammar.alternatives "block" =
    [⟨"block", [t "\x7b", r "block_locals", r "statements", t "\x7d"], block⟩] :=
  (Clause.alternatives_eq_allHeads (by decide)).trans rfl

lemma alternatives_statement :
    programGrammar.alternatives "statement" = [⟨"statement", [r "call", t ";"], Reducers.first⟩] :=
  (Clause.alternatives_eq_allHeads (by decide)).trans rfl

lemma alternatives_call :
    programGrammar.alternatives "call" = [⟨"call", [t "label", t "(", r "args", t ")"], call⟩] :=
  (Clause.alternatives_eq_allHeads (by decide)).trans rfl

lemma alternatives_value : programGrammar.alternatives "value" =
    [⟨"value", [t "text"], textLiteral⟩,
      ⟨"value", [t "str"], stringLiteral⟩,
      ⟨"value", [t "int"], intLiteral⟩,
      ⟨"value", [t "bool"], boolLiteral⟩,
      ⟨"value", [t "label", t ".", t "label"], presetMember⟩,
      ⟨"value", [t "label"], variableValue⟩,
      ⟨"value", [t "label", r "index", r "indices"], arrayElement⟩,
      ⟨"value", [r "call"], callValue⟩,
      ⟨"value", [r "block"], blockValue⟩] :=
  (Clause.alternatives_eq_allHeads (by decide)).trans rfl

lemma alternatives_index :
    programGrammar.alternatives "index" = [⟨"index", [t "[", r "value", t "]"], Reducers.second⟩] :=
  (Clause.alternatives_eq_allHeads (by decide)).trans rfl

/-! ## The lists -/

lemma not_isHidden : ∀ c ∈ clauses, ¬isHidden c.name := by
  decide +kernel

/-- The rule is a list of items with something between them. -/
def IsList (name : String) (item : Symbol) (separator : Option Symbol) : Prop :=
  ∃ tail rest, programGrammar.Lists name tail rest item separator

lemma isList_sections : IsList "sections" (r "section") none :=
  Clause.exists_lists not_isHidden rfl

lemma isList_ext_items : IsList "ext_items" (r "ext_item") none :=
  Clause.exists_lists not_isHidden rfl

lemma isList_lib_items : IsList "lib_items" (r "lib_item") none :=
  Clause.exists_lists not_isHidden rfl

lemma isList_ext_members : IsList "ext_members" (r "ext_member") (some (t ",")) :=
  Clause.exists_lists not_isHidden rfl

lemma isList_ext_params : IsList "ext_params" (r "ext_param") (some (t ",")) :=
  Clause.exists_lists not_isHidden rfl

lemma isList_member_names : IsList "member_names" (t "label") (some (t ",")) :=
  Clause.exists_lists not_isHidden rfl

lemma isList_locals : IsList "locals" (r "variable") none :=
  Clause.exists_lists not_isHidden rfl

lemma isList_params : IsList "params" (r "param") (some (t ",")) :=
  Clause.exists_lists not_isHidden rfl

lemma isList_dims : IsList "dims" (r "dim") none :=
  Clause.exists_lists not_isHidden rfl

lemma isList_attr_list : IsList "attr_list" (r "attribute") (some (t ",")) :=
  Clause.exists_lists not_isHidden rfl

lemma isList_block_locals : IsList "block_locals" (r "variable") none :=
  Clause.exists_lists not_isHidden rfl

lemma isList_statements : IsList "statements" (r "statement") none :=
  Clause.exists_lists not_isHidden rfl

lemma isList_args : IsList "args" (r "value") (some (t ",")) :=
  Clause.exists_lists not_isHidden rfl

lemma isList_indices : IsList "indices" (r "index") none :=
  Clause.exists_lists not_isHidden rfl

end ProgramGrammar

end TriggerScript
