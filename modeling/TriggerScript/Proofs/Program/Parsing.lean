import TriggerScript.Proofs.Program.Grammar

/-!
# Parsing programs

Tokens fit if their values are of the kinds that their names stand for. In a stream of such tokens no
reducer of the grammar of programs fails, and no rule leads back to itself. So `parseAll` finds the
programs in whose language the token list is (`exists_mem_parseAll_iff_mem_language`).
-/

namespace TriggerScript

open Grammar

/-- The value of the token is of the kind that its name stands for: an integer, a truth value, eight
hexadecimal digits, or some text. -/
def Token.fits (t : Token) : Bool :=
  match t.value with
  | .none => false
  | .int _ => t.name = "int"
  | .bool _ => t.name = "bool"
  | .text s => t.name ≠ "int" && t.name ≠ "bool" &&
      (t.name ≠ "id" || s.toList.length = 8 && s.toList.all Text.isHexDigit)

namespace ProgramGrammar

/-- What may stand in a stream: tokens that fit, and the marks at the ends. -/
def IsExpected (t : Token) : Prop :=
  t.name = Token.beginName ∨ t.name = Token.endName ∨ t.fits

/-- If the tokens fit, the symbol has values with the property only. -/
abbrev Has (x : Symbol) (P : ProgramPhrase → Prop) : Prop :=
  programGrammar.Ensures IsExpected x P

variable {P : ProgramPhrase → Prop} {name : String} {item : Symbol} {separator : Option Symbol}

/-! ## What values the symbols have -/

lemma has_any {x : Symbol} (h : ∀ v, P v) : Has x P :=
  fun _ v _ _ => h v

lemma has_int (h : ∀ n, P (.token (.int n))) : Has (t "int") P := by
  refine ensures_terminal fun token ht hname => ?_
  rw [IsExpected, hname, Token.fits] at ht
  simp only [Phrase.ofToken]
  cases hv : token.value with
  | int n => exact h n
  | _ => simp [hv, hname, Token.beginName, Token.endName] at ht

lemma has_bool (h : ∀ b, P (.token (.bool b))) : Has (t "bool") P := by
  refine ensures_terminal fun token ht hname => ?_
  rw [IsExpected, hname, Token.fits] at ht
  simp only [Phrase.ofToken]
  cases hv : token.value with
  | bool b => exact h b
  | _ => simp [hv, hname, Token.beginName, Token.endName] at ht

lemma has_id (h : ∀ s id, ElementId.ofText? s = some id → P (.token (.text s))) : Has (t "id") P := by
  refine ensures_terminal fun token ht hname => ?_
  rw [IsExpected, hname, Token.fits] at ht
  simp only [Phrase.ofToken]
  cases hv : token.value with
  | text s =>
    refine h s _ (if_pos ?_)
    simpa [hv, hname, Token.beginName, Token.endName] using ht
  | _ => simp [hv, hname, Token.beginName, Token.endName] at ht

lemma has_text (hname : name ∈ ["label", "str", "text"]) (h : ∀ s, P (.token (.text s))) :
    Has (t name) P := by
  refine ensures_terminal fun token ht heq => ?_
  subst heq
  simp only [Phrase.ofToken]
  cases hv : token.value with
  | text s => exact h s
  | _ =>
    simp only [List.mem_cons, List.not_mem_nil, or_false] at hname
    rcases hname with hname | hname | hname <;>
      simp [IsExpected, Token.fits, hv, hname, Token.beginName, Token.endName] at ht

lemma has_label (h : ∀ s, P (.token (.text s))) : Has (t "label") P :=
  has_text (by decide) h

lemma has_str (h : ∀ s, P (.token (.text s))) : Has (t "str") P :=
  has_text (by decide) h

lemma has_list {α : Type} {f : α → ProgramPhrase} (hlist : IsList name item separator)
    (hitem : Has item (· ∈ Set.range f)) (h : ∀ xs : List α, P (.list (xs.map f))) :
    Has (r name) P := by
  obtain ⟨tail, rest, hlists⟩ := hlist
  exact hlists.ensures_map hitem h

lemma has_attribute (h : ∀ a, P (.attribute a)) : Has (r "attribute") P := by
  refine ensures_of_alternatives (fun v hv => ?_) h
  simp [alternatives_attribute, flag, valuedAttribute, except_bind_ok_iff, except_map_ok_iff, hv]

lemma has_attr_list (h : ∀ xs : List Attribute, P (.list (xs.map .attribute))) :
    Has (r "attr_list") P :=
  has_list isList_attr_list (has_attribute Set.mem_range_self) h

lemma has_attrs (h : ∀ xs : List Attribute, P (.list (xs.map .attribute))) : Has (r "attrs") P := by
  refine ensures_rule ?_
  rw [alternatives_attrs]
  refine List.forall_mem_cons.2 ⟨?_, List.forall_mem_singleton.2 ?_⟩
  · rintro v hv
    obtain rfl := Except.ok.inj hv
    exact h []
  · refine has_any fun _ => has_attr_list fun xs => has_any fun _ v hv => ?_
    obtain rfl := Except.ok.inj hv
    exact h xs

lemma has_dim (h : ∀ d, P (.dimension d)) : Has (r "dim") P := by
  refine ensures_of_alternatives (fun v hv => ?_) h
  simp [alternatives_dim, sizeDimension, variableDimension, except_map_ok_iff, hv]

lemma has_dims (h : ∀ xs : List Dimension, P (.list (xs.map .dimension))) : Has (r "dims") P :=
  has_list isList_dims (has_dim Set.mem_range_self) h

lemma has_type (h : ∀ ty, P (.type ty)) : Has (r "type") P := by
  refine ensures_of_alternatives (fun v hv => ?_) h
  simp [alternatives_type, typeRef, except_bind_ok_iff, except_map_ok_iff, hv]

lemma has_ret (h : ∀ ty, P (.type ty)) : Has (r "ret") P := by
  refine ensures_rule ?_
  rw [alternatives_ret]
  refine List.forall_mem_cons.2 ⟨?_, List.forall_mem_singleton.2 ?_⟩
  · rintro v hv
    obtain rfl := Except.ok.inj hv
    exact h .void
  · refine has_any fun _ => has_type fun ty v hv => ?_
    obtain rfl := Except.ok.inj hv
    exact h ty

lemma has_value (h : ∀ v, P (.value v)) : Has (r "value") P := by
  refine ensures_of_alternatives (fun v hv => ?_) h
  simp [alternatives_value, textLiteral, stringLiteral, intLiteral, boolLiteral, presetMember,
    variableValue, arrayElement, callValue, blockValue, value, except_bind_ok_iff,
    except_map_ok_iff, hv]

lemma has_args (h : ∀ xs : List Value, P (.list (xs.map .value))) : Has (r "args") P :=
  has_list isList_args (has_value Set.mem_range_self) h

lemma has_index (h : ∀ v, P (.value v)) : Has (r "index") P := by
  refine ensures_rule ?_
  rw [alternatives_index]
  refine List.forall_mem_singleton.2 (has_any fun _ => has_value fun x => has_any fun _ v hv => ?_)
  obtain rfl := Except.ok.inj hv
  exact h x

lemma has_indices (h : ∀ xs : List Value, P (.list (xs.map .value))) : Has (r "indices") P :=
  has_list isList_indices (has_index Set.mem_range_self) h

lemma has_call (h : ∀ c, P (.call c)) : Has (r "call") P := by
  refine ensures_of_alternatives (fun v hv => ?_) h
  simp [alternatives_call, call, except_bind_ok_iff, except_map_ok_iff, hv]

lemma has_statement (h : ∀ c, P (.call c)) : Has (r "statement") P := by
  refine ensures_rule ?_
  rw [alternatives_statement]
  refine List.forall_mem_singleton.2 (has_call fun c => has_any fun _ v hv => ?_)
  obtain rfl := Except.ok.inj hv
  exact h c

lemma has_statements (h : ∀ xs : List Call, P (.list (xs.map .call))) : Has (r "statements") P :=
  has_list isList_statements (has_statement Set.mem_range_self) h

lemma has_variable (h : ∀ d, P (.variable d)) : Has (r "variable") P := by
  refine ensures_of_alternatives (fun v hv => ?_) h
  simp [alternatives_variable, variableDef, except_bind_ok_iff, except_map_ok_iff, hv]

lemma has_locals (h : ∀ xs : List VariableDef, P (.list (xs.map .variable))) : Has (r "locals") P :=
  has_list isList_locals (has_variable Set.mem_range_self) h

lemma has_block_locals (h : ∀ xs : List VariableDef, P (.list (xs.map .variable))) :
    Has (r "block_locals") P :=
  has_list isList_block_locals (has_variable Set.mem_range_self) h

lemma has_block (h : ∀ b, P (.block b)) : Has (r "block") P := by
  refine ensures_of_alternatives (fun v hv => ?_) h
  simp [alternatives_block, block, except_bind_ok_iff, except_map_ok_iff, hv]

lemma has_param (h : ∀ d, P (.param d)) : Has (r "param") P := by
  refine ensures_of_alternatives (fun v hv => ?_) h
  simp [alternatives_param, param, paramWithDefault, except_bind_ok_iff, except_map_ok_iff, hv]

lemma has_params (h : ∀ xs : List ParamDef, P (.list (xs.map .param))) : Has (r "params") P :=
  has_list isList_params (has_param Set.mem_range_self) h

lemma has_member_names (h : ∀ xs : List String, P (.list (xs.map fun s => .token (.text s)))) :
    Has (r "member_names") P :=
  has_list isList_member_names (has_label Set.mem_range_self) h

lemma has_lib_item (h : ∀ d, P (.definition d)) : Has (r "lib_item") P := by
  refine ensures_of_alternatives (fun v hv => ?_) h
  simp [alternatives_lib_item, preset, function, action, trigger, globalVariable,
    except_bind_ok_iff, except_map_ok_iff, hv]

lemma has_lib_items (h : ∀ xs : List Definition, P (.list (xs.map .definition))) :
    Has (r "lib_items") P :=
  has_list isList_lib_items (has_lib_item Set.mem_range_self) h

lemma has_callable_kind (h : ∀ k, P (.kind k)) : Has (r "callable_kind") P := by
  refine ensures_of_alternatives (fun v hv => ?_) h
  simp [alternatives_callable_kind, constant, hv]

lemma has_ext_param (h : ∀ d, P (.externalParam d)) : Has (r "ext_param") P := by
  refine ensures_of_alternatives (fun v hv => ?_) h
  simp [alternatives_ext_param, externalParam, externalParamWithDefault, except_bind_ok_iff,
    except_map_ok_iff, hv]

lemma has_ext_params (h : ∀ xs : List ExternalParam, P (.list (xs.map .externalParam))) :
    Has (r "ext_params") P :=
  has_list isList_ext_params (has_ext_param Set.mem_range_self) h

lemma has_ext_member (h : ∀ d, P (.externalMember d)) : Has (r "ext_member") P := by
  refine ensures_of_alternatives (fun v hv => ?_) h
  simp [alternatives_ext_member, externalMember, except_bind_ok_iff, except_map_ok_iff, hv]

lemma has_ext_members (h : ∀ xs : List ExternalMember, P (.list (xs.map .externalMember))) :
    Has (r "ext_members") P :=
  has_list isList_ext_members (has_ext_member Set.mem_range_self) h

lemma has_ext_item (h : ∀ d, P (.external d)) : Has (r "ext_item") P := by
  refine ensures_of_alternatives (fun v hv => ?_) h
  simp [alternatives_ext_item, externalPreset, externalFunction, externalVariable,
    except_bind_ok_iff, except_map_ok_iff, hv]

lemma has_ext_items (h : ∀ xs : List ExternalDefinition, P (.list (xs.map .external))) :
    Has (r "ext_items") P :=
  has_list isList_ext_items (has_ext_item Set.mem_range_self) h

lemma has_import (h : ∀ s, P (.scope s)) : Has (r "import") P := by
  refine ensures_of_alternatives (fun v hv => ?_) h
  simp [alternatives_import, importScope, except_bind_ok_iff, except_map_ok_iff, hv]

lemma has_library (h : ∀ s, P (.scope s)) : Has (r "library") P := by
  refine ensures_of_alternatives (fun v hv => ?_) h
  simp [alternatives_library, libraryScope, except_bind_ok_iff, except_map_ok_iff, hv]

lemma has_section (h : ∀ s, P (.scope s)) : Has (r "section") P := by
  refine ensures_rule ?_
  rw [alternatives_section]
  refine List.forall_mem_cons.2 ⟨has_import fun s v hv => ?_,
    List.forall_mem_singleton.2 (has_library fun s v hv => ?_)⟩ <;>
  · obtain rfl := Except.ok.inj hv
    exact h s

lemma has_sections (h : ∀ xs : List Scope, P (.list (xs.map .scope))) : Has (r "sections") P :=
  has_list isList_sections (has_section Set.mem_range_self) h

lemma has_program (h : ∀ p, P (.program p)) : Has (r "program") P := by
  refine ensures_of_alternatives (fun v hv => ?_) h
  simp [alternatives_program, program, except_map_ok_iff, hv]

/-! ## Reducers do not fail -/

lemma total_sectionClauses : ∀ c ∈ sectionClauses, c.Total programGrammar IsExpected := by
  simp only [sectionClauses, List.forall_mem_cons, Clause.Total, true_and, List.not_mem_nil,
    IsEmpty.forall_iff, implies_true, and_true]
  refine ⟨?_, ?_, ?_⟩
  · refine has_sections fun _ => .nil ?_
    simp [program]
  · refine has_any fun _ => has_str fun _ => has_any fun _ => has_ext_items fun _ =>
      has_any fun _ => .nil ?_
    simp [importScope, except_bind_ok_iff]
  · refine has_any fun _ => has_str fun _ => has_any fun _ => has_lib_items fun _ =>
      has_any fun _ => .nil ?_
    simp [libraryScope, except_bind_ok_iff]

lemma total_externalClauses : ∀ c ∈ externalClauses, c.Total programGrammar IsExpected := by
  simp only [externalClauses, List.forall_mem_cons, Clause.Total, true_and, List.not_mem_nil,
    IsEmpty.forall_iff, implies_true, and_true]
  refine ⟨?_, ?_, ?_, ?_, ?_, ?_, ?_, ?_, ?_⟩
  · refine has_attrs fun _ => has_any fun _ => has_label fun _ => has_any fun _ =>
      has_ext_members fun _ => has_any fun _ => .nil ?_
    simp [externalPreset, except_bind_ok_iff]
  · refine has_attrs fun _ => has_callable_kind fun _ => has_label fun _ => has_any fun _ =>
      has_id fun _ _ hid => has_any fun _ => has_ext_params fun _ => has_any fun _ =>
      has_ret fun _ => has_any fun _ => .nil ?_
    simp [externalFunction, ProgramPhrase.toId, hid, except_bind_ok_iff, except_map_ok_iff]
  · refine has_attrs fun _ => has_type fun _ => has_label fun _ => has_any fun _ =>
      has_id fun _ _ hid => has_any fun _ => .nil ?_
    simp [externalVariable, ProgramPhrase.toId, hid, except_bind_ok_iff, except_map_ok_iff]
  · refine has_label fun _ => has_any fun _ => has_id fun _ _ hid => .nil ?_
    simp [externalMember, ProgramPhrase.toId, hid, except_bind_ok_iff, except_map_ok_iff]
  · exact has_any fun _ => ⟨_, rfl⟩
  · exact has_any fun _ => ⟨_, rfl⟩
  · exact has_any fun _ => ⟨_, rfl⟩
  · refine has_attrs fun _ => has_label fun _ => has_any fun _ => has_type fun _ =>
      has_any fun _ => has_id fun _ _ hid => .nil ?_
    simp [externalParam, ProgramPhrase.toId, hid, except_bind_ok_iff, except_map_ok_iff]
  · refine has_attrs fun _ => has_label fun _ => has_any fun _ => has_type fun _ =>
      has_any fun _ => has_id fun _ _ hid => has_any fun _ => has_value fun _ => has_any fun _ =>
      .nil ?_
    simp [externalParamWithDefault, ProgramPhrase.toId, hid, except_bind_ok_iff, except_map_ok_iff]

lemma total_libraryClauses : ∀ c ∈ libraryClauses, c.Total programGrammar IsExpected := by
  simp only [libraryClauses, List.forall_mem_cons, Clause.Total, true_and, List.not_mem_nil,
    IsEmpty.forall_iff, implies_true, and_true]
  refine ⟨?_, ?_, ?_, ?_, ?_, ?_, ?_, ?_, ?_⟩
  · refine has_attrs fun _ => has_any fun _ => has_label fun _ => has_str fun _ => has_any fun _ =>
      has_member_names fun _ => has_any fun _ => .nil ?_
    simp [preset, except_bind_ok_iff]
  · refine has_attrs fun _ => has_any fun _ => has_label fun _ => has_str fun _ => has_any fun _ =>
      has_params fun _ => has_any fun _ => has_ret fun _ => has_locals fun _ => has_block fun _ =>
      .nil ?_
    simp [function, body, except_bind_ok_iff, except_map_ok_iff]
  · refine has_attrs fun _ => has_any fun _ => has_label fun _ => has_str fun _ => has_any fun _ =>
      has_params fun _ => has_any fun _ => has_locals fun _ => has_block fun _ => .nil ?_
    simp [action, body, except_bind_ok_iff, except_map_ok_iff]
  · refine has_attrs fun _ => has_any fun _ => has_label fun _ => has_str fun _ =>
      has_call fun _ => has_locals fun _ => has_block fun _ => .nil ?_
    simp [trigger, body, except_bind_ok_iff, except_map_ok_iff]
  · refine has_variable fun _ => .nil ?_
    simp [globalVariable, except_map_ok_iff]
  · refine has_attrs fun _ => has_label fun _ => has_any fun _ => has_type fun _ => .nil ?_
    simp [param, except_bind_ok_iff, except_map_ok_iff]
  · refine has_attrs fun _ => has_label fun _ => has_any fun _ => has_type fun _ =>
      has_any fun _ => has_value fun _ => .nil ?_
    simp [paramWithDefault, except_bind_ok_iff, except_map_ok_iff]
  · exact ⟨_, rfl⟩
  · exact has_any fun _ => has_any fun _ => ⟨_, rfl⟩

lemma total_declarationClauses : ∀ c ∈ declarationClauses, c.Total programGrammar IsExpected := by
  simp only [declarationClauses, List.forall_mem_cons, Clause.Total, true_and, List.not_mem_nil,
    IsEmpty.forall_iff, implies_true, and_true]
  refine ⟨?_, ?_, ?_, ?_, ?_, ?_, ?_, ?_⟩
  · refine has_attrs fun _ => has_type fun _ => has_label fun _ => has_any fun _ =>
      has_value fun _ => has_any fun _ => .nil ?_
    simp [variableDef, except_bind_ok_iff, except_map_ok_iff]
  · refine has_label fun _ => has_dims fun _ => .nil ?_
    simp [typeRef, except_bind_ok_iff]
  · refine has_any fun _ => has_int fun _ => has_any fun _ => .nil ?_
    simp [sizeDimension, except_map_ok_iff]
  · refine has_any fun _ => has_label fun _ => has_any fun _ => .nil ?_
    simp [variableDimension, except_map_ok_iff]
  · exact ⟨_, rfl⟩
  · exact has_any fun _ => has_any fun _ => has_any fun _ => ⟨_, rfl⟩
  · refine has_label fun _ => .nil ?_
    simp [flag, except_map_ok_iff]
  · refine has_label fun _ => has_any fun _ => has_str fun _ => .nil ?_
    simp [valuedAttribute, except_bind_ok_iff, except_map_ok_iff]

lemma total_valueClauses : ∀ c ∈ valueClauses, c.Total programGrammar IsExpected := by
  simp only [valueClauses, List.forall_mem_cons, Clause.Total, true_and, List.not_mem_nil,
    IsEmpty.forall_iff, implies_true, and_true]
  refine ⟨?_, ?_, ?_, ?_, ?_, ?_, ?_, ?_, ?_, ?_, ?_, ?_, ?_⟩
  · refine has_any fun _ => has_block_locals fun _ => has_statements fun _ => has_any fun _ => .nil ?_
    simp [block, except_bind_ok_iff]
  · exact has_any fun _ => has_any fun _ => ⟨_, rfl⟩
  · refine has_label fun _ => has_any fun _ => has_args fun _ => has_any fun _ => .nil ?_
    simp [call, except_bind_ok_iff]
  · refine has_text (by decide) fun _ => .nil ?_
    simp [textLiteral, except_map_ok_iff]
  · refine has_str fun _ => .nil ?_
    simp [stringLiteral, except_map_ok_iff]
  · refine has_int fun _ => .nil ?_
    simp [intLiteral, except_map_ok_iff]
  · refine has_bool fun _ => .nil ?_
    simp [boolLiteral, except_map_ok_iff]
  · refine has_label fun _ => has_any fun _ => has_label fun _ => .nil ?_
    simp [presetMember, except_bind_ok_iff, except_map_ok_iff]
  · refine has_label fun _ => .nil ?_
    simp [variableValue, except_map_ok_iff]
  · refine has_label fun _ => has_index fun _ => has_indices fun _ => .nil ?_
    simp [arrayElement, except_bind_ok_iff]
  · refine has_call fun _ => .nil ?_
    simp [callValue, except_map_ok_iff]
  · refine has_block fun _ => .nil ?_
    simp [blockValue, except_map_ok_iff]
  · exact has_any fun _ => has_any fun _ => has_any fun _ => ⟨_, rfl⟩

lemma total : ∀ p ∈ programGrammar.productions, p.Total programGrammar IsExpected := by
  refine Clause.total_of_clauses not_isHidden ?_
  simp only [clauses, List.forall_mem_append]
  exact ⟨⟨⟨⟨total_sectionClauses, total_externalClauses⟩, total_libraryClauses⟩,
    total_declarationClauses⟩, total_valueClauses⟩

/-! ## The search comes to an end -/

/-- The rules that can be matched without a token. -/
def vanishing : List String :=
  ["program", "sections", "%2", "ext_items", "%4", "lib_items", "%6", "ext_members", "%8",
    "ext_params", "%10", "member_names", "%12", "locals", "%14", "params", "%16", "ret", "dims",
    "%18", "attrs", "attr_list", "%20", "block_locals", "%22", "statements", "%24", "args", "%26",
    "indices", "%28"]

/-- The rules in levels: with no token taken, a rule leads to rules of lower levels only. -/
def levels : List (List String) :=
  [["import", "library", "ext_member", "%8", "callable_kind", "%10", "%11", "%12", "%16", "ret",
      "type", "dim", "attrs", "attribute", "%20", "block", "call", "%26", "index"],
    ["section", "ext_item", "%7", "ext_param", "member_names", "param", "variable", "%17", "%19",
      "statement", "value", "%27"],
    ["%1", "%3", "ext_members", "%9", "lib_item", "%13", "%15", "dims", "%18", "attr_list", "%21",
      "%23", "%25", "indices", "%28"],
    ["sections", "%2", "ext_items", "%4", "%5", "ext_params", "locals", "%14", "params",
      "block_locals", "%22", "statements", "%24", "args"],
    ["program", "lib_items", "%6"]]

lemma ranked :
    programGrammar.Ranked vanishing fun name => levels.findIdx (·.contains name) := by
  decide +kernel

lemma closed : programGrammar.Closed := by
  have hfind : programGrammar.mentioned.find? (!programGrammar.defines ·) = none := by
    decide +kernel
  have hclauses : ofClauses "program" clauses = .ok programGrammar := by
    rw [ofClauses, check]
    exact hfind ▸ rfl
  exact closed_of_ofClauses hclauses

variable {tokens : List Token} {length : Nat}

lemma isExpected_of_mem_stream (htokens : ∀ t ∈ tokens, t.fits) :
    ∀ t ∈ (stream tokens length).toList, IsExpected t := by
  intro t ht
  simp only [stream, Token.enclose, List.mem_append, List.mem_cons,
    List.not_mem_nil, or_false] at ht
  rcases ht with (rfl | ht) | rfl
  · exact .inl rfl
  · exact .inr (.inr (htokens t ht))
  · exact .inr (.inl rfl)

/-- The search succeeds for every list of fitting tokens. -/
lemma exists_found (htokens : ∀ t ∈ tokens, t.fits) : ∃ found,
    matchSequence (stream tokens length) (programGrammar.expand (stream tokens length)
      (programGrammar.budget (stream tokens length).size)) programGrammar.whole 0 = .ok found :=
  exists_whole closed (ends_of_wellFounded ranked.wellFounded (Nat.zero_le _))
    (reduces_of_total total (isExpected_of_mem_stream htokens) _)

/-- The values found for a list of fitting tokens are those in whose language it is. -/
theorem exists_mem_parseAll_iff_mem_language {v : ProgramPhrase} (htokens : ∀ t ∈ tokens, t.fits) :
    (∃ values, programGrammar.parseAll tokens length = .ok values ∧ v ∈ values) ↔
      tokens ∈ programGrammar.language (r "program") {v} :=
  exists_mem_parseAll_iff closed (ends_of_wellFounded ranked.wellFounded (Nat.zero_le _))
    (reduces_of_total total (isExpected_of_mem_stream htokens) _)

/-- The values found are programs. -/
lemma exists_program_of_mem {values : List ProgramPhrase} {v : ProgramPhrase}
    (htokens : ∀ t ∈ tokens, t.fits) (h : programGrammar.parseAll tokens length = .ok values)
    (hv : v ∈ values) : ∃ p, .program p = v := by
  obtain ⟨_, rfl, hyields⟩ := (exists_mem_parseAll_iff_mem_language htokens).1 ⟨values, h, hv⟩
  have hrange : Has (r "program") (· ∈ Set.range .program) := has_program Set.mem_range_self
  exact hrange (fun t ht => .inr (.inr (htokens t ht))) hyields

end ProgramGrammar

end TriggerScript
