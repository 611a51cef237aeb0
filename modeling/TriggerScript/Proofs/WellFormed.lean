import Mathlib.Data.Set.Insert
import TriggerScript.Document
import TriggerScript.Proofs.Names
import TriggerScript.Proofs.Slots

/-!
# Well-formed programs and catalogs

When a program and a catalog have a meaning, said without how the document is made: names are bound
where they stand, calls fit what they call, blocks stand where blocks are asked for, attributes are
those that their owners know, and nothing lies too deep.

All definitions of a program have to be well-formed, and of the default values of imported parameters
those that are used: those that a call in a definition, or in a default that is used itself, leaves
out.

The main definition is `WellFormed`.
-/

namespace TriggerScript

/-- Whether an attribute can stand where `flags` are the flags that are known and `valued` the keys
that take a value. A comment can stand everywhere. -/
def Attribute.Allowed (flags valued : List String) (a : Attribute) : Prop :=
  match a.value with
  | none => a.key ∈ flags
  | some _ => a.key = "comment" ∨ a.key ∈ valued

/-- Whether a name is bound where `names` are the names that the definition around it has
declared. -/
def Program.Binds (p : Program) (names : Set String) (name : String) : Prop :=
  name ∈ names ∨ (p.global? name).isSome

/-- Whether the variables in the dimensions of a type are bound. -/
def TypeRef.WellFormed (p : Program) (names : Set String) (ty : TypeRef) : Prop :=
  ∀ name, .variable name ∈ ty.dims → p.Binds names name

/-- The names behind the declarations of local variables. -/
def declare (names : Set String) : List VariableDef → Set String
  | [] => names
  | d :: rest => declare (insert d.name names) rest

/-! ## Values, calls, blocks and variables -/

mutual

/-- Whether a value is well-formed at a depth. -/
def Value.WellFormed (p : Program) (names : Set String) (depth : Nat) : Value → Prop
  | ⟨kind, _⟩ => depth ≤ 256 ∧ kind.WellFormed p names depth

/-- Whether what is in a value is well-formed. A block is none where a value is asked for. -/
def ValueKind.WellFormed (p : Program) (names : Set String) (depth : Nat) : ValueKind → Prop
  | .literal _ => True
  | .presetMember preset member => ∃ q, p.preset? preset = some q ∧ (q.member? member).isSome
  | .variable name => p.Binds names name
  | .arrayElement name indices =>
    p.Binds names name ∧ valuesWellFormed p names (depth + 1) indices
  | .call c => c.WellFormed p names (depth + 1)
  | .block _ => False

/-- Whether a call is well-formed at a depth: it calls something, hands over no more than there are
parameters, and what it leaves out has a default. -/
def Call.WellFormed (p : Program) (names : Set String) (depth : Nat) : Call → Prop
  | ⟨callee, args, _⟩ =>
    depth ≤ 256 ∧
      ∃ f, p.callable? callee = some f ∧ args.length ≤ f.formals.length ∧
        (∀ formal ∈ f.formals.drop args.length, formal.hasDefault) ∧
        actualsWellFormed p names (depth + 1) args f.formals

/-- Whether what is handed to parameters is well-formed: blocks go to the parameters that accept
blocks, and only there. -/
def actualsWellFormed (p : Program) (names : Set String) (depth : Nat) :
    List Value → List Formal → Prop
  | [], _ => True
  | _ :: _, [] => True
  | ⟨.block b, _⟩ :: args, formal :: formals =>
    (formal.acceptsBlock ∧ b.WellFormed p names depth) ∧
      actualsWellFormed p names depth args formals
  | v :: args, formal :: formals =>
    (¬formal.acceptsBlock ∧ v.WellFormed p names depth) ∧
      actualsWellFormed p names depth args formals

/-- Whether a block is well-formed at a depth. Its locals are declared one after the other, and its
statements know all of them. -/
def Block.WellFormed (p : Program) (names : Set String) (depth : Nat) : Block → Prop
  | ⟨locals, statements⟩ =>
    localsWellFormed p names depth locals ∧
      callsWellFormed p (declare names locals) depth statements

/-- Whether a variable is well-formed at a depth. Its initial value lies one deeper. -/
def VariableDef.WellFormed (p : Program) (names : Set String) (depth : Nat) : VariableDef → Prop
  | ⟨attributes, ty, _, v, _⟩ =>
    (∀ a ∈ attributes, a.Allowed ["const"] []) ∧ ty.WellFormed p names ∧
      v.WellFormed p names (depth + 1)

/-- Whether values are well-formed at a depth. -/
def valuesWellFormed (p : Program) (names : Set String) (depth : Nat) : List Value → Prop
  | [] => True
  | v :: rest => v.WellFormed p names depth ∧ valuesWellFormed p names depth rest

/-- Whether calls are well-formed at a depth. -/
def callsWellFormed (p : Program) (names : Set String) (depth : Nat) : List Call → Prop
  | [] => True
  | c :: rest => c.WellFormed p names depth ∧ callsWellFormed p names depth rest

/-- Whether local variables are well-formed at a depth, each with those in front of it declared. -/
def localsWellFormed (p : Program) (names : Set String) (depth : Nat) : List VariableDef → Prop
  | [] => True
  | d :: rest => d.WellFormed p names depth ∧ localsWellFormed p (insert d.name names) depth rest

end

/-! ## Definitions -/

/-- The names behind the declarations of parameters. -/
def declareParams (names : Set String) : List ParamDef → Set String
  | [] => names
  | d :: rest => declareParams (insert d.name names) rest

/-- Whether a parameter is well-formed. Its default knows no names of the definition. -/
def ParamDef.WellFormed (p : Program) (names : Set String) (d : ParamDef) : Prop :=
  (∀ a ∈ d.attributes, a.Allowed ["block"] []) ∧ d.ty.WellFormed p names ∧
    ∀ v, d.default = some v → v.WellFormed p ∅ 0

/-- Whether parameters are well-formed, each with those in front of it declared. -/
def paramsWellFormed (p : Program) (names : Set String) : List ParamDef → Prop
  | [] => True
  | d :: rest => d.WellFormed p names ∧ paramsWellFormed p (insert d.name names) rest

/-- Whether a definition is well-formed. -/
def Definition.WellFormed (p : Program) : Definition → Prop
  | .preset d => ∀ a ∈ d.attributes, a.Allowed [] ["base"]
  | .variable d => d.WellFormed p ∅ 0
  | .function d =>
    (∀ a ∈ d.attributes, a.Allowed ["hidden", "native"] []) ∧
      (¬d.returns.isVoid → d.returns.WellFormed p ∅) ∧ paramsWellFormed p ∅ d.params ∧
      d.body.WellFormed p (declareParams ∅ d.params) 0
  | .trigger d =>
    (∀ a ∈ d.attributes, a.Allowed ["disabled", "initially_off"] []) ∧
      d.event.WellFormed p ∅ 0 ∧ d.body.WellFormed p ∅ 0

/-! ## The calls of a definition, and what they leave out -/

mutual

/-- The calls in a value. -/
def Value.calls : Value → List Call
  | ⟨kind, _⟩ => kind.calls

/-- The calls inside a value. -/
def ValueKind.calls : ValueKind → List Call
  | .literal _ => []
  | .presetMember _ _ => []
  | .variable _ => []
  | .arrayElement _ indices => valuesCalls indices
  | .call c => c.calls
  | .block b => b.calls

/-- A call and the calls in what it hands over. -/
def Call.calls : Call → List Call
  | ⟨callee, args, allocation⟩ => ⟨callee, args, allocation⟩ :: valuesCalls args

/-- The calls in a block. -/
def Block.calls : Block → List Call
  | ⟨locals, statements⟩ => variablesCalls locals ++ callsCalls statements

/-- The calls in a variable. -/
def VariableDef.calls : VariableDef → List Call
  | ⟨_, _, _, v, _⟩ => v.calls

/-- The calls in values. -/
def valuesCalls : List Value → List Call
  | [] => []
  | v :: rest => v.calls ++ valuesCalls rest

/-- Calls and the calls in what they hand over. -/
def callsCalls : List Call → List Call
  | [] => []
  | c :: rest => c.calls ++ callsCalls rest

/-- The calls in variables. -/
def variablesCalls : List VariableDef → List Call
  | [] => []
  | d :: rest => d.calls ++ variablesCalls rest

end

/-- The calls in a definition. -/
def Definition.calls : Definition → List Call
  | .preset _ => []
  | .variable d => d.calls
  | .function d => (d.params.flatMap fun q => q.default.toList.flatMap Value.calls) ++ d.body.calls
  | .trigger d => d.event.calls ++ d.body.calls

/-- Whether a call leaves out an imported parameter with a default value. -/
def Call.Omits (p : Program) (c : Call) (formal : Formal) (v : Value) : Prop :=
  ∃ f, p.callable? c.callee = some f ∧ formal ∈ f.formals.drop c.args.length ∧
    formal.externalDefault = some v

/-- The default values of imported parameters that are used. -/
inductive Program.Uses (p : Program) : Formal → Value → Prop
  /-- A call in a definition leaves the parameter out. -/
  | definition {s : LibraryScope} {d : Definition} {c : Call} {formal : Formal} {v : Value}
      (hs : s ∈ p.libraries) (hd : d ∈ s.definitions) (hc : c ∈ d.calls)
      (homits : c.Omits p formal v) : Uses p formal v
  /-- A call in a default value that is used leaves the parameter out. -/
  | default {formal formal' : Formal} {v v' : Value} {c : Call} (huses : Uses p formal v)
      (hc : c ∈ v.calls) (homits : c.Omits p formal' v') : Uses p formal' v'

/-- A default value that is used is left out by some call. -/
lemma Program.Uses.exists_omits {p : Program} {formal : Formal} {v : Value} (h : p.Uses formal v) :
    ∃ c : Call, c.Omits p formal v := by
  cases h with
  | definition _ _ _ homits => exact ⟨_, homits⟩
  | default _ _ homits => exact ⟨_, homits⟩

/-! ## Catalogs -/

mutual

/-- The names that an entry of a catalog lists. -/
def CatalogItem.leaves : CatalogItem → List String
  | .leaf name => [name]
  | .folder f => f.leaves

/-- The names that a folder lists. -/
def Folder.leaves : Folder → List String
  | ⟨_, entries, _⟩ => itemsLeaves entries

/-- The names that entries list. -/
def itemsLeaves : List CatalogItem → List String
  | [] => []
  | i :: rest => i.leaves ++ itemsLeaves rest

end

/-- The names that a catalog lists. -/
def Catalog.leaves (c : Catalog) : List String :=
  c.libraries.flatMap fun l => itemsLeaves l.items

/-- Whether something can be listed. An imported preset has no id of its own and cannot. -/
def Entry.Listable : Entry → Prop
  | .preset q => ¬q.isExternal
  | _ => True

/-- Whether a name can be listed. -/
def Program.Lists (p : Program) (name : String) : Prop :=
  ∃ e, p.listed? name = some e ∧ e.Listable

/-- Whether a program and a catalog have a meaning. -/
structure WellFormed (p : Program) (c : Catalog) : Prop where
  leaves : ∀ name ∈ c.leaves, p.Lists name
  definitions : ∀ s ∈ p.libraries, ∀ d ∈ s.definitions, d.WellFormed p
  defaults : ∀ formal v, p.Uses formal v → v.WellFormed p ∅ 0

end TriggerScript
