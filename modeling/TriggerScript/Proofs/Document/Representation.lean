import TriggerScript.Proofs.Document.Sections
import TriggerScript.Proofs.Document.Writing
import TriggerScript.Proofs.Names

/-!
# What a document says

A document says what a program means by elements that refer to one another. Here it is written down
when the element at an allocation represents a value, a call, a variable or a definition, without how
documents are made: an element represents a call, say, if it refers to the callable entity that the
name of the call means and to elements that represent what is handed over, in order.

What a name means depends on its place. An `Environment` gives the meaning of all names at a place:
in a block the latest local of a name counts, outside of blocks a parameter hides the locals of its
name, and a name that is not declared in a definition means a global variable.

The main definition is `Definition.Represented`. The default value of an imported parameter that a
call leaves out is only referred to, since its calls may lead back to itself; whether it is represented
is a question of its own.
-/

namespace TriggerScript

/-! ## What names mean -/

/-- The meaning of all names at a place. -/
abbrev Environment := String → Option Binding

namespace Environment

/-- Outside of definitions a name means a global variable. -/
def globals (p : Program) : Environment :=
  fun name => ((p.global? name).bind Global.allocation).map .variable

/-- A name is declared. -/
def bind (env : Environment) (name : String) (b : Binding) : Environment :=
  fun other => if other = name then some b else env other

/-- A local variable is declared. If that is not `nested` in a block then a parameter of the same name
hides it. -/
def bindLocal (env : Environment) (nested : Bool) (name : String) (a : Allocation) : Environment :=
  match nested, env name with
  | false, some (.parameter _) => env
  | _, _ => env.bind name (.variable a)

/-- Local variables are declared one after the other. -/
def bindLocals (env : Environment) (nested : Bool) (names : List (String × Allocation)) :
    Environment :=
  names.foldl (fun env (name, a) => env.bindLocal nested name a) env

/-- Parameters are declared one after the other. -/
def bindParameters (env : Environment) (names : List (String × Allocation)) : Environment :=
  names.foldl (fun env (name, a) => env.bind name (.parameter a)) env

end Environment

/-! ## Parts of elements -/

/-- A document has one element at this allocation, which is of this type and has these children. -/
def Node.HasElement (tree : Node) (type : ElementType) (a : Allocation) (children : List Node) : Prop :=
  ((tree.sectionElements a.library).filter fun n => n.attribute? "Id" = some a.id.text) =
    [{ tag := "Element", attributes := [("Type", type.name), ("Id", a.id.text)], children }]

/-- The children that give the dimensions of a type from `index` on. -/
inductive DimensionsWritten (env : Environment) : Nat → List Dimension → List Node → Prop
  | nil {index : Nat} : DimensionsWritten env index [] []
  | size {index : Nat} {n : Int} {rest : List Dimension} {nodes : List Node}
      (hrest : DimensionsWritten env (index + 1) rest nodes) :
      DimensionsWritten env index (.size n :: rest)
        ({ tag := "ArraySize",
           attributes := [("Dim", Text.natText index), ("Value", Text.intText n)] } :: nodes)
  | variable {index : Nat} {name : String} {b : Binding} {rest : List Dimension} {nodes : List Node}
      (hname : env name = some b) (hrest : DimensionsWritten env (index + 1) rest nodes) :
      DimensionsWritten env index (.variable name :: rest)
        (b.size index :: nodes)

/-- The child that gives a type. -/
inductive TypeRef.Written (env : Environment) (tag : String) (ty : TypeRef) : Node → Prop
  | mk {dims : List Node} (hdims : DimensionsWritten env 0 ty.dims dims) :
      Written env tag ty
        { tag, children := { tag := "Type", attributes := [("Value", ty.name)] } :: dims }

/-! ## Values, calls, blocks and variables -/

mutual

/-- The element at an allocation represents a value; `formal` is the parameter that the value is handed
to, if to any. -/
inductive Value.Represented (tree : Node) (p : Program) :
    Environment → Option Allocation → Value → Allocation → Prop
  | mk {env : Environment} {formal : Option Allocation} {kind : ValueKind} {a : Allocation}
      {children : List Node} (hkind : ValueKind.Represented tree p env kind children)
      (helement : tree.HasElement .param a
        (references "ParameterDef" .paramDef formal.toList ++ children)) :
      Value.Represented tree p env formal ⟨kind, some a⟩ a

/-- Nodes say what a value is. -/
inductive ValueKind.Represented (tree : Node) (p : Program) :
    Environment → ValueKind → List Node → Prop
  /-- A literal is given by its text and its type. -/
  | literal {env : Environment} (l : Literal) :
      ValueKind.Represented tree p env (.literal l) l.nodes
  /-- A member of a preset is one of the last preset of that name. -/
  | presetMember {env : Environment} {preset member : String} {q : Preset} {a : Allocation}
      (hpreset : p.preset? preset = some q) (hmember : q.member? member = some a) :
      ValueKind.Represented tree p env (.presetMember preset member)
        [.referring "Preset" .presetValue a]
  /-- A name stands for what it means at its place. -/
  | variable {env : Environment} {name : String} {b : Binding} (hname : env name = some b) :
      ValueKind.Represented tree p env (.variable name) [b.node]
  | arrayElement {env : Environment} {name : String} {b : Binding} {indices : List Value}
      {targets : List Allocation} (hname : env name = some b)
      (hindices : ValuesRepresented tree p env indices targets) :
      ValueKind.Represented tree p env (.arrayElement name indices)
        (b.node :: references "Array" .param targets)
  | call {env : Environment} {c : Call} {a : Allocation}
      (hcall : Call.Represented tree p env none c a) :
      ValueKind.Represented tree p env (.call c) [.referring "FunctionCall" .functionCall a]

/-- Elements represent values, in order. -/
inductive ValuesRepresented (tree : Node) (p : Program) :
    Environment → List Value → List Allocation → Prop
  | nil {env : Environment} : ValuesRepresented tree p env [] []
  | cons {env : Environment} {v : Value} {a : Allocation} {rest : List Value}
      {targets : List Allocation} (hvalue : Value.Represented tree p env none v a)
      (hrest : ValuesRepresented tree p env rest targets) :
      ValuesRepresented tree p env (v :: rest) (a :: targets)

/-- The element at an allocation represents a call; `formal` is the parameter that the block around it
is handed to, if there is one. The call is one of the last callable entity of that name. What it
leaves out of the parameters of an imported entity is referred to, in order. -/
inductive Call.Represented (tree : Node) (p : Program) :
    Environment → Option Allocation → Call → Allocation → Prop
  | mk {env : Environment} {formal : Option Allocation} {callee : String} {args : List Value}
      {a target : Allocation} {f : Callable} {actuals : List Node} {defaults : List Allocation}
      (hcallee : p.callable? callee = some f) (htarget : f.allocation = some target)
      (hactuals : ActualsRepresented tree p env args (f.formals.take args.length) actuals)
      (hdefaults : ((f.formals.drop args.length).filterMap Formal.externalDefault).map
        Value.allocation = defaults.map some)
      (helement : tree.HasElement .functionCall a
        (.referring "FunctionDef" .functionDef target ::
          references "SubFunctionType" .paramDef formal.toList ++ actuals ++
          references "Default" .param defaults)) :
      Call.Represented tree p env formal ⟨callee, args, some a⟩ a

/-- Nodes say what is handed to parameters, one by one: a value, or for a block its locals and its
statements. -/
inductive ActualsRepresented (tree : Node) (p : Program) :
    Environment → List Value → List Formal → List Node → Prop
  | nil {env : Environment} : ActualsRepresented tree p env [] [] []
  | block {env : Environment} {b : Block} {slot : Option Allocation} {args : List Value}
      {formal : Formal} {formals : List Formal} {q : Allocation} {locals statements : List Allocation}
      {nodes : List Node} (haccepts : formal.acceptsBlock) (hformal : formal.allocation = some q)
      (hblock : Block.Represented tree p env true (some q) b locals statements)
      (hrest : ActualsRepresented tree p env args formals nodes) :
      ActualsRepresented tree p env (⟨.block b, slot⟩ :: args) (formal :: formals)
        (references "Variable" .variable locals ++
          references "FunctionCall" .functionCall statements ++ nodes)
  | value {env : Environment} {v : Value} {args : List Value} {formal : Formal}
      {formals : List Formal} {q a : Allocation} {nodes : List Node} (haccepts : ¬formal.acceptsBlock)
      (hformal : formal.allocation = some q) (hvalue : Value.Represented tree p env (some q) v a)
      (hrest : ActualsRepresented tree p env args formals nodes) :
      ActualsRepresented tree p env (v :: args) (formal :: formals)
        (.referring "Parameter" .param a :: nodes)

/-- Elements represent the locals and the statements of a block, which is `nested` in another block or
is the body of a definition. The statements know all of the locals. -/
inductive Block.Represented (tree : Node) (p : Program) : Environment → Bool → Option Allocation →
    Block → List Allocation → List Allocation → Prop
  | mk {env : Environment} {nested : Bool} {formal : Option Allocation} {ds : List VariableDef}
      {cs : List Call} {locals statements : List Allocation}
      (hlocals : LocalsRepresented tree p env nested ds locals)
      (hstatements : CallsRepresented tree p
        (env.bindLocals nested ((ds.map VariableDef.name).zip locals)) formal cs statements) :
      Block.Represented tree p env nested formal ⟨ds, cs⟩ locals statements

/-- Elements represent local variables, in order. Each knows those in front of it. -/
inductive LocalsRepresented (tree : Node) (p : Program) :
    Environment → Bool → List VariableDef → List Allocation → Prop
  | nil {env : Environment} {nested : Bool} : LocalsRepresented tree p env nested [] []
  | cons {env : Environment} {nested : Bool} {d : VariableDef} {a : Allocation}
      {rest : List VariableDef} {targets : List Allocation}
      (hvariable : VariableDef.Represented tree p env d a)
      (hrest : LocalsRepresented tree p (env.bindLocal nested d.name a) nested rest targets) :
      LocalsRepresented tree p env nested (d :: rest) (a :: targets)

/-- Elements represent statements, in order. -/
inductive CallsRepresented (tree : Node) (p : Program) :
    Environment → Option Allocation → List Call → List Allocation → Prop
  | nil {env : Environment} {formal : Option Allocation} : CallsRepresented tree p env formal [] []
  | cons {env : Environment} {formal : Option Allocation} {c : Call} {a : Allocation}
      {rest : List Call} {targets : List Allocation} (hcall : Call.Represented tree p env formal c a)
      (hrest : CallsRepresented tree p env formal rest targets) :
      CallsRepresented tree p env formal (c :: rest) (a :: targets)

/-- The element at an allocation represents a variable. -/
inductive VariableDef.Represented (tree : Node) (p : Program) :
    Environment → VariableDef → Allocation → Prop
  | mk {env : Environment} {attributes : List Attribute} {ty : TypeRef} {name : String} {v : Value}
      {a initial : Allocation} {type : Node} (htype : ty.Written env "VariableType" type)
      (hvalue : Value.Represented tree p env none v initial)
      (helement : tree.HasElement .variable a
        (Attribute.flag attributes "const" "FlagConstant" ++ Attribute.comment attributes ++
          [type, .referring "Value" .param initial])) :
      VariableDef.Represented tree p env ⟨attributes, ty, name, v, some a⟩ a

end

/-! ## Definitions -/

section Definitions

variable (tree : Node) (p : Program)

/-- Nodes refer to the default value of a parameter, if it has one. A default knows no names of the
definition. -/
def DefaultRepresented : Option Value → List Node → Prop
  | none, nodes => nodes = []
  | some v, nodes =>
    ∃ a, v.Represented tree p (.globals p) none a ∧ nodes = [.referring "Default" .param a]

/-- The element at an allocation represents a parameter. -/
def ParamDef.Represented (env : Environment) (d : ParamDef) (a : Allocation) : Prop :=
  d.allocation = some a ∧ ∃ type default,
    d.ty.Written env "ParameterType" type ∧ DefaultRepresented tree p d.default default ∧
      tree.HasElement .paramDef a (Attribute.comment d.attributes ++ type :: default)

/-- Elements represent parameters, in order. Each knows those in front of it. -/
inductive ParamsRepresented : Environment → List ParamDef → List Allocation → Prop
  | nil {env : Environment} : ParamsRepresented env [] []
  | cons {env : Environment} {d : ParamDef} {a : Allocation} {rest : List ParamDef}
      {targets : List Allocation} (hparam : d.Represented tree p env a)
      (hrest : ParamsRepresented (env.bind d.name (.parameter a)) rest targets) :
      ParamsRepresented env (d :: rest) (a :: targets)

/-- The element at an allocation represents a trigger. -/
def TriggerDef.Represented (d : TriggerDef) (a : Allocation) : Prop :=
  d.allocation = some a ∧ ∃ event locals statements,
    d.event.Represented tree p (.globals p) none event ∧
      d.body.Represented tree p (.globals p) false none locals statements ∧
      tree.HasElement .trigger a
        (Attribute.flag d.attributes "disabled" "FlagDisabled" ++
          Attribute.flag d.attributes "initially_off" "FlagInitialOff" ++
          Attribute.comment d.attributes ++
          .referring "Event" .functionCall event :: references "Variable" .variable locals ++
          references "Action" .functionCall statements)

/-- The element at an allocation represents a function or an action. -/
def FunctionDef.Represented (d : FunctionDef) (a : Allocation) : Prop :=
  d.allocation = some a ∧ ∃ returns params locals statements,
    (if d.returns.isVoid then returns = []
      else ∃ n, d.returns.Written (.globals p) "ReturnType" n ∧ returns = [n]) ∧
      ParamsRepresented tree p (.globals p) d.params params ∧
      d.body.Represented tree p
        ((Environment.globals p).bindParameters ((d.params.map ParamDef.name).zip params)) false none
        locals statements ∧
      tree.HasElement .functionDef a
        (d.kind.node :: Attribute.flag d.attributes "hidden" "FlagHidden" ++
          Attribute.flag d.attributes "native" "FlagNative" ++ Attribute.comment d.attributes ++
          returns ++ references "Parameter" .paramDef params ++
          references "Variable" .variable locals ++ references "FunctionCall" .functionCall statements)

/-- The element at an allocation represents a preset, and further elements its members. -/
def PresetDef.Represented (d : PresetDef) (a : Allocation) : Prop :=
  d.allocation = some a ∧ ∃ members,
    d.members.map PresetMember.allocation = members.map some ∧
      (∀ m ∈ members, tree.HasElement .presetValue m []) ∧
      tree.HasElement .preset a
        (Attribute.comment d.attributes ++
          (match Attribute.valueOf? d.attributes "base" with
            | none | some "int" =>
              [{ tag := "PresetInteger" }, { tag := "BaseType", attributes := [("Value", "int")] }]
            | some base => [{ tag := "BaseType", attributes := [("Value", base)] }]) ++
          { tag := "PresetGenConstVar" } :: references "Item" .presetValue members)

/-- The element at an allocation represents a definition. -/
def Definition.Represented : Definition → Allocation → Prop
  | .preset d => d.Represented tree
  | .variable d => d.Represented tree p (.globals p)
  | .function d => d.Represented tree p
  | .trigger d => d.Represented tree p

end Definitions

end TriggerScript
