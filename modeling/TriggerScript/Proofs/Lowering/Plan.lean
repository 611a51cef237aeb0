import TriggerScript.Proofs.Document.Writing
import TriggerScript.Proofs.Lowering.Operations
import TriggerScript.Proofs.Lowering.Pools

/-!
# Plans

What the lowering of a tree makes, said without its state: a plan lists the elements of the tree in
the order of their places, and among them the jobs that have to be done on the way unless they have
been done before. The children of an element refer to other elements by what stands in their slots
alone, so each element of a plan is complete from the start.

The main definitions are `Value.plan` and those beside it, `Job.plan`, and `Makes`, which says what
following a plan yields.
-/

namespace TriggerScript

/-- A step of a plan. -/
inductive PlanStep where
  /-- An element is made. -/
  | part (part : Part)
  /-- A job is done unless it has been begun before. -/
  | job (job : Job)

/-- The references to what stands in a slot. -/
def slotNodes (tag : String) (type : ElementType) (slot : Option Allocation) : List Node :=
  slot.toList.map (.referring tag type)

lemma slotNodes_some (tag : String) (type : ElementType) (a : Allocation) :
    slotNodes tag type (some a) = [.referring tag type a] :=
  rfl

/-- The element of what has a slot. -/
def slotPart (type : ElementType) (slot : Option Allocation) (children : List Node) :
    List PlanStep :=
  slot.toList.map fun a => .part ⟨a.library, type, a.id, children⟩

/-! ## The children of elements -/

section Children

variable (p : Program) (scope : LexicalScope)

/-- The child for one dimension of a type. -/
def Dimension.nodes (index : Nat) : Dimension → List Node
  | .size n =>
    [{ tag := "ArraySize", attributes := [("Dim", Text.natText index), ("Value", Text.intText n)] }]
  | .variable name =>
    (scope.binding? p name).toList.map (Binding.size index)

/-- The children for the dimensions of a type from `index` on. -/
def dimensionsNodes (index : Nat) : List Dimension → List Node
  | [] => []
  | d :: rest => d.nodes p scope index ++ dimensionsNodes (index + 1) rest

/-- A type as a child of an element. -/
def TypeRef.node (tag : String) (ty : TypeRef) : Node :=
  { tag,
    children := { tag := "Type", attributes := [("Value", ty.name)] } ::
      dimensionsNodes p scope 0 ty.dims }

/-- The references to what a name is bound to. -/
def nameNodes (name : String) : List Node :=
  (scope.binding? p name).toList.map Binding.node

/-- The children of a value. -/
def ValueKind.nodes : ValueKind → List Node
  | .literal l => l.nodes
  | .presetMember preset member =>
    slotNodes "Preset" .presetValue ((p.preset? preset).bind (·.member? member))
  | .variable name => nameNodes p scope name
  | .arrayElement name indices =>
    nameNodes p scope name ++ indices.flatMap fun v => slotNodes "Array" .param v.allocation
  | .call c => slotNodes "FunctionCall" .functionCall c.allocation
  | .block _ => []

end Children

/-- The references to local variables. -/
def localsNodes (locals : List VariableDef) : List Node :=
  locals.flatMap fun d => slotNodes "Variable" .variable d.allocation

/-- The references to statements, which are tagged with `tag`. -/
def statementsNodes (tag : String) (statements : List Call) : List Node :=
  statements.flatMap fun c => slotNodes tag .functionCall c.allocation

/-- The references to the locals and statements of a block. -/
def Block.nodes (tag : String) (b : Block) : List Node :=
  localsNodes b.locals ++ statementsNodes tag b.statements

/-- The references to what is handed to one parameter. -/
def actualNodes (v : Value) : List Node :=
  match v.kind with
  | .block b => b.nodes "FunctionCall"
  | _ => slotNodes "Parameter" .param v.allocation

/-- The references to what is handed to parameters. -/
def actualsNodes : List Value → List Formal → List Node
  | [], _ => []
  | _ :: _, [] => []
  | v :: args, _ :: formals => actualNodes v ++ actualsNodes args formals

/-- The references to the default values of imported parameters. -/
def defaultsNodes (formals : List Formal) : List Node :=
  formals.flatMap fun formal =>
    formal.externalDefault.toList.flatMap fun v => slotNodes "Default" .param v.allocation

/-- The jobs of the default values of imported parameters. -/
def defaultsPlan (formals : List Formal) : List PlanStep :=
  formals.flatMap fun formal =>
    formal.externalDefault.toList.map fun v => .job (.default formal v)

/-! ## The plans of values, calls, blocks and variables -/

mutual

/-- The plan of a value that is handed to the parameter `formal`, if to any. -/
def Value.plan (p : Program) (scope : LexicalScope) (formal : Option Allocation) :
    Value → List PlanStep
  | ⟨kind, allocation⟩ =>
    slotPart .param allocation (slotNodes "ParameterDef" .paramDef formal ++ kind.nodes p scope) ++
      kind.plan p scope

/-- The plan of what is in a value. -/
def ValueKind.plan (p : Program) (scope : LexicalScope) : ValueKind → List PlanStep
  | .literal _ => []
  | .presetMember _ _ => []
  | .variable _ => []
  | .arrayElement _ indices => valuesPlan p scope indices
  | .call c => c.plan p scope none
  | .block _ => []

/-- The plan of a call; `formal` is the parameter that the block around it is handed to, if there is
one. -/
def Call.plan (p : Program) (scope : LexicalScope) (formal : Option Allocation) :
    Call → List PlanStep
  | ⟨callee, args, allocation⟩ =>
    match p.callable? callee with
    | none => []
    | some f =>
      slotPart .functionCall allocation
          (slotNodes "FunctionDef" .functionDef f.allocation ++
            slotNodes "SubFunctionType" .paramDef formal ++ actualsNodes args f.formals ++
            defaultsNodes (f.formals.drop args.length)) ++
        actualsPlan p scope args f.formals ++ defaultsPlan (f.formals.drop args.length)

/-- The plan of what is handed to parameters. -/
def actualsPlan (p : Program) (scope : LexicalScope) : List Value → List Formal → List PlanStep
  | [], _ => []
  | _ :: _, [] => []
  | ⟨.block b, _⟩ :: args, formal :: formals =>
    b.plan p scope.openBlock formal.allocation ++ actualsPlan p scope args formals
  | v :: args, formal :: formals =>
    v.plan p scope formal.allocation ++ actualsPlan p scope args formals

/-- The plan of a block that is handed to the parameter `formal`, if to any. -/
def Block.plan (p : Program) (scope : LexicalScope) (formal : Option Allocation) :
    Block → List PlanStep
  | ⟨locals, statements⟩ =>
    localsPlan p scope locals ++ callsPlan p (scope.declare locals) formal statements

/-- The plan of a variable. -/
def VariableDef.plan (p : Program) (scope : LexicalScope) : VariableDef → List PlanStep
  | ⟨attributes, ty, _, v, allocation⟩ =>
    slotPart .variable allocation
        (Attribute.flag attributes "const" "FlagConstant" ++ Attribute.comment attributes ++
          ty.node p scope "VariableType" :: slotNodes "Value" .param v.allocation) ++
      v.plan p scope none

/-- The plan of values. -/
def valuesPlan (p : Program) (scope : LexicalScope) : List Value → List PlanStep
  | [] => []
  | v :: rest => v.plan p scope none ++ valuesPlan p scope rest

/-- The plan of statements. -/
def callsPlan (p : Program) (scope : LexicalScope) (formal : Option Allocation) :
    List Call → List PlanStep
  | [] => []
  | c :: rest => c.plan p scope formal ++ callsPlan p scope formal rest

/-- The plan of local variables, each with those in front of it declared. -/
def localsPlan (p : Program) (scope : LexicalScope) : List VariableDef → List PlanStep
  | [] => []
  | d :: rest => d.plan p scope ++ localsPlan p (scope.declare [d]) rest

end

/-! ## The plans of jobs -/

/-- The scope behind the declarations of parameters. -/
def LexicalScope.declareParams (scope : LexicalScope) : List ParamDef → LexicalScope
  | [] => scope
  | d :: rest => (d.allocation.elim scope (scope.addParameter d.name)).declareParams rest

/-- The plan of a parameter. -/
def ParamDef.plan (p : Program) (scope : LexicalScope) (d : ParamDef) : List PlanStep :=
  slotPart .paramDef d.allocation
      (Attribute.comment d.attributes ++ d.ty.node p scope "ParameterType" ::
        d.default.toList.flatMap fun v => slotNodes "Default" .param v.allocation) ++
    d.default.toList.flatMap (Value.plan p {} none)

/-- The plan of parameters, each with those in front of it declared. -/
def paramsPlan (p : Program) (scope : LexicalScope) : List ParamDef → List PlanStep
  | [] => []
  | d :: rest => d.plan p scope ++ paramsPlan p (scope.declareParams [d]) rest

/-- The child for the type that a function returns, if it returns something. -/
def FunctionDef.returnNodes (p : Program) (d : FunctionDef) : List Node :=
  if d.returns.isVoid then [] else [d.returns.node p {} "ReturnType"]

/-- The children of a function. -/
def FunctionDef.nodes (p : Program) (d : FunctionDef) : List Node :=
  d.kind.node :: Attribute.flag d.attributes "hidden" "FlagHidden" ++
    Attribute.flag d.attributes "native" "FlagNative" ++
    Attribute.comment d.attributes ++
    (d.returnNodes p ++ (d.params.flatMap fun q => slotNodes "Parameter" .paramDef q.allocation) ++
      d.body.nodes "FunctionCall")

/-- The children of a trigger. -/
def TriggerDef.nodes (d : TriggerDef) : List Node :=
  Attribute.flag d.attributes "disabled" "FlagDisabled" ++
    Attribute.flag d.attributes "initially_off" "FlagInitialOff" ++
    Attribute.comment d.attributes ++
    (slotNodes "Event" .functionCall d.event.allocation ++ d.body.nodes "Action")

/-- The type that the values of a preset have. -/
def PresetDef.base (d : PresetDef) : String :=
  (Attribute.valueOf? d.attributes "base").getD "int"

/-- The children of a preset. -/
def PresetDef.nodes (d : PresetDef) : List Node :=
  Attribute.comment d.attributes ++
    (if d.base = "int" then [{ tag := "PresetInteger" }] else []) ++
    [{ tag := "BaseType", attributes := [("Value", d.base)] }, { tag := "PresetGenConstVar" }] ++
    d.members.flatMap fun m => slotNodes "Item" .presetValue m.allocation

/-- The type of the element of a definition. -/
def Definition.type : Definition → ElementType
  | .preset _ => .preset
  | .variable _ => .variable
  | .function _ => .functionDef
  | .trigger _ => .trigger

/-- The elements of the members of a preset, which stand in the library of the preset. -/
def PresetDef.memberParts (d : PresetDef) : List Part :=
  d.allocation.toList.flatMap fun a =>
    d.members.flatMap fun m => m.allocation.toList.map fun b => ⟨a.library, .presetValue, b.id, []⟩

/-- The plan of a definition. -/
def Definition.plan (p : Program) : Definition → List PlanStep
  | .preset d => slotPart .preset d.allocation d.nodes ++ d.memberParts.map .part
  | .variable d => d.plan p {}
  | .function d =>
    slotPart .functionDef d.allocation (d.nodes p) ++ paramsPlan p {} d.params ++
      d.body.plan p (LexicalScope.declareParams {} d.params) none
  | .trigger d =>
    slotPart .trigger d.allocation d.nodes ++ d.event.plan p {} none ++ d.body.plan p {} none

namespace Job

/-- The plan of a job. -/
def plan (p : Program) : Job → List PlanStep
  | definition d => d.plan p
  | default formal v => v.plan p {} formal.allocation

/-- Whether a job is well-formed. -/
def WellFormed (p : Program) : Job → Prop
  | definition d => d.WellFormed p
  | default _ v => v.WellFormed p ∅ 0

end Job

/-! ## Following a plan -/

/-- Following the plan where `done` has been begun makes `parts`, one behind the other, and leaves
`done'` begun. A job that is begun is well-formed. -/
inductive Makes (p : Program) : List Allocation → List PlanStep → List Part → List Allocation → Prop
  | nil (done : List Allocation) : Makes p done [] [] done
  | part {done done' : List Allocation} {plan : List PlanStep} {parts : List Part} (part : Part)
      (hrest : Makes p done plan parts done') : Makes p done (.part part :: plan) (part :: parts) done'
  /-- A job that has been begun is passed over. -/
  | again {done done' : List Allocation} {plan : List PlanStep} {parts : List Part} {job : Job}
      {a : Allocation} (hjob : job.allocation = some a) (hdone : a ∈ done)
      (hrest : Makes p done plan parts done') : Makes p done (.job job :: plan) parts done'
  /-- Any other job is done first. -/
  | job {done done₁ done' : List Allocation} {plan : List PlanStep} {parts parts' : List Part}
      {job : Job} {a : Allocation} (hjob : job.allocation = some a) (hdone : a ∉ done)
      (hwf : job.WellFormed p) (hplan : Makes p (a :: done) (job.plan p) parts done₁)
      (hrest : Makes p done₁ plan parts' done') :
      Makes p done (.job job :: plan) (parts ++ parts') done'

namespace Makes

variable {p : Program} {done done₁ done' : List Allocation} {plan plan' : List PlanStep}
  {parts parts' : List Part}

lemma append (h : Makes p done plan parts done₁) (h' : Makes p done₁ plan' parts' done') :
    Makes p done (plan ++ plan') (parts ++ parts') done' := by
  induction h with
  | nil => exact h'
  | part part _ ih => exact .part part (ih h')
  | again hjob hdone _ ih => exact .again hjob hdone (ih h')
  | job hjob hdone hwf hplan _ _ ih =>
    rw [List.cons_append, List.append_assoc]
    exact .job hjob hdone hwf hplan (ih h')

/-- What has been begun stays begun. -/
lemma subset (h : Makes p done plan parts done') : done ⊆ done' := by
  induction h with
  | nil => exact fun _ ha => ha
  | part _ _ ih => exact ih
  | again _ _ _ ih => exact ih
  | job _ _ _ _ _ ih ih' => exact fun a ha => ih' (ih (List.mem_cons_of_mem _ ha))

/-- There is one way to follow a plan. -/
lemma unique {done₂ : List Allocation} (h : Makes p done plan parts done₁)
    (h' : Makes p done plan parts' done₂) : parts = parts' ∧ done₁ = done₂ := by
  induction h generalizing parts' done₂ with
  | nil =>
    cases h' with
    | nil => exact ⟨rfl, rfl⟩
  | part part _ ih =>
    cases h' with
    | part _ h' =>
      obtain ⟨rfl, rfl⟩ := ih h'
      exact ⟨rfl, rfl⟩
  | again hjob hdone _ ih =>
    cases h' with
    | again _ _ h' => exact ih h'
    | job hjob' hdone' =>
      obtain rfl := Option.some.inj (hjob.symm.trans hjob')
      exact (hdone' hdone).elim
  | job hjob hdone _ _ _ ih ih' =>
    cases h' with
    | again hjob' hdone' =>
      obtain rfl := Option.some.inj (hjob.symm.trans hjob')
      exact (hdone hdone').elim
    | job hjob' _ _ hplan hrest =>
      obtain rfl := Option.some.inj (hjob.symm.trans hjob')
      obtain ⟨rfl, rfl⟩ := ih hplan
      obtain ⟨rfl, rfl⟩ := ih' hrest
      exact ⟨rfl, rfl⟩

end Makes

/-- A computation that leads from one state to the other has followed the plan. -/
def Runs (p : Program) (plan : List PlanStep) (s s' : LowerState) : Prop :=
  ∃ parts, Makes p s.done plan parts s'.done ∧ s'.pools = s.pools.extend parts

namespace Runs

variable {p : Program} {plan plan' : List PlanStep} {s s₁ s' : LowerState}

lemma nil (p : Program) (s : LowerState) : Runs p [] s s :=
  ⟨[], .nil _, rfl⟩

lemma append (h : Runs p plan s s₁) (h' : Runs p plan' s₁ s') : Runs p (plan ++ plan') s s' := by
  obtain ⟨parts, hmakes, hpools⟩ := h
  obtain ⟨parts', hmakes', hpools'⟩ := h'
  exact ⟨parts ++ parts', hmakes.append hmakes', by rw [hpools', hpools, Pools.extend_append]⟩

lemma subset (h : Runs p plan s s') : s.done ⊆ s'.done := by
  obtain ⟨parts, hmakes, -⟩ := h
  exact hmakes.subset

/-- The scope of a state does not matter for what has been made. -/
lemma scope (h : Runs p plan s s') (scope scope' : LexicalScope) :
    Runs p plan { s with scope } { s' with scope := scope' } :=
  h

/-- The place that was reserved before a plan was followed is still open behind it. -/
lemma isOpen_reserve {library : String}
    (h : Runs p plan { s with pools := s.pools.reserve library } s') :
    s'.pools.isOpen library (s.pools.nextPlace library) := by
  obtain ⟨parts, -, hpools⟩ := h
  rw [hpools]
  exact Pools.isOpen_extend_reserve parts

/-- To reserve a place, to follow a plan and to fill the place is to make the element first and then
to follow the plan. -/
lemma fill_reserve {type : ElementType} {a : Allocation} {children : List Node}
    (h : Runs p plan { s with pools := s.pools.reserve a.library } s') :
    Runs p (slotPart type (some a) children ++ plan) s
      { s' with pools := s'.pools.fill a.library (s.pools.nextPlace a.library)
                  (.element type a.id children) } := by
  obtain ⟨parts, hmakes, hpools⟩ := h
  refine ⟨⟨a.library, type, a.id, children⟩ :: parts, .part _ hmakes, ?_⟩
  simp only [hpools]
  exact Pools.fill_extend_reserve _ _

/-- Elements are made one behind the other. -/
lemma parts {parts : List Part} (h : s'.pools = s.pools.extend parts) (hdone : s'.done = s.done) :
    Runs p (parts.map .part) s s' := by
  refine ⟨parts, ?_, h⟩
  rw [hdone]
  clear h
  induction parts with
  | nil => exact .nil _
  | cons part rest ih => exact .part part ih

/-- A job that has been begun is not done again. -/
lemma job_again {job : Job} {a : Allocation} (hjob : job.allocation = some a) (hdone : a ∈ s.done) :
    Runs p [.job job] s s :=
  ⟨[], .again hjob hdone (.nil _), rfl⟩

/-- Any other job is marked as begun, and then its plan is followed. -/
lemma job {job : Job} {a : Allocation} (hjob : job.allocation = some a) (hdone : a ∉ s.done)
    (hwf : job.WellFormed p) (h : Runs p (job.plan p) { s with done := a :: s.done } s') :
    Runs p [.job job] s s' := by
  obtain ⟨parts, hmakes, hpools⟩ := h
  refine ⟨parts ++ [], .job hjob hdone hwf hmakes (.nil _), ?_⟩
  rw [List.append_nil]
  exact hpools

end Runs

end TriggerScript
