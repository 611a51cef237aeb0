import TriggerScript.Proofs.Document.Contents

/-!
# The nodes inside elements

The children of elements come from a small stock of nodes: references to other elements, and nodes that
refer to nothing, such as flags, comments, types and the texts of literals. It is shown along the tree
of a definition that each node in its plan is of this stock and that each reference has a target. Names
can only lead to what the definition has declared before or to what the program declares.

The main definition is `Node.Inner`, and the main results are `Job.plan_resolves`, `wholePlan_resolves`
and, whatever the slots of a program hold, `Document.Composition.forall_nodes`.
-/

namespace TriggerScript

namespace Node

/-- The tags of references. -/
def referenceTags : List String :=
  ["Action", "Array", "Default", "Event", "FunctionCall", "FunctionDef", "Item", "Parameter",
    "ParameterDef", "Preset", "SubFunctionType", "Value", "Variable"]

/-- The tags of nodes that refer to nothing. -/
def plainTags : List String :=
  ["ArraySize", "BaseType", "Comment", "FlagAction", "FlagCall", "FlagConstant", "FlagDisabled",
    "FlagHidden", "FlagInitialOff", "FlagNative", "ParameterType", "PresetGenConstVar",
    "PresetInteger", "ReturnType", "Type", "Value", "ValueType", "VariableType"]

/-- What the keys of a node can be that refers to nothing. -/
def plainKeys : List (List String) :=
  [[], ["Type"], ["Value"], ["Dim", "Value"]]

/-- A node that stands in an element or in a root. `Target` says what there is to refer to. -/
inductive Inner (Target : ElementType → Allocation → Prop) : Node → Prop
  | reference {tag : String} {type : ElementType} {a : Allocation} (htag : tag ∈ referenceTags)
      (h : Target type a) : Inner Target (referring tag type a)
  /-- A dimension of an array whose size is the value of a variable. -/
  | dimension (index : Nat) {type : ElementType} {a : Allocation} (h : Target type a) :
      Inner Target
        { tag := "ArraySizeVariable",
          attributes := ("Dim", Text.natText index) :: a.written type }
  /-- A node that refers to nothing. -/
  | plain {tag : String} {attributes : List (String × String)} {children : List Node}
      {text : Option String} (htag : tag ∈ plainTags) (hkeys : attributes.map Prod.fst ∈ plainKeys) :
      Inner Target ⟨tag, attributes, children, text⟩

variable {Target : ElementType → Allocation → Prop}

lemma lookup_library_written (a : Allocation) (type : ElementType) :
    (a.written type).lookup "Library" =
      if a.library = defaultLibrary then none else some a.library := by
  rw [Allocation.written, defaultLibrary]
  split_ifs <;> rfl

/-- An inner node with an id refers to a target, and it names its library unless that is the default
one. -/
lemma Inner.exists_target {n : Node} (h : n.Inner Target) {id : String}
    (hid : n.attribute? "Id" = some id) :
    ∃ (t : ElementType) (a : Allocation), Target t a ∧ n.attribute? "Type" = some t.name ∧
      id = a.id.text ∧
      n.attribute? "Library" = if a.library = defaultLibrary then none else some a.library := by
  cases h with
  | @reference tag t a _ h =>
    exact ⟨t, a, h, rfl, (Option.some.inj hid).symm, lookup_library_written a t⟩
  | @dimension index t a h =>
    exact ⟨t, a, h, rfl, (Option.some.inj hid).symm, lookup_library_written a t⟩
  | @plain tag attributes children text _ hkeys =>
    have hmem : "Id" ∈ attributes.map Prod.fst := by
      rw [attribute?, List.lookup_eq_some_iff] at hid
      obtain ⟨l₁, l₂, rfl, -⟩ := hid
      simp
    have hplain : ∀ keys ∈ plainKeys, "Id" ∉ keys := by decide
    exact (hplain _ hkeys hmem).elim

lemma every_reference {tag : String} {type : ElementType} {a : Allocation}
    (htag : tag ∈ referenceTags) (h : Target type a) :
    (referring tag type a).Every (Inner Target) :=
  ⟨.reference htag h, by simp [referring]⟩

lemma every_plain {tag : String} {attributes : List (String × String)} {children : List Node}
    {text : Option String} (htag : tag ∈ plainTags) (hkeys : attributes.map Prod.fst ∈ plainKeys)
    (hchildren : ∀ child ∈ children, child.Every (Inner Target)) :
    (⟨tag, attributes, children, text⟩ : Node).Every (Inner Target) :=
  ⟨.plain htag hkeys, hchildren⟩

lemma every_leaf {tag : String} {attributes : List (String × String)} {text : Option String}
    (htag : tag ∈ plainTags) (hkeys : attributes.map Prod.fst ∈ plainKeys) :
    (⟨tag, attributes, [], text⟩ : Node).Every (Inner Target) :=
  every_plain htag hkeys nofun

end Node

section Nodes

variable {p : Program} {Target : ElementType → Allocation → Prop}

lemma every_slotNodes {tag : String} {type : ElementType} {slot : Option Allocation}
    (htag : tag ∈ Node.referenceTags) (h : ∀ a, slot = some a → Target type a) :
    ∀ n ∈ slotNodes tag type slot, n.Every (Node.Inner Target) := by
  intro n hn
  obtain ⟨a, ha, rfl⟩ := List.mem_map.1 hn
  exact Node.every_reference htag (h a (Option.mem_toList.1 ha))

lemma every_flag (attributes : List Attribute) (key : String) {tag : String}
    (htag : tag ∈ Node.plainTags) :
    ∀ n ∈ Attribute.flag attributes key tag, n.Every (Node.Inner Target) := by
  intro n hn
  rw [Attribute.flag] at hn
  split_ifs at hn
  · obtain rfl := List.mem_singleton.1 hn
    exact Node.every_leaf htag (by simp [Node.plainKeys])
  · simp at hn

lemma every_comment (attributes : List Attribute) :
    ∀ n ∈ Attribute.comment attributes, n.Every (Node.Inner Target) := by
  intro n hn
  obtain ⟨text, -, rfl⟩ := List.mem_map.1 hn
  exact Node.every_leaf (by decide) (by simp [Node.plainKeys])

lemma every_literal (l : Literal) : ∀ n ∈ l.nodes, n.Every (Node.Inner Target) := by
  intro n hn
  rcases List.mem_append.1 hn with hn | hn
  · obtain ⟨text, -, rfl⟩ := List.mem_map.1 hn
    exact Node.every_leaf (by decide) (by simp [Node.plainKeys])
  · obtain rfl := List.mem_singleton.1 hn
    exact Node.every_leaf (by decide) (by simp [Node.plainKeys])

/-! ## What names lead to -/

/-- Nodes of these slots are targets. -/
def SlotsResolve (Target : ElementType → Allocation → Prop) (slots : List Slot) : Prop :=
  ∀ type a, ⟨some type, some a⟩ ∈ slots → Target type a

/-- The slots of what an imported entity binds to ids. -/
def ExternalDefinition.slots : ExternalDefinition → List Slot
  | .preset d => d.members.map fun m => ⟨some .presetValue, m.allocation⟩
  | .function d =>
    ⟨some .functionDef, d.allocation⟩ :: d.params.map fun q => ⟨some .paramDef, q.allocation⟩
  | .variable d => [⟨some .variable, d.allocation⟩]

/-- The slots of what a program imports. -/
def Program.importedSlots (p : Program) : List Slot :=
  p.imports.flatMap fun s => s.definitions.flatMap ExternalDefinition.slots

/-- What a program declares is a target. -/
structure Program.Declares (p : Program) (Target : ElementType → Allocation → Prop) : Prop where
  imports : ∀ s ∈ p.imports, ∀ x ∈ s.definitions, SlotsResolve Target x.slots
  definitions : ∀ s ∈ p.libraries, ∀ d ∈ s.definitions, SlotsResolve Target d.slots

/-- What the names of a program lead to has targets. -/
structure Program.Resolves (p : Program) (Target : ElementType → Allocation → Prop) : Prop where
  callable : ∀ {name : String} {f : Callable} {a : Allocation}, p.callable? name = some f →
    f.allocation = some a → Target .functionDef a
  formal : ∀ {name : String} {f : Callable} {formal : Formal} {a : Allocation},
    p.callable? name = some f → formal ∈ f.formals → formal.allocation = some a → Target .paramDef a
  global : ∀ {name : String} {g : Global} {a : Allocation}, p.global? name = some g →
    g.allocation = some a → Target .variable a
  member : ∀ {name member : String} {q : Preset} {a : Allocation}, p.preset? name = some q →
    q.member? member = some a → Target .presetValue a

/-- The first slot of a definition is its own. -/
lemma Definition.mem_slots (d : Definition) : ⟨some d.type, d.allocation⟩ ∈ d.slots := by
  rcases d with d | d | d | d
  · exact List.mem_cons_self
  · obtain ⟨attributes, ty, name, v, allocation⟩ := d
    rw [Definition.slots, VariableDef.slots]
    exact List.mem_cons_self
  · exact List.mem_cons_self
  · exact List.mem_cons_self

namespace Program.Declares

lemma resolves (h : p.Declares Target) : p.Resolves Target where
  callable {name f a} hf ha := by
    rcases Program.callable?_cases hf with ⟨s, hs, d, hd, rfl⟩ | ⟨s, hs, d, hd, rfl⟩
    · exact h.imports s hs _ hd .functionDef a (ha ▸ List.mem_cons_self)
    · exact h.definitions s hs _ hd .functionDef a (ha ▸ Definition.mem_slots (.function d))
  formal {name f formal a} hf hformal ha := by
    rcases Program.callable?_cases hf with ⟨s, hs, d, hd, rfl⟩ | ⟨s, hs, d, hd, rfl⟩
    · obtain ⟨q, hq, rfl⟩ := List.mem_map.1 hformal
      refine h.imports s hs _ hd .paramDef a (List.mem_cons_of_mem _ ?_)
      exact List.mem_map.2 ⟨q, hq, congrArg (Slot.mk _) ha⟩
    · obtain ⟨q, hq, rfl⟩ := List.mem_map.1 hformal
      refine h.definitions s hs _ hd .paramDef a ?_
      exact List.mem_cons_of_mem _ (List.mem_append_left _
        (List.mem_flatMap.2 ⟨q, hq, ha ▸ List.mem_cons_self⟩))
  global {name g a} hg ha := by
    rcases Program.global?_cases hg with ⟨s, hs, d, hd, rfl⟩ | ⟨s, hs, d, hd, rfl⟩
    · exact h.imports s hs _ hd .variable a (ha ▸ List.mem_cons_self)
    · exact h.definitions s hs _ hd .variable a (ha ▸ Definition.mem_slots (.variable d))
  member {name member q a} hq ha := by
    rcases Program.preset?_cases hq with ⟨s, hs, d, hd, rfl⟩ | ⟨s, hs, d, hd, rfl⟩
    · obtain ⟨m, hm, ha⟩ := Option.bind_eq_some_iff.1 ha
      refine h.imports s hs _ hd .presetValue a ?_
      exact List.mem_map.2 ⟨m, List.mem_of_find?_eq_some hm, congrArg (Slot.mk _) ha⟩
    · obtain ⟨m, hm, ha⟩ := Option.bind_eq_some_iff.1 ha
      refine h.definitions s hs _ hd .presetValue a ?_
      exact List.mem_cons_of_mem _ (List.mem_map.2
        ⟨m, List.mem_of_find?_eq_some hm, by rw [PresetMember.slot, ha]⟩)

/-- The reference to a definition in the root of its library. -/
lemma every_definition (h : p.Declares Target) {s : LibraryScope} (hs : s ∈ p.libraries)
    {d : Definition} (hd : d ∈ s.definitions) :
    ∀ n ∈ slotNodes "Item" d.type d.allocation, n.Every (Node.Inner Target) :=
  every_slotNodes (by decide) fun a ha => h.definitions s hs d hd _ a (ha ▸ d.mem_slots)

/-- The reference to what is listed. -/
lemma every_entry (h : p.Declares Target) :
    ∀ e ∈ p.entries, ∀ n ∈ e.nodes, n.Every (Node.Inner Target) := by
  intro e he
  rcases Program.mem_entries.1 he with ⟨s, hs, x, hx, rfl⟩ | ⟨s, hs, d, hd, rfl⟩
  · rcases x with x | x | x
    · simp [Entry.ofExternal, Entry.nodes]
    · exact every_slotNodes (by decide) fun a ha =>
        h.imports s hs _ hx .functionDef a (ha ▸ List.mem_cons_self)
    · exact every_slotNodes (by decide) fun a ha =>
        h.imports s hs _ hx .variable a (ha ▸ List.mem_cons_self)
  · have hnodes : (Entry.ofDefinition d).nodes = slotNodes "Item" d.type d.allocation := by
      cases d <;> rfl
    rw [hnodes]
    exact h.every_definition hs hd

end Program.Declares

/-- What the names in a scope lead to has targets. -/
def LexicalScope.Resolves (Target : ElementType → Allocation → Prop) (scope : LexicalScope) : Prop :=
  ∀ name b, scope.local? name = some b → Target b.type b.allocation

namespace LexicalScope

variable {scope : LexicalScope}

lemma resolves_empty : Resolves Target {} := by
  intro name b hb
  simp [local?] at hb

lemma Resolves.openBlock (h : scope.Resolves Target) : scope.openBlock.Resolves Target :=
  h

lemma Resolves.addLocal (h : scope.Resolves Target) {name : String} {a : Allocation}
    (ha : Target .variable a) : (scope.addLocal name a).Resolves Target := by
  intro other b hb
  rcases local?_addLocal_cases hb with rfl | hb
  · exact ha
  · exact h other b hb

lemma Resolves.addParameter (h : scope.Resolves Target) {name : String} {a : Allocation}
    (ha : Target .paramDef a) : (scope.addParameter name a).Resolves Target := by
  intro other b hb
  rcases local?_addParameter_cases hb with rfl | hb
  · exact ha
  · exact h other b hb

lemma Resolves.binding (h : scope.Resolves Target) (hp : p.Resolves Target) {name : String}
    {b : Binding} (hb : scope.binding? p name = some b) : Target b.type b.allocation := by
  rw [binding?] at hb
  rcases hlocal : scope.local? name with _ | b'
  · rcases hglobal : p.global? name with _ | g
    · simp [hlocal, hglobal] at hb
    · rcases ha : g.allocation with _ | a
      · simp [hlocal, hglobal, ha] at hb
      · obtain rfl : .variable a = b := by simpa [hlocal, hglobal, ha] using hb
        exact hp.global hglobal ha
  · obtain rfl : b' = b := by simpa [hlocal] using hb
    exact h name b' hlocal

end LexicalScope

/-- The default values that calls leave out are targets. -/
def CallsResolve (p : Program) (Target : ElementType → Allocation → Prop) (calls : List Call) :
    Prop :=
  ∀ c ∈ calls, ∀ formal v a, c.Omits p formal v → v.allocation = some a → Target .param a

/-- The elements of a plan hold inner nodes, whose references have targets. -/
def PlanResolves (Target : ElementType → Allocation → Prop) (plan : List PlanStep) : Prop :=
  ∀ part, .part part ∈ plan → ∀ n ∈ part.children, n.Every (Node.Inner Target)

section Parts

variable {slots slots' : List Slot} {calls calls' : List Call}

lemma SlotsResolve.mono (h : SlotsResolve Target slots) (hsubset : slots' ⊆ slots) :
    SlotsResolve Target slots' :=
  fun type a hslot => h type a (hsubset hslot)

lemma SlotsResolve.left (h : SlotsResolve Target (slots ++ slots')) : SlotsResolve Target slots :=
  h.mono (List.subset_append_left _ _)

lemma SlotsResolve.right (h : SlotsResolve Target (slots ++ slots')) : SlotsResolve Target slots' :=
  h.mono (List.subset_append_right _ _)

lemma SlotsResolve.tail {slot : Slot} (h : SlotsResolve Target (slot :: slots)) :
    SlotsResolve Target slots :=
  h.mono (List.subset_cons_self _ _)

lemma CallsResolve.left (h : CallsResolve p Target (calls ++ calls')) : CallsResolve p Target calls :=
  fun c hc => h c (List.mem_append_left _ hc)

lemma CallsResolve.right (h : CallsResolve p Target (calls ++ calls')) : CallsResolve p Target calls' :=
  fun c hc => h c (List.mem_append_right _ hc)

end Parts

namespace PlanResolves

variable {plan plan' : List PlanStep}

lemma nil : PlanResolves Target [] :=
  nofun

lemma append (h : PlanResolves Target plan) (h' : PlanResolves Target plan') :
    PlanResolves Target (plan ++ plan') := by
  intro part hpart
  rcases List.mem_append.1 hpart with hpart | hpart
  · exact h part hpart
  · exact h' part hpart

lemma slotPart {type : ElementType} {slot : Option Allocation} {children : List Node}
    (h : ∀ n ∈ children, n.Every (Node.Inner Target)) :
    PlanResolves Target (slotPart type slot children) := by
  intro part hpart
  obtain ⟨a, -, hstep⟩ := List.mem_map.1 hpart
  obtain ⟨⟩ := hstep
  exact h

lemma defaultsPlan {formals : List Formal} : PlanResolves Target (defaultsPlan formals) := by
  intro part hpart
  simp [TriggerScript.defaultsPlan] at hpart

end PlanResolves

lemma every_typeNode (hp : p.Resolves Target) {scope : LexicalScope} (hscope : scope.Resolves Target)
    {tag : String} (htag : tag ∈ Node.plainTags) (ty : TypeRef) :
    (ty.node p scope tag).Every (Node.Inner Target) := by
  have hdims : ∀ (dims : List Dimension) (index : Nat), ∀ n ∈ dimensionsNodes p scope index dims,
      n.Every (Node.Inner Target) := by
    intro dims
    induction dims with
    | nil => exact fun _ => nofun
    | cons d rest ih =>
      intro index n hn
      rcases List.mem_append.1 hn with hn | hn
      · rcases d with size | name
        · obtain rfl := List.mem_singleton.1 hn
          exact Node.every_leaf (by decide) (by simp [Node.plainKeys])
        · obtain ⟨b, hb, rfl⟩ := List.mem_map.1 hn
          have htarget := hscope.binding hp (Option.mem_toList.1 hb)
          cases b <;> exact ⟨.dimension index htarget, by simp [Binding.size]⟩
      · exact ih _ n hn
  refine Node.every_plain htag (by simp [Node.plainKeys]) ?_
  rw [List.forall_mem_cons]
  exact ⟨Node.every_leaf (by decide) (by simp [Node.plainKeys]), hdims ty.dims 0⟩

lemma every_nameNodes (hp : p.Resolves Target) {scope : LexicalScope}
    (hscope : scope.Resolves Target) (name : String) :
    ∀ n ∈ nameNodes p scope name, n.Every (Node.Inner Target) := by
  intro n hn
  obtain ⟨b, hb, rfl⟩ := List.mem_map.1 hn
  have htarget := hscope.binding hp (Option.mem_toList.1 hb)
  cases b <;> exact Node.every_reference (by decide) htarget

/-! ## Values, calls, blocks and variables -/

lemma Value.target_of_slots {names : Set String} {depth : Nat} {v : Value}
    (hwf : v.WellFormed p names depth) (hslots : SlotsResolve Target v.slots) {a : Allocation}
    (ha : v.allocation = some a) : Target .param a := by
  obtain ⟨kind, allocation⟩ := v
  rw [Value.WellFormed] at hwf
  rw [Value.slots, (ValueKind.covers {} kind hwf.2).1] at hslots
  exact hslots .param a (ha ▸ List.mem_cons_self)

lemma every_defaultsNodes {c : Call} {f : Callable} (hf : p.callable? c.callee = some f)
    {calls : List Call} (hcalls : CallsResolve p Target (c :: calls)) :
    ∀ n ∈ defaultsNodes (f.formals.drop c.args.length), n.Every (Node.Inner Target) := by
  intro n hn
  obtain ⟨formal, hformal, hn⟩ := List.mem_flatMap.1 hn
  obtain ⟨v, hv, hn⟩ := List.mem_flatMap.1 hn
  have homits : c.Omits p formal v := ⟨f, hf, hformal, Option.mem_toList.1 hv⟩
  exact every_slotNodes (by decide) (fun a ha => hcalls c List.mem_cons_self formal v a homits ha) n hn

lemma actuals_resolve_value {names : Set String} {depth : Nat} {scope : LexicalScope} {v : Value}
    {args : List Value} {formal : Formal} {formals : List Formal}
    (hv : ∀ b allocation, v = ⟨.block b, allocation⟩ → False)
    (hvalue : v.WellFormed p names depth → SlotsResolve Target v.slots →
      CallsResolve p Target v.calls → PlanResolves Target (v.plan p scope formal.allocation))
    (hargs : actualsWellFormed p names depth args formals → SlotsResolve Target (valuesSlots args) →
      CallsResolve p Target (valuesCalls args) →
      (∀ n ∈ actualsNodes args formals, n.Every (Node.Inner Target)) ∧
        PlanResolves Target (actualsPlan p scope args formals))
    (hwf : actualsWellFormed p names depth (v :: args) (formal :: formals))
    (hslots : SlotsResolve Target (valuesSlots (v :: args)))
    (hcalls : CallsResolve p Target (valuesCalls (v :: args))) :
    (∀ n ∈ actualsNodes (v :: args) (formal :: formals), n.Every (Node.Inner Target)) ∧
      PlanResolves Target (actualsPlan p scope (v :: args) (formal :: formals)) := by
  rw [actualsWellFormed.eq_4 _ _ _ _ _ _ _ hv] at hwf
  rw [valuesSlots] at hslots
  rw [valuesCalls] at hcalls
  obtain ⟨hnodes, hplan⟩ := hargs hwf.2 hslots.right hcalls.right
  rw [actualsNodes, Lower.actualNodes_of_not_block hv, List.forall_mem_append,
    actualsPlan.eq_4 _ _ _ _ _ _ hv]
  exact ⟨⟨every_slotNodes (by decide) fun a ha => Value.target_of_slots hwf.1.2 hslots.left ha, hnodes⟩,
    (hvalue hwf.1.2 hslots.left hcalls.left).append hplan⟩

mutual

lemma Value.plan_resolves (hp : p.Resolves Target) {names : Set String} {depth : Nat}
    {scope : LexicalScope} (hscope : scope.Resolves Target) (formal : Option Allocation)
    (hformal : ∀ q, formal = some q → Target .paramDef q) : ∀ v : Value,
      v.WellFormed p names depth → SlotsResolve Target v.slots → CallsResolve p Target v.calls →
      PlanResolves Target (v.plan p scope formal)
  | ⟨kind, allocation⟩, hwf, hslots, hcalls => by
    rw [Value.WellFormed] at hwf
    rw [Value.slots] at hslots
    rw [Value.calls] at hcalls
    obtain ⟨hnodes, hplan⟩ := ValueKind.plan_resolves hp hscope kind hwf.2 hslots.tail hcalls
    rw [Value.plan]
    refine (PlanResolves.slotPart ?_).append hplan
    exact List.forall_mem_append.2 ⟨every_slotNodes (by decide) hformal, hnodes⟩

lemma ValueKind.plan_resolves (hp : p.Resolves Target) {names : Set String} {depth : Nat}
    {scope : LexicalScope} (hscope : scope.Resolves Target) : ∀ kind : ValueKind,
      kind.WellFormed p names depth → SlotsResolve Target kind.slots →
      CallsResolve p Target kind.calls →
      (∀ n ∈ kind.nodes p scope, n.Every (Node.Inner Target)) ∧
        PlanResolves Target (kind.plan p scope)
  | .literal l, _, _, _ => by
    rw [ValueKind.plan]
    exact ⟨every_literal l, .nil⟩
  | .presetMember preset member, _, _, _ => by
    rw [ValueKind.plan]
    refine ⟨every_slotNodes (by decide) fun a ha => ?_, .nil⟩
    obtain ⟨q, hq, hmember⟩ := Option.bind_eq_some_iff.1 ha
    exact hp.member hq hmember
  | .variable name, _, _, _ => by
    rw [ValueKind.plan]
    exact ⟨every_nameNodes hp hscope name, .nil⟩
  | .arrayElement name indices, hwf, hslots, hcalls => by
    rw [ValueKind.WellFormed] at hwf
    rw [ValueKind.slots] at hslots
    rw [ValueKind.calls] at hcalls
    rw [ValueKind.plan, ValueKind.nodes, List.forall_mem_append]
    obtain ⟨hnodes, hplan⟩ :=
      values_plan_resolves hp hscope "Array" (by decide) indices hwf.2 hslots hcalls
    exact ⟨⟨every_nameNodes hp hscope name, hnodes⟩, hplan⟩
  | .call c, hwf, hslots, hcalls => by
    rw [ValueKind.WellFormed] at hwf
    rw [ValueKind.slots] at hslots
    rw [ValueKind.calls] at hcalls
    rw [ValueKind.plan]
    exact Call.plan_resolves hp hscope none nofun "FunctionCall" (by decide) c hwf hslots hcalls
  | .block _, hwf, _, _ => by
    rw [ValueKind.WellFormed] at hwf
    exact hwf.elim

lemma values_plan_resolves (hp : p.Resolves Target) {names : Set String} {depth : Nat}
    {scope : LexicalScope} (hscope : scope.Resolves Target) (tag : String)
    (htag : tag ∈ Node.referenceTags) : ∀ vs : List Value,
      valuesWellFormed p names depth vs → SlotsResolve Target (valuesSlots vs) →
      CallsResolve p Target (valuesCalls vs) →
      (∀ n ∈ vs.flatMap fun v => slotNodes tag .param v.allocation,
          n.Every (Node.Inner Target)) ∧ PlanResolves Target (valuesPlan p scope vs)
  | [], _, _, _ => by
    rw [valuesPlan]
    exact ⟨by simp, .nil⟩
  | v :: rest, hwf, hslots, hcalls => by
    rw [valuesWellFormed] at hwf
    rw [valuesSlots] at hslots
    rw [valuesCalls] at hcalls
    have hvalue := Value.plan_resolves hp hscope none nofun v hwf.1 hslots.left hcalls.left
    obtain ⟨hnodes, hplan⟩ := values_plan_resolves hp hscope tag htag rest hwf.2
      hslots.right hcalls.right
    rw [valuesPlan, List.flatMap_cons, List.forall_mem_append]
    exact ⟨⟨every_slotNodes htag fun a ha => Value.target_of_slots hwf.1 hslots.left ha, hnodes⟩,
      hvalue.append hplan⟩

lemma Call.plan_resolves (hp : p.Resolves Target) {names : Set String} {depth : Nat}
    {scope : LexicalScope} (hscope : scope.Resolves Target) (formal : Option Allocation)
    (hformal : ∀ q, formal = some q → Target .paramDef q) (tag : String)
    (htag : tag ∈ Node.referenceTags) : ∀ c : Call,
      c.WellFormed p names depth → SlotsResolve Target c.slots → CallsResolve p Target c.calls →
      (∀ n ∈ slotNodes tag .functionCall c.allocation, n.Every (Node.Inner Target)) ∧
        PlanResolves Target (c.plan p scope formal)
  | ⟨callee, args, allocation⟩, hwf, hslots, hcalls => by
    rw [Call.WellFormed] at hwf
    obtain ⟨-, f, hf, hlength, -, hargs⟩ := hwf
    rw [Call.slots] at hslots
    rw [Call.calls] at hcalls
    obtain ⟨hactuals, hplan⟩ := actuals_plan_resolves hp hscope args f.formals
      (fun formal hformal a ha => hp.formal hf hformal ha) hargs
      hslots.tail fun c hc => hcalls c (List.mem_cons_of_mem _ hc)
    rw [Call.plan, hf]
    refine ⟨every_slotNodes htag fun a ha => hslots _ a (ha ▸ List.mem_cons_self), ?_⟩
    refine ((PlanResolves.slotPart ?_).append hplan).append .defaultsPlan
    simp only [List.forall_mem_append]
    exact ⟨⟨⟨every_slotNodes (by decide) fun a ha => hp.callable hf ha,
      every_slotNodes (by decide) hformal⟩, hactuals⟩, every_defaultsNodes hf hcalls⟩

lemma actuals_plan_resolves (hp : p.Resolves Target) {names : Set String} {depth : Nat}
    {scope : LexicalScope} (hscope : scope.Resolves Target) :
    ∀ (args : List Value) (formals : List Formal),
      (∀ formal ∈ formals, ∀ a, formal.allocation = some a → Target .paramDef a) →
      actualsWellFormed p names depth args formals → SlotsResolve Target (valuesSlots args) →
      CallsResolve p Target (valuesCalls args) →
      (∀ n ∈ actualsNodes args formals, n.Every (Node.Inner Target)) ∧
        PlanResolves Target (actualsPlan p scope args formals)
  | [], _, _, _, _, _ => by
    rw [actualsNodes, actualsPlan]
    exact ⟨by simp, .nil⟩
  | _ :: _, [], _, _, _, _ => by
    rw [actualsNodes, actualsPlan]
    exact ⟨by simp, .nil⟩
  | ⟨kind, allocation⟩ :: args, formal :: formals, hformals, hwf, hslots, hcalls => by
    cases kind with
    | block b =>
      rw [actualsWellFormed] at hwf
      rw [valuesSlots, Value.slots, ValueKind.slots] at hslots
      rw [valuesCalls, Value.calls, ValueKind.calls] at hcalls
      rw [List.forall_mem_cons] at hformals
      obtain ⟨hblock, hplan⟩ := Block.plan_resolves hp hscope.openBlock _ hformals.1 "FunctionCall"
        (by decide) b hwf.1.2 hslots.left.tail hcalls.left
      obtain ⟨hnodes, hplan'⟩ := actuals_plan_resolves hp hscope args formals hformals.2 hwf.2
        hslots.right hcalls.right
      rw [actualsNodes, actualsPlan, List.forall_mem_append]
      exact ⟨⟨hblock, hnodes⟩, hplan.append hplan'⟩
    | _ =>
      rw [List.forall_mem_cons] at hformals
      exact actuals_resolve_value nofun (Value.plan_resolves hp hscope _ hformals.1 _)
        (actuals_plan_resolves hp hscope args formals hformals.2) hwf hslots hcalls

lemma Block.plan_resolves (hp : p.Resolves Target) {names : Set String} {depth : Nat}
    {scope : LexicalScope} (hscope : scope.Resolves Target) (formal : Option Allocation)
    (hformal : ∀ q, formal = some q → Target .paramDef q) (tag : String)
    (htag : tag ∈ Node.referenceTags) : ∀ b : Block,
      b.WellFormed p names depth → SlotsResolve Target b.slots → CallsResolve p Target b.calls →
      (∀ n ∈ b.nodes tag, n.Every (Node.Inner Target)) ∧
        PlanResolves Target (b.plan p scope formal)
  | ⟨locals, statements⟩, hwf, hslots, hcalls => by
    rw [Block.WellFormed] at hwf
    rw [Block.slots] at hslots
    rw [Block.calls] at hcalls
    obtain ⟨hnodes, hscope', hplan⟩ := locals_plan_resolves hp hscope locals hwf.1
      hslots.left hcalls.left
    obtain ⟨hnodes', hplan'⟩ := calls_plan_resolves hp hscope' formal hformal tag htag statements hwf.2
      hslots.right hcalls.right
    rw [Block.nodes, Block.plan, List.forall_mem_append]
    exact ⟨⟨hnodes, hnodes'⟩, hplan.append hplan'⟩

lemma locals_plan_resolves (hp : p.Resolves Target) {names : Set String} {depth : Nat}
    {scope : LexicalScope} (hscope : scope.Resolves Target) : ∀ ds : List VariableDef,
      localsWellFormed p names depth ds → SlotsResolve Target (variablesSlots ds) →
      CallsResolve p Target (variablesCalls ds) →
      (∀ n ∈ localsNodes ds, n.Every (Node.Inner Target)) ∧ (scope.declare ds).Resolves Target ∧
        PlanResolves Target (localsPlan p scope ds)
  | [], _, _, _ => by
    rw [localsPlan]
    exact ⟨by simp [localsNodes], hscope, .nil⟩
  | d :: rest, hwf, hslots, hcalls => by
    rw [localsWellFormed] at hwf
    rw [variablesSlots] at hslots
    rw [variablesCalls] at hcalls
    obtain ⟨htarget, hplan⟩ := VariableDef.plan_resolves hp hscope d hwf.1 hslots.left hcalls.left
    have hdeclare : (scope.declare [d]).Resolves Target := by
      rcases ha : d.allocation with _ | a
      · simpa [LexicalScope.declare, ha] using hscope
      · simpa [LexicalScope.declare, ha] using hscope.addLocal (htarget a ha)
    obtain ⟨hnodes, hscope', hplan'⟩ := locals_plan_resolves hp hdeclare rest hwf.2
      hslots.right hcalls.right
    rw [localsPlan, localsNodes, List.flatMap_cons, List.forall_mem_append]
    exact ⟨⟨every_slotNodes (by decide) htarget, hnodes⟩, hscope', hplan.append hplan'⟩

lemma calls_plan_resolves (hp : p.Resolves Target) {names : Set String} {depth : Nat}
    {scope : LexicalScope} (hscope : scope.Resolves Target) (formal : Option Allocation)
    (hformal : ∀ q, formal = some q → Target .paramDef q) (tag : String)
    (htag : tag ∈ Node.referenceTags) : ∀ cs : List Call,
      callsWellFormed p names depth cs → SlotsResolve Target (callsSlots cs) →
      CallsResolve p Target (callsCalls cs) →
      (∀ n ∈ statementsNodes tag cs, n.Every (Node.Inner Target)) ∧
        PlanResolves Target (callsPlan p scope formal cs)
  | [], _, _, _ => by
    rw [callsPlan]
    exact ⟨by simp [statementsNodes], .nil⟩
  | c :: rest, hwf, hslots, hcalls => by
    rw [callsWellFormed] at hwf
    rw [callsSlots] at hslots
    rw [callsCalls] at hcalls
    obtain ⟨hnodes, hplan⟩ := Call.plan_resolves hp hscope formal hformal tag htag c hwf.1
      hslots.left hcalls.left
    obtain ⟨hnodes', hplan'⟩ := calls_plan_resolves hp hscope formal hformal tag htag rest hwf.2
      hslots.right hcalls.right
    rw [callsPlan, statementsNodes, List.flatMap_cons, List.forall_mem_append]
    exact ⟨⟨hnodes, hnodes'⟩, hplan.append hplan'⟩

lemma VariableDef.plan_resolves (hp : p.Resolves Target) {names : Set String} {depth : Nat}
    {scope : LexicalScope} (hscope : scope.Resolves Target) : ∀ d : VariableDef,
      d.WellFormed p names depth → SlotsResolve Target d.slots → CallsResolve p Target d.calls →
      (∀ a, d.allocation = some a → Target .variable a) ∧ PlanResolves Target (d.plan p scope)
  | ⟨attributes, ty, name, v, allocation⟩, hwf, hslots, hcalls => by
    rw [VariableDef.WellFormed] at hwf
    rw [VariableDef.slots] at hslots
    rw [VariableDef.calls] at hcalls
    have hvalue := Value.plan_resolves hp hscope none nofun v hwf.2.2 hslots.tail hcalls
    rw [VariableDef.plan]
    refine ⟨fun a ha => hslots _ a (ha ▸ List.mem_cons_self), (PlanResolves.slotPart ?_).append hvalue⟩
    simp only [List.forall_mem_append, List.forall_mem_cons]
    exact ⟨⟨every_flag _ _ (by decide), every_comment _⟩, every_typeNode hp hscope (by decide) _,
      every_slotNodes (by decide) fun a ha => Value.target_of_slots hwf.2.2 hslots.tail ha⟩

end

/-! ## Definitions -/

lemma ParamDef.plan_resolves (hp : p.Resolves Target) {names : Set String} {scope : LexicalScope}
    (hscope : scope.Resolves Target) {d : ParamDef} (hwf : d.WellFormed p names)
    (hslots : SlotsResolve Target d.slots)
    (hcalls : CallsResolve p Target (d.default.toList.flatMap Value.calls)) :
    PlanResolves Target (d.plan p scope) := by
  obtain ⟨-, -, hdefault⟩ := hwf
  rw [ParamDef.plan]
  rw [ParamDef.slots] at hslots
  replace hslots := hslots.tail
  rcases hv : d.default with _ | v
  · refine PlanResolves.append (.slotPart ?_) .nil
    rw [List.forall_mem_append, List.forall_mem_cons]
    exact ⟨every_comment _, every_typeNode hp hscope (by decide) _, by simp⟩
  · rw [hv, Option.toList_some, List.flatMap_singleton] at hslots hcalls
    rw [Option.toList_some, List.flatMap_singleton, List.flatMap_singleton]
    refine PlanResolves.append (.slotPart ?_)
      (Value.plan_resolves hp LexicalScope.resolves_empty none nofun v (hdefault v hv) hslots hcalls)
    rw [List.forall_mem_append, List.forall_mem_cons]
    exact ⟨every_comment _, every_typeNode hp hscope (by decide) _,
      every_slotNodes (by decide) fun a ha => Value.target_of_slots (hdefault v hv) hslots ha⟩

lemma params_plan_resolves (hp : p.Resolves Target) {names : Set String} {scope : LexicalScope}
    (hscope : scope.Resolves Target) {params : List ParamDef} (hwf : paramsWellFormed p names params)
    (hslots : SlotsResolve Target (params.flatMap ParamDef.slots))
    (hcalls : CallsResolve p Target (params.flatMap fun q => q.default.toList.flatMap Value.calls)) :
    (∀ n ∈ params.flatMap fun q => slotNodes "Parameter" .paramDef q.allocation,
        n.Every (Node.Inner Target)) ∧
      (scope.declareParams params).Resolves Target ∧
      PlanResolves Target (paramsPlan p scope params) := by
  induction params generalizing names scope with
  | nil => exact ⟨by simp, hscope, .nil⟩
  | cons d rest ih =>
    obtain ⟨hd, hrest⟩ := hwf
    rw [List.flatMap_cons] at hslots hcalls
    have hplan := d.plan_resolves hp hscope hd hslots.left hcalls.left
    have htarget : ∀ a, d.allocation = some a → Target .paramDef a := fun a ha =>
      hslots.left _ a (ha ▸ List.mem_cons_self)
    have hdeclare : (scope.declareParams [d]).Resolves Target := by
      rcases ha : d.allocation with _ | a
      · simpa [LexicalScope.declareParams, ha] using hscope
      · simpa [LexicalScope.declareParams, ha] using hscope.addParameter (htarget a ha)
    obtain ⟨hnodes, hscope', hplan'⟩ := ih hdeclare hrest hslots.right hcalls.right
    rw [List.flatMap_cons, List.forall_mem_append]
    exact ⟨⟨every_slotNodes (by decide) htarget, hnodes⟩, hscope', hplan.append hplan'⟩

lemma every_kindNode (kind : CallableKind) : kind.node.Every (Node.Inner Target) := by
  cases kind <;> exact Node.every_leaf (by decide) (by simp [Node.plainKeys])

lemma every_returnNodes (hp : p.Resolves Target) (d : FunctionDef) :
    ∀ n ∈ d.returnNodes p, n.Every (Node.Inner Target) := by
  rw [FunctionDef.returnNodes]
  split
  · simp
  · rw [List.forall_mem_singleton]
    exact every_typeNode hp LexicalScope.resolves_empty (by decide) _

lemma FunctionDef.plan_resolves (hp : p.Resolves Target) {d : FunctionDef}
    (hwf : (Definition.function d).WellFormed p)
    (hslots : SlotsResolve Target (Definition.function d).slots)
    (hcalls : CallsResolve p Target (Definition.function d).calls) :
    PlanResolves Target ((Definition.function d).plan p) := by
  obtain ⟨-, -, hparams, hbody⟩ := hwf
  rw [Definition.slots] at hslots
  rw [Definition.calls] at hcalls
  replace hslots := hslots.tail
  obtain ⟨hparamNodes, hscope, hparamsPlan⟩ := params_plan_resolves hp LexicalScope.resolves_empty
    hparams hslots.left hcalls.left
  obtain ⟨hbodyNodes, hbodyPlan⟩ := Block.plan_resolves hp hscope none nofun "FunctionCall"
    (by decide) d.body hbody hslots.right hcalls.right
  rw [Definition.plan]
  refine ((PlanResolves.slotPart ?_).append hparamsPlan).append hbodyPlan
  simp only [FunctionDef.nodes, List.forall_mem_append, List.forall_mem_cons]
  exact ⟨⟨⟨⟨every_kindNode _, every_flag _ _ (by decide)⟩, every_flag _ _ (by decide)⟩, every_comment _⟩,
    ⟨every_returnNodes hp d, hparamNodes⟩, hbodyNodes⟩

lemma TriggerDef.plan_resolves (hp : p.Resolves Target) {d : TriggerDef}
    (hwf : (Definition.trigger d).WellFormed p)
    (hslots : SlotsResolve Target (Definition.trigger d).slots)
    (hcalls : CallsResolve p Target (Definition.trigger d).calls) :
    PlanResolves Target ((Definition.trigger d).plan p) := by
  obtain ⟨-, hevent, hbody⟩ := hwf
  rw [Definition.slots] at hslots
  rw [Definition.calls] at hcalls
  replace hslots := hslots.tail
  obtain ⟨heventNodes, heventPlan⟩ := Call.plan_resolves hp LexicalScope.resolves_empty none nofun
    "Event" (by decide) d.event hevent hslots.left hcalls.left
  obtain ⟨hbodyNodes, hbodyPlan⟩ := Block.plan_resolves hp LexicalScope.resolves_empty none nofun
    "Action" (by decide) d.body hbody hslots.right hcalls.right
  rw [Definition.plan]
  refine ((PlanResolves.slotPart ?_).append heventPlan).append hbodyPlan
  simp only [TriggerDef.nodes, List.forall_mem_append]
  exact ⟨⟨⟨every_flag _ _ (by decide), every_flag _ _ (by decide)⟩, every_comment _⟩, heventNodes,
    hbodyNodes⟩

lemma PresetDef.plan_resolves (p : Program) {d : PresetDef}
    (hslots : SlotsResolve Target (Definition.preset d).slots) :
    PlanResolves Target ((Definition.preset d).plan p) := by
  refine PlanResolves.append (.slotPart ?_) ?_
  · simp only [PresetDef.nodes, List.forall_mem_append, List.forall_mem_cons]
    refine ⟨⟨⟨every_comment _, ?_⟩, ?_, ?_, by simp⟩, ?_⟩
    · split
      · rw [List.forall_mem_singleton]
        exact Node.every_leaf (by decide) (by simp [Node.plainKeys])
      · simp
    · exact Node.every_leaf (by decide) (by simp [Node.plainKeys])
    · exact Node.every_leaf (by decide) (by simp [Node.plainKeys])
    · intro n hn
      obtain ⟨m, hm, hn⟩ := List.mem_flatMap.1 hn
      refine every_slotNodes (by decide) (fun a ha => hslots .presetValue a ?_) n hn
      exact List.mem_cons_of_mem _ (List.mem_map.2 ⟨m, hm, by rw [PresetMember.slot, ha]⟩)
  · intro part hpart n hn
    obtain ⟨part', hpart', hstep⟩ := List.mem_map.1 hpart
    obtain ⟨⟩ := hstep
    obtain ⟨a, -, hpart'⟩ := List.mem_flatMap.1 hpart'
    obtain ⟨m, -, hpart'⟩ := List.mem_flatMap.1 hpart'
    obtain ⟨b, -, rfl⟩ := List.mem_map.1 hpart'
    simp at hn

/-- All references in the plan of a job have targets. -/
lemma Job.plan_resolves (hp : p.Resolves Target) {job : Job} (hjob : p.Lowers job)
    (hwf : job.WellFormed p) (hslots : SlotsResolve Target job.slots)
    (hcalls : CallsResolve p Target job.calls) : PlanResolves Target (job.plan p) := by
  rcases job with (d | d | d | d) | ⟨formal, v⟩
  · exact d.plan_resolves p hslots
  · exact (d.plan_resolves hp LexicalScope.resolves_empty hwf hslots hcalls).2
  · exact d.plan_resolves hp hwf hslots hcalls
  · exact d.plan_resolves hp hwf hslots hcalls
  · refine v.plan_resolves hp LexicalScope.resolves_empty formal.allocation ?_ hwf hslots hcalls
    obtain ⟨c, f, hf, hformal, -⟩ := Program.Uses.exists_omits hjob
    exact fun q hq => hp.formal hf (List.mem_of_mem_drop hformal) hq

/-! ## Catalogs -/

mutual

lemma CatalogItem.plan_resolves
    (hentries : ∀ e ∈ p.entries, ∀ n ∈ e.nodes, n.Every (Node.Inner Target)) :
    ∀ i : CatalogItem, SlotsResolve Target i.slots →
      (∀ n ∈ i.nodes p, n.Every (Node.Inner Target)) ∧ PlanResolves Target (i.plan p)
  | .leaf name, _ => by
    rw [CatalogItem.plan, CatalogItem.nodes]
    refine ⟨?_, fun part hpart => by simp at hpart⟩
    rcases hlisted : p.listed? name with _ | e
    · simp
    · exact hentries e (Program.mem_of_listed? hlisted)
  | .folder f, hslots => by
    rw [CatalogItem.slots] at hslots
    rw [CatalogItem.plan, CatalogItem.nodes]
    exact Folder.plan_resolves hentries f hslots

lemma Folder.plan_resolves
    (hentries : ∀ e ∈ p.entries, ∀ n ∈ e.nodes, n.Every (Node.Inner Target)) :
    ∀ f : Folder, SlotsResolve Target f.slots →
      (∀ n ∈ slotNodes "Item" .category f.allocation, n.Every (Node.Inner Target)) ∧
        PlanResolves Target (f.plan p)
  | ⟨_, entries, allocation⟩, hslots => by
    rw [Folder.slots] at hslots
    obtain ⟨hnodes, hplan⟩ := items_plan_resolves hentries entries hslots.tail
    rw [Folder.plan]
    exact ⟨every_slotNodes (by decide) fun a ha => hslots _ a (ha ▸ List.mem_cons_self),
      (PlanResolves.slotPart hnodes).append hplan⟩

lemma items_plan_resolves
    (hentries : ∀ e ∈ p.entries, ∀ n ∈ e.nodes, n.Every (Node.Inner Target)) :
    ∀ is : List CatalogItem, SlotsResolve Target (itemsSlots is) →
      (∀ n ∈ itemsNodes p is, n.Every (Node.Inner Target)) ∧ PlanResolves Target (itemsPlan p is)
  | [], _ => by
    rw [itemsPlan]
    exact ⟨by simp [itemsNodes], .nil⟩
  | i :: rest, hslots => by
    rw [itemsSlots] at hslots
    obtain ⟨hnodes, hplan⟩ := CatalogItem.plan_resolves hentries i hslots.left
    obtain ⟨hnodes', hplan'⟩ := items_plan_resolves hentries rest hslots.right
    rw [itemsPlan, itemsNodes_cons, List.forall_mem_append]
    exact ⟨⟨hnodes, hnodes'⟩, hplan.append hplan'⟩

end

/-! ## Whole documents -/

lemma catalog_resolves (hp : p.Declares Target) {c : Catalog} (hc : SlotsResolve Target c.slots)
    {l : CatalogLibrary} (hl : l ∈ c.libraries) :
    (∀ n ∈ itemsNodes p l.items, n.Every (Node.Inner Target)) ∧
      PlanResolves Target (itemsPlan p l.items) :=
  items_plan_resolves hp.every_entry l.items
    (hc.mono fun _ hslot => List.mem_flatMap.2 ⟨l, hl, hslot⟩)

lemma wholePlan_resolves (hp : p.Declares Target) {c : Catalog} (hc : SlotsResolve Target c.slots) :
    PlanResolves Target (wholePlan p c) := by
  intro part hpart
  rcases List.mem_append.1 hpart with hpart | hpart
  · obtain ⟨l, hl, hpart⟩ := List.mem_flatMap.1 hpart
    exact (catalog_resolves hp hc hl).2 part hpart
  · simp [definitionsPlan] at hpart

lemma every_wholeItems (hp : p.Declares Target) {c : Catalog} (hc : SlotsResolve Target c.slots) :
    ∀ item ∈ wholeItems p c, item.2.Every (Node.Inner Target) := by
  intro item hitem
  rcases List.mem_append.1 hitem with hitem | hitem
  · obtain ⟨l, hl, hitem⟩ := List.mem_flatMap.1 hitem
    obtain ⟨n, hn, rfl⟩ := List.mem_map.1 hitem
    exact (catalog_resolves hp hc hl).1 n hn
  · obtain ⟨s, hs, hitem⟩ := List.mem_flatMap.1 hitem
    obtain ⟨d, hd, hitem⟩ := List.mem_flatMap.1 hitem
    obtain ⟨n, hn, rfl⟩ := List.mem_map.1 hitem
    exact hp.every_definition hs hd n hn

end Nodes

namespace Document

/-- Something of this type has this allocation: a node of the program or of the catalog, or what the
program imports. A block counts as a value. -/
def Entity (p : Program) (c : Catalog) (type : ElementType) (a : Allocation) : Prop :=
  ∃ slot ∈ p.slots ++ c.slots ++ p.importedSlots,
    slot.type.getD .param = type ∧ slot.allocation = some a

section Entity

variable {p : Program} {c : Catalog}

lemma slotsResolve_entity {slots : List Slot} (h : slots ⊆ p.slots ++ c.slots ++ p.importedSlots) :
    SlotsResolve (Entity p c) slots :=
  fun _ _ hslot => ⟨_, h hslot, rfl, rfl⟩

lemma job_slotsResolve_entity {job : Job} (hjob : job ∈ p.jobs) :
    SlotsResolve (Entity p c) job.slots :=
  slotsResolve_entity fun _ hslot => List.mem_append_left _
    (List.mem_append_left _ (List.mem_flatMap.2 ⟨job, hjob, hslot⟩))

lemma declares_entity (p : Program) (c : Catalog) : p.Declares (Entity p c) where
  imports s hs x hx := slotsResolve_entity fun _ hslot =>
    List.mem_append_right _ (List.mem_flatMap.2 ⟨s, hs, List.mem_flatMap.2 ⟨x, hx, hslot⟩⟩)
  definitions _ hs _ hd := job_slotsResolve_entity (Program.definition_mem_jobs hs hd)

lemma catalog_slotsResolve_entity (p : Program) (c : Catalog) : SlotsResolve (Entity p c) c.slots :=
  slotsResolve_entity fun _ hslot => List.mem_append_left _ (List.mem_append_right _ hslot)

/-- The references of a job lead to entities. What a call leaves out need not have been made under its
own allocation, but it has this allocation. -/
lemma job_plan_resolves_entity {job : Job} (hjob : p.Lowers job) (hwf : job.WellFormed p) :
    PlanResolves (Entity p c) (job.plan p) := by
  refine job.plan_resolves (declares_entity p c).resolves hjob hwf
    (job_slotsResolve_entity hjob.mem_jobs) ?_
  intro c' hc' formal v a homits ha
  obtain ⟨rest, hslots⟩ := v.slots_head
  have hslot : ⟨v.kind.elementType?, v.allocation⟩ ∈ p.slots := by
    refine List.mem_flatMap.2 ⟨.default formal v, homits.mem_jobs, ?_⟩
    rw [Job.slots, hslots]
    exact List.mem_cons_self
  refine ⟨_, List.mem_append_left _ (List.mem_append_left _ hslot), ?_, ha⟩
  cases v.kind <;> rfl

/-- A document consists of what stands around the elements, of elements, and of inner nodes whose
references lead to entities. -/
lemma Composition.forall_nodes {pools : Pools} {parts : List Part} {items : List (String × Node)}
    (h : Composition p c pools parts items) {P : Node → Prop} (hlibrary : ∀ q, P (libraryNode q))
    (hroot : ∀ q, P (root q)) (helement : ∀ part : Part, P part.node)
    (hinner : ∀ n : Node, n.Inner (Entity p c) → P n) :
    ∀ n ∈ (ofPools pools).descendants, P n := by
  obtain ⟨done, hmakes⟩ := h.makes
  obtain ⟨jobs, hout⟩ := hmakes.outcome
  refine h.forall_descendants hlibrary hroot ?_ ?_
  · intro part hpart
    have hchildren : ∀ n ∈ part.children, n.Every (Node.Inner (Entity p c)) := by
      rw [hout.perm.mem_iff, List.mem_append, List.mem_flatMap, mem_planParts] at hpart
      rcases hpart with hpart | ⟨job, hjob, hpart⟩
      · exact wholePlan_resolves (declares_entity p c) (catalog_slotsResolve_entity p c) part hpart
      · exact job_plan_resolves_entity (hout.lowers job hjob) (hout.wellFormed job hjob) part
          (mem_planParts.1 hpart)
    exact ⟨helement part, fun n hn => (hchildren n hn).imp hinner⟩
  · intro item hitem
    exact (every_wholeItems (declares_entity p c) (catalog_slotsResolve_entity p c) item hitem).imp
      hinner

end Entity

end Document

end TriggerScript
