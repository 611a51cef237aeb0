import TriggerScript.Catalog
import TriggerScript.Lowering

/-!
# Documents

The document of a program has, for each library, the references of its root and its elements. The
catalog decides which references come first and how they are grouped in folders; the definitions
that it does not list follow in the order of the program. Elements of the default library stand at
the top level behind the other libraries.

The main definition is `Document.build`.
-/

namespace TriggerScript

namespace Lower

/-- The reference to the default of a parameter that has one. -/
def defaultNodes (ctx : Context) : Option Value → Lower (List Node)
  | none => return []
  | some v => do
    let a ← inScope {} (value ctx none 0 v)
    return [.reference "Default" .param a]

/-- Makes the elements of the parameters of a function, declares them one after the other and refers
to them. The type of a parameter can use the parameters in front of it; its default cannot. -/
def paramNodes (ctx : Context) : List ParamDef → Lower (List Node)
  | [] => return []
  | d :: rest => do
    validate ["block"] [] d.name d.attributes
    let a ← allocated d.allocation
    let place ← reserve a.library
    let type ← typeNode ctx.symbols "ParameterType" d.ty
    let default ← defaultNodes ctx d.default
    fill a.library place (.element .paramDef a.id (commentNodes d.attributes ++ type :: default))
    addParameter d.name a
    let others ← paramNodes ctx rest
    return .reference "Parameter" .paramDef a :: others

/-- Makes the elements of a trigger unless that has been begun before, and refers to it. -/
def trigger (ctx : Context) (d : TriggerDef) : Lower Node := do
  let a ← allocated d.allocation
  if ← begin a then
    validate ["disabled", "initially_off"] [] d.name d.attributes
    let place ← reserve a.library
    let nodes ← inScope {} do
      let event ← call ctx none 0 d.event
      let body ← blockNodes ctx "Action" none 0 d.body
      return .reference "Event" .functionCall event :: body
    fill a.library place (.element .trigger a.id
      (flagNodes d.attributes [("disabled", "FlagDisabled"), ("initially_off", "FlagInitialOff")] ++
        commentNodes d.attributes ++ nodes))
  return .reference "Item" .trigger a

/-- The child that tells an action from a function. -/
def kindNode : CallableKind → Node
  | .action => { tag := "FlagAction" }
  | .function => { tag := "FlagCall" }
  | .event => { tag := "FlagCall" }

/-- The child for the type that a function returns, if it returns something. -/
def returnNodes (ctx : Context) (ty : TypeRef) : Lower (List Node) := do
  if ty.isVoid then return []
  else
    let node ← typeNode ctx.symbols "ReturnType" ty
    return [node]

/-- Makes the elements of a function unless that has been begun before, and refers to it. -/
def function (ctx : Context) (d : FunctionDef) : Lower Node := do
  let a ← allocated d.allocation
  if ← begin a then
    validate ["hidden", "native"] [] d.name d.attributes
    let place ← reserve a.library
    let nodes ← inScope {} do
      let returns ← returnNodes ctx d.returns
      let params ← paramNodes ctx d.params
      let body ← blockNodes ctx "FunctionCall" none 0 d.body
      return returns ++ params ++ body
    fill a.library place (.element .functionDef a.id
      (kindNode d.kind ::
        flagNodes d.attributes [("hidden", "FlagHidden"), ("native", "FlagNative")] ++
        commentNodes d.attributes ++ nodes))
  return .reference "Item" .functionDef a

/-- The allocations of the members of a preset. -/
def memberAllocations : List PresetMember → Lower (List Allocation)
  | [] => return []
  | m :: rest => do
    let a ← allocated m.allocation
    let others ← memberAllocations rest
    return a :: others

/-- Makes the elements of a preset unless that has been begun before, and refers to it. -/
def preset (d : PresetDef) : Lower Node := do
  let a ← allocated d.allocation
  if ← begin a then
    validate [] ["base"] d.name d.attributes
    let base := (Attribute.valueOf? d.attributes "base").getD "int"
    let members ← memberAllocations d.members
    let nodes :=
      commentNodes d.attributes ++ (if base = "int" then [{ tag := "PresetInteger" }] else []) ++
        [{ tag := "BaseType", attributes := [("Value", base)] }, { tag := "PresetGenConstVar" }] ++
        members.map (.reference "Item" .presetValue)
    append a.library
      (.element .preset a.id nodes :: members.map fun m => .element .presetValue m.id)
  return .reference "Item" .preset a

/-- Makes the elements of a global variable unless that has been begun before, and refers to it. -/
def global (ctx : Context) (d : VariableDef) : Lower Node := do
  let a ← allocated d.allocation
  if ← begin a then
    let _ ← inScope {} (variableDef ctx 0 d)
  return .reference "Item" .variable a

/-- Makes the elements of a definition unless that has been begun before, and refers to it. -/
def definition (ctx : Context) : Definition → Lower Node
  | .trigger d => trigger ctx d
  | .function d => function ctx d
  | .preset d => preset d
  | .variable d => global ctx d

/-- What a catalog lists under a name. An imported entity is only referred to. -/
def leaf (ctx : Context) (name : String) : Lower Node :=
  match ctx.symbols.entry? name with
  | none => throw (.unknownDefinition name)
  | some (.trigger d) => trigger ctx d
  | some (.callable (.library d)) => function ctx d
  | some (.callable (.external d)) => do
    let a ← allocated d.allocation
    return .reference "Item" .functionDef a
  | some (.preset (.library d)) => preset d
  | some (.preset (.external _)) =>
    shape ("imported preset `" ++ name ++ "` has no id of its own and cannot be listed")
  | some (.global (.library d)) => global ctx d
  | some (.global (.external d)) => do
    let a ← allocated d.allocation
    return .reference "Item" .variable a

mutual

/-- Makes the elements of an entry of a catalog and refers to it. -/
def item (ctx : Context) : CatalogItem → Lower Node
  | .leaf name => leaf ctx name
  | .folder f => folder ctx f

/-- Makes the element of a folder with what is in it, and refers to it. -/
def folder (ctx : Context) : Folder → Lower Node
  | ⟨_, entries, allocation⟩ => do
    let a ← allocated allocation
    let place ← reserve a.library
    let nodes ← items ctx entries
    fill a.library place (.element .category a.id nodes)
    return .reference "Item" .category a

/-- Makes the elements of entries and refers to them. -/
def items (ctx : Context) : List CatalogItem → Lower (List Node)
  | [] => return []
  | i :: rest => do
    let node ← item ctx i
    let others ← items ctx rest
    return node :: others

end

/-- Makes the elements of entries and puts references to them into the root of a library. -/
def rootItems (ctx : Context) (library : String) : List CatalogItem → Lower Unit
  | [] => return ()
  | i :: rest => do
    let node ← item ctx i
    addToRoot library node
    rootItems ctx library rest

/-- Makes what a catalog lists. -/
def catalogLibraries (ctx : Context) : List CatalogLibrary → Lower Unit
  | [] => return ()
  | l :: rest => do
    touch l.name
    rootItems ctx l.name l.items
    catalogLibraries ctx rest

/-- Makes the definitions of a library that have not been begun yet, and puts references to them
into its root. -/
def definitions (ctx : Context) (library : String) : List Definition → Lower Unit
  | [] => return ()
  | d :: rest => do
    let s ← get
    if !(d.allocation.any (· ∈ s.done)) then
      let node ← definition ctx d
      addToRoot library node
    definitions ctx library rest

/-- Makes the definitions of the libraries of a program. -/
def libraries (ctx : Context) : List LibraryScope → Lower Unit
  | [] => return ()
  | l :: rest => do
    touch l.library
    definitions ctx l.library l.definitions
    libraries ctx rest

/-- Makes all elements: what the catalog lists first, then the rest of the program. -/
def all (ctx : Context) (p : Program) (c : Catalog) : Lower Unit := do
  catalogLibraries ctx c.libraries
  libraries ctx p.libraries

end Lower

namespace Document

/-- The root of a library. -/
def root (pool : LibraryPool) : Node :=
  { tag := "Root", children := pool.root }

/-- The part of the document for a library other than the default one. -/
def libraryNode (pool : LibraryPool) : Node :=
  { tag := "Library", attributes := [("Id", pool.library)], children := root pool :: pool.elements }

/-- The document of the pools of all libraries. -/
def ofPools (pools : Pools) : Node where
  tag := "TriggerData"
  children :=
    (pools.filter (·.library ≠ defaultLibrary)).map libraryNode ++
      (pools.filter (·.library = defaultLibrary)).flatMap fun pool => root pool :: pool.elements

/-- The number of elements in all libraries. -/
def elementCount (pools : Pools) : Nat :=
  pools.foldr (fun pool n => pool.places.size + n) 0

/-- The document of a program and a catalog whose slots are filled. -/
def build (p : Program) (c : Catalog) : Run LoweringError Node := do
  let (symbols, events) := Symbols.ofProgram p
  Run.reportAll events
  match Lower.all (.ofSymbols symbols) p c {} with
  | .error e _ => throw e
  | .ok _ s =>
    Run.report ⟨.debug, "lowered tree", [("elements", Text.natText (elementCount s.pools))]⟩
    return ofPools s.pools

end Document

end TriggerScript
