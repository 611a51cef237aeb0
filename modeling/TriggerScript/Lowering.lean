import TriggerScript.Lowering.Monad

/-!
# Values, calls and variables as elements

A value becomes an element of type `Param`, a call one of type `FunctionCall` and a variable one of
type `Variable`. Their children refer to one another by allocation.

The default value of an imported parameter that a call leaves out is made once, at the first call
that leaves it out. Its own calls may leave out parameters again, and so lead to further defaults or
back to the same one; what has been begun is not begun again, so this comes to an end after at most
as many defaults as there are.
-/

namespace TriggerScript

namespace Lower

/-- What making an element depends on. -/
structure Context where
  symbols : Symbols
  /-- Makes the default value of an imported parameter that is left out. -/
  omitted : Formal → Value → Lower Allocation

/-- The child of an element for each flag that is present. -/
def flagNodes (attributes : List Attribute) (tags : List (String × String)) : List Node :=
  tags.filterMap fun (key, tag) =>
    if Attribute.present attributes key then some { tag } else none

/-- The child of an element for its comment. -/
def commentNodes (attributes : List Attribute) : List Node :=
  match Attribute.valueOf? attributes "comment" with
  | some text => [{ tag := "Comment", text := some text }]
  | none => []

/-- The child that gives the type of a literal. -/
def literalType (type : String) : Node :=
  { tag := "ValueType", attributes := [("Type", type)] }

/-- The child that gives the text of a literal. -/
def literalText (text : String) : Node :=
  { tag := "Value", text := some text }

/-- The children of a literal: its text, which a text for display has in a string table instead,
and its type. -/
def literalNodes : Literal → List Node
  | .text _ => [literalType "text"]
  | .string s => [literalText s, literalType "string"]
  | .int n => [literalText (Text.intText n), literalType "int"]
  | .bool b => [literalText (if b then "true" else "false"), literalType "bool"]

/-- A reference to what a name is bound to. -/
def bindingNode (binding : Binding) : Node :=
  .reference binding.tag binding.type binding.allocation

/-- The child for one dimension of a type. -/
def dimensionNode (symbols : Symbols) (index : Nat) : Dimension → Lower Node
  | .size n =>
    return { tag := "ArraySize",
             attributes := [("Dim", Text.natText index), ("Value", Text.intText n)] }
  | .variable name => do
    let binding ← resolve symbols name
    let node := Node.reference "ArraySizeVariable" binding.type binding.allocation
    return { node with attributes := ("Dim", Text.natText index) :: node.attributes }

/-- The children for the dimensions of a type from `index` on. -/
def dimensionNodes (symbols : Symbols) (index : Nat) : List Dimension → Lower (List Node)
  | [] => return []
  | d :: rest => do
    let node ← dimensionNode symbols index d
    let others ← dimensionNodes symbols (index + 1) rest
    return node :: others

/-- A type as a child of an element. -/
def typeNode (symbols : Symbols) (tag : String) (ty : TypeRef) : Lower Node := do
  let dims ← dimensionNodes symbols 0 ty.dims
  return { tag, children := { tag := "Type", attributes := [("Value", ty.name)] } :: dims }

/-- References to the defaults of the imported parameters that a call leaves out. -/
def omittedNodes (ctx : Context) : List Formal → Lower (List Node)
  | [] => return []
  | formal :: rest =>
    match formal.externalDefault with
    | none => omittedNodes ctx rest
    | some v => do
      let a ← ctx.omitted formal v
      let others ← omittedNodes ctx rest
      return .reference "Default" .param a :: others

mutual

/-- Makes the element of a value that is handed to the parameter `formal`, if to any. -/
def value (ctx : Context) (formal : Option Allocation) (depth : Nat) : Value → Lower Allocation
  | ⟨kind, allocation⟩ => do
    checkDepth depth
    let a ← allocated allocation
    let place ← reserve a.library
    let target := formal.toList.map (.reference "ParameterDef" .paramDef)
    let nodes ← valueNodes ctx depth kind
    fill a.library place (.element .param a.id (target ++ nodes))
    return a

/-- The children of a value. -/
def valueNodes (ctx : Context) (depth : Nat) : ValueKind → Lower (List Node)
  | .literal l => return literalNodes l
  | .variable name => do
    let binding ← resolve ctx.symbols name
    return [bindingNode binding]
  | .presetMember preset member => do
    let p ← ofExcept (ctx.symbols.preset preset)
    match p.member? member with
    | some a => return [.reference "Preset" .presetValue a]
    | none => throw (.unresolved (preset ++ "." ++ member))
  | .arrayElement name indices => do
    let binding ← resolve ctx.symbols name
    let nodes ← indexNodes ctx depth indices
    return bindingNode binding :: nodes
  | .call c => do
    let a ← call ctx none (depth + 1) c
    return [.reference "FunctionCall" .functionCall a]
  | .block _ => shape "a statement block can only be passed to a block parameter"

/-- References to the indices of an array element. -/
def indexNodes (ctx : Context) (depth : Nat) : List Value → Lower (List Node)
  | [] => return []
  | v :: rest => do
    let a ← value ctx none (depth + 1) v
    let others ← indexNodes ctx depth rest
    return .reference "Array" .param a :: others

/-- Makes the element of a call; `formal` is the parameter that the block around it is handed to, if
there is one. -/
def call (ctx : Context) (formal : Option Allocation) (depth : Nat) : Call → Lower Allocation
  | ⟨callee, args, allocation⟩ => do
    checkDepth depth
    let f ← ofExcept (ctx.symbols.callable callee)
    let formals := f.formals
    if args.length > formals.length then
      shape ("`" ++ f.name ++ "` takes " ++ Text.natText formals.length ++ " argument(s) but " ++
        Text.natText args.length ++ " were given")
    let left := formals.drop args.length
    if let some missing := left.find? (!·.hasDefault) then
      shape ("call to `" ++ f.name ++ "` is missing argument `" ++ missing.name ++ "`")
    let a ← allocated allocation
    match f.allocation with
    | none => shape ("`" ++ f.name ++ "` has no id")
    | some target =>
      let place ← reserve a.library
      let block := formal.toList.map (.reference "SubFunctionType" .paramDef)
      let actuals ← actualNodes ctx f.name depth args formals
      let defaults ← omittedNodes ctx left
      fill a.library place (.element .functionCall a.id
        (.reference "FunctionDef" .functionDef target :: block ++ actuals ++ defaults))
      return a

/-- The children of a call for what is handed to its parameters. -/
def actualNodes (ctx : Context) (callee : String) (depth : Nat) :
    List Value → List Formal → Lower (List Node)
  | [], _ => return []
  | _ :: _, [] => return []
  | ⟨.block b, _⟩ :: args, formal :: formals =>
    if formal.acceptsBlock then
      match formal.allocation with
      | none => shape ("parameter `" ++ formal.name ++ "` has no id")
      | some a => do
        let nodes ← inBlock (blockNodes ctx "FunctionCall" (some a) (depth + 1) b)
        let others ← actualNodes ctx callee depth args formals
        return nodes ++ others
    else
      shape ("parameter `" ++ formal.name ++ "` of `" ++ callee ++
        "` does not accept a statement block")
  | v :: args, formal :: formals =>
    if formal.acceptsBlock then
      shape ("parameter `" ++ formal.name ++ "` of `" ++ callee ++ "` expects a statement block")
    else do
      let a ← value ctx formal.allocation (depth + 1) v
      let others ← actualNodes ctx callee depth args formals
      return .reference "Parameter" .param a :: others

/-- References to the locals and the statements of a block; statements are tagged with `tag`, and
`formal` is the parameter that the block is handed to, if to any. -/
def blockNodes (ctx : Context) (tag : String) (formal : Option Allocation) (depth : Nat) :
    Block → Lower (List Node)
  | ⟨locals, statements⟩ => do
    let localNodes ← localNodes ctx depth locals
    let statementNodes ← statementNodes ctx tag formal depth statements
    return localNodes ++ statementNodes

/-- Makes the elements of local variables, declares them one after the other and refers to them. -/
def localNodes (ctx : Context) (depth : Nat) : List VariableDef → Lower (List Node)
  | [] => return []
  | d :: rest => do
    let a ← variableDef ctx depth d
    addLocal d.name a
    let others ← localNodes ctx depth rest
    return .reference "Variable" .variable a :: others

/-- Makes the elements of statements and refers to them. -/
def statementNodes (ctx : Context) (tag : String) (formal : Option Allocation) (depth : Nat) :
    List Call → Lower (List Node)
  | [] => return []
  | c :: rest => do
    let a ← call ctx formal depth c
    let others ← statementNodes ctx tag formal depth rest
    return .reference tag .functionCall a :: others

/-- Makes the element of a variable. -/
def variableDef (ctx : Context) (depth : Nat) : VariableDef → Lower Allocation
  | ⟨attributes, ty, name, v, allocation⟩ => do
    let a ← allocated allocation
    validate ["const"] [] name attributes
    let place ← reserve a.library
    let type ← typeNode ctx.symbols "VariableType" ty
    let initial ← value ctx none (depth + 1) v
    fill a.library place (.element .variable a.id
      (flagNodes attributes [("const", "FlagConstant")] ++ commentNodes attributes ++
        [type, .reference "Value" .param initial]))
    return a

end

/-- Makes the default value of an imported parameter unless that has been begun before, with at most
`budget` further defaults inside one another. -/
def omittedDefault (symbols : Symbols) (budget : Nat) (formal : Formal) (v : Value) :
    Lower Allocation := do
  let a ← allocated v.allocation
  if ← begin a then
    match budget with
    | 0 => throw .endlessDefaults
    | budget + 1 =>
      let _ ← inScope {} (value ⟨symbols, omittedDefault symbols budget⟩ formal.allocation 0 v)
  return a

/-- The context of a program: defaults can lie inside one another as often as there are defaults. -/
def Context.ofSymbols (symbols : Symbols) : Context :=
  ⟨symbols, omittedDefault symbols symbols.externalDefaults.length⟩

end Lower

end TriggerScript
