import TriggerScript.Text.Decimal
import TriggerScript.Text.Quoted
import TriggerScript.Text.Sorted
import TriggerScript.Token

/-!
# Grammars

A grammar has productions: each has the name of the rule it belongs to, the symbols it matches one
after the other, and a function that makes one value of the values of the symbols. The productions
of one rule are its alternatives, in the order in which they are declared.

Grammars are written as lists of clauses. Beside plain rules there are clauses for aliases and for
lists with and without separators, which stand for several productions; the rules they need inside
have names that start with a percent sign. `Grammar.ofClauses` makes a grammar of its clauses and
checks that every rule that is mentioned has a production.
-/

namespace TriggerScript

/-- The values that the productions of a grammar work on: a token has a value, and a list of values
can be kept as one value and taken out again. -/
class Phrase (V : Type) where
  ofToken : Token → V
  ofList : List V → V
  /-- The list kept in a value; an error text if the value is no list. -/
  toList : V → Except String (List V)

namespace Grammar

/-- A symbol of a production. -/
inductive Symbol where
  /-- Matches one token of this name. -/
  | terminal (name : String)
  /-- Matches what the rule of this name matches. -/
  | rule (name : String)
deriving Repr, DecidableEq, Inhabited

/-- A symbol from its text: a terminal has a dollar sign in front. -/
def Symbol.ofText (text : String) : Symbol :=
  match text.toList with
  | '$' :: name => terminal (String.ofList name)
  | _ => rule text

/-- The text of a symbol. -/
def Symbol.text : Symbol → String
  | terminal name => "$" ++ name
  | rule name => name

/-- Makes one value of the values of the symbols of a production, or fails with a message. -/
abbrev Reducer (V : Type) := List V → Except String V

/-- One way to match a rule. -/
structure Production (V : Type) where
  /-- The name of the rule. -/
  name : String
  /-- What is matched, one symbol after the other. -/
  symbols : List Symbol
  /-- What is made of the values of the symbols. -/
  reduce : Reducer V

/-- What can be wrong with a grammar or its productions. -/
inductive Error where
  /-- A rule is mentioned that has no production. -/
  | unknownRule (name : String)
  /-- The reducer of a production of the rule failed. -/
  | reduce (rule message : String)
  /-- The rule leads back to itself without taking a token. -/
  | endless (rule : String)
deriving Repr, DecidableEq

/-- The text of an error of a grammar. -/
def Error.message : Error → String
  | unknownRule name => "Unknown grammar rule `" ++ name ++ "`"
  | reduce rule message => "Reducer for `" ++ rule ++ "` failed: " ++ message
  | endless rule => "Rule `" ++ rule ++ "` leads back to itself"

/-- The message of a reducer that needs more values than it gets. -/
def tooFewValues : String :=
  "reducer asked for more values than were matched"

/-- A part of the definition of a grammar. -/
inductive Clause (V : Type) where
  /-- A production. -/
  | rule (name : String) (symbols : List Symbol) (reduce : Reducer V)
  /-- `name` matches what `target` matches. -/
  | same (name : String) (target : Symbol)
  /-- `name` matches any number of items. -/
  | many (name : String) (item : Symbol)
  /-- `name` matches any number of items with separators between them. -/
  | separated (name : String) (item separator : Symbol)

namespace Reducers

variable {V : Type} [Phrase V]

/-- The first value. -/
def first : Reducer V
  | v :: _ => .ok v
  | [] => .error tooFewValues

/-- The second value. -/
def second : Reducer V
  | _ :: v :: _ => .ok v
  | _ => .error tooFewValues

/-- The empty list. -/
def emptyList : Reducer V :=
  fun _ => .ok (Phrase.ofList [])

/-- The first value in front of the list kept in the second. -/
def cons : Reducer V
  | head :: tail :: _ => do
    let items ← Phrase.toList tail
    return Phrase.ofList (head :: items)
  | _ => .error tooFewValues

end Reducers

/-- The name of the `n`-th rule that a list clause needs inside. -/
def hiddenName (n : Nat) : String :=
  "%" ++ Text.natText n

namespace Clause

variable {V : Type} [Phrase V]

/-- How many rules the clause needs inside. -/
def hidden : Clause V → Nat
  | rule .. => 0
  | same .. => 0
  | many .. => 2
  | separated .. => 2

/-- The productions of a list: `name` is empty or a `tail`, a tail is an item and a `rest`, and a
rest is empty or, behind the separator if there is one, another tail. -/
def listProductions (name tail rest : String) (item : Symbol) (separator : Option Symbol) :
    List (Production V) :=
  [⟨name, [], Reducers.emptyList⟩,
    ⟨name, [.rule tail], Reducers.first⟩,
    ⟨tail, [item, .rule rest], Reducers.cons⟩,
    ⟨rest, [], Reducers.emptyList⟩,
    match separator with
    | none => ⟨rest, [.rule tail], Reducers.first⟩
    | some separator => ⟨rest, [separator, .rule tail], Reducers.second⟩]

/-- The productions that a clause stands for, if `used` rules inside clauses are named already. -/
def productions (used : Nat) : Clause V → List (Production V)
  | rule name symbols reduce => [⟨name, symbols, reduce⟩]
  | same name target => [⟨name, [target], Reducers.first⟩]
  | many name item =>
    listProductions name (hiddenName (used + 1)) (hiddenName (used + 2)) item none
  | separated name item separator =>
    listProductions name (hiddenName (used + 1)) (hiddenName (used + 2)) item (some separator)

/-- The productions of a list of clauses. -/
def allProductions (used : Nat) : List (Clause V) → List (Production V)
  | [] => []
  | c :: rest => c.productions used ++ allProductions (used + c.hidden) rest

end Clause

end Grammar

/-- A grammar. -/
structure Grammar (V : Type) where
  /-- The rule that a whole token stream has to match. -/
  entry : String
  /-- The productions, in order of preference for each rule. -/
  productions : List (Grammar.Production V)

namespace Grammar

variable {V : Type}

/-- The alternatives of a rule. -/
def alternatives (g : Grammar V) (name : String) : List (Production V) :=
  g.productions.filter (·.name = name)

/-- Whether the rule has a production. -/
def defines (g : Grammar V) (name : String) : Bool :=
  g.productions.any (·.name = name)

/-- The rules that are mentioned: the entry first, then those in the productions. -/
def mentioned (g : Grammar V) : List String :=
  g.entry :: g.productions.flatMap fun p =>
    p.symbols.filterMap fun
      | .rule name => some name
      | .terminal _ => none

/-- Checks that every rule that is mentioned has a production. -/
def check (g : Grammar V) : Except Error (Grammar V) :=
  match g.mentioned.find? (!g.defines ·) with
  | some name => .error (.unknownRule name)
  | none => .ok g

/-- The grammar of a list of clauses. -/
def ofClauses [Phrase V] (entry : String) (clauses : List (Clause V)) : Except Error (Grammar V) :=
  check ⟨entry, Clause.allProductions 0 clauses⟩

/-- All rules with their alternatives in one line, sorted by the names of the rules. -/
def listing (g : Grammar V) : String :=
  let rule (name : String) : String :=
    let alternatives := (g.alternatives name).map fun p =>
      Text.quoted (String.intercalate " " (p.symbols.map Symbol.text))
    Text.quoted name ++ ": [" ++ String.intercalate ", " alternatives ++ "]"
  let names := Text.sortedSet (g.productions.map (·.name))
  "\x7b" ++ String.intercalate ", " (names.map rule) ++ "\x7d"

end Grammar

end TriggerScript
