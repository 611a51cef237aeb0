import TriggerScript.Grammar

/-!
# Matching token streams

A grammar is matched against a token stream from the top down, and every way to match is followed:
the alternatives of a rule in their order, and within a production the matches of the first symbol
in their order. Values are reduced as soon as a production has matched. On the way the furthest
place is kept at which a token stood that no production could take there, with the names of the
tokens that would have been taken; it is what an error reports when nothing matches.

A rule that leads back to itself without taking a token would be followed for ever. Matching
therefore has a budget for rules inside rules, which suffices whenever there is no such rule.

The main definitions are `Grammar.parseAll` and `Grammar.Furthest`.
-/

namespace TriggerScript.Grammar

/-- The furthest place at which a token could not be taken, and the names of the tokens that could
have been taken there, sorted. -/
structure Furthest where
  /-- The place in the stream; `none` as long as every token was taken. -/
  index : Option Nat := none
  expected : List String := []
deriving Repr, DecidableEq

namespace Furthest

/-- Nothing was refused. -/
def nowhere : Furthest := {}

/-- At `index` only a token of this name could have been taken. -/
def refused (index : Nat) (name : String) : Furthest :=
  ⟨some index, [name]⟩

/-- The further one of two places, with the names of both if they are the same place. -/
def merge (a b : Furthest) : Furthest :=
  match a.index, b.index with
  | _, none => a
  | none, some _ => b
  | some i, some j =>
    if i < j then b
    else if j < i then a
    else ⟨some i, b.expected.foldl (fun names name => Text.insertSorted name names) a.expected⟩

end Furthest

/-- The matches found from one place on, each with the place behind it, and the furthest place at
which a token could not be taken meanwhile. -/
structure Found (α : Type) where
  results : List (α × Nat) := []
  furthest : Furthest := .nowhere

namespace Found

variable {α β : Type}

/-- The matches of several searches in order. -/
def concat (found : List (Found α)) : Found α where
  results := found.flatMap (·.results)
  furthest := found.foldl (fun furthest f => furthest.merge f.furthest) .nowhere

/-- Changes the value of each match. -/
def map (f : α → β) (found : Found α) : Found β :=
  ⟨found.results.map fun (v, stop) => (f v, stop), found.furthest⟩

end Found

variable {V : Type} [Phrase V]

/-- Matches one symbol at a place; `expand` matches rules. -/
def matchSymbol (tokens : Array Token) (expand : String → Nat → Except Error (Found V)) :
    Symbol → Nat → Except Error (Found V)
  | .rule name, place => expand name place
  | .terminal name, place =>
    match tokens[place]? with
    | none => .ok {}
    | some token =>
      if token.name = name then .ok ⟨[(Phrase.ofToken token, place + 1)], .nowhere⟩
      else .ok ⟨[], .refused place name⟩

/-- Matches symbols one after the other: every match of the first is followed by every match of the
others from there on. -/
def matchSequence (tokens : Array Token) (expand : String → Nat → Except Error (Found V)) :
    List Symbol → Nat → Except Error (Found (List V))
  | [], place => .ok ⟨[([], place)], .nowhere⟩
  | symbol :: symbols, place => do
    let heads ← matchSymbol tokens expand symbol place
    let tails ← heads.results.mapM fun (head, stop) => do
      return (← matchSequence tokens expand symbols stop).map (head :: ·)
    return Found.concat (⟨[], heads.furthest⟩ :: tails)

/-- Matches a production and reduces every match. -/
def matchProduction (tokens : Array Token) (expand : String → Nat → Except Error (Found V))
    (place : Nat) (p : Production V) : Except Error (Found V) := do
  let found ← matchSequence tokens expand p.symbols place
  let results ← found.results.mapM fun (values, stop) =>
    match p.reduce values with
    | .ok v => .ok (v, stop)
    | .error message => .error (.reduce p.name message)
  return ⟨results, found.furthest⟩

/-- Matches a rule at a place, following rules inside rules at most `budget` deep. -/
def expand (g : Grammar V) (tokens : Array Token) :
    Nat → String → Nat → Except Error (Found V)
  | 0, name, _ => .error (.endless name)
  | budget + 1, name, place =>
    match g.alternatives name with
    | [] => .error (.unknownRule name)
    | productions => do
      let found ← productions.mapM (matchProduction tokens (expand g tokens budget) place)
      return Found.concat found

/-- How deep rules can lie inside rules as long as no rule comes back to itself at the same place
of a stream of `size` tokens. -/
def budget (g : Grammar V) (size : Nat) : Nat :=
  g.productions.length * (size + 1) + 1

/-- A token that the grammar does not allow where it stands. -/
structure Unexpected where
  /-- The byte offset of the token. -/
  offset : Nat
  /-- Its name. -/
  found : String
  /-- Its text. -/
  foundText : String
  /-- The names of the tokens that the grammar allows there, sorted. -/
  expected : List String
deriving Repr, DecidableEq

/-- The text of the error that an unexpected token is. -/
def Unexpected.message (e : Unexpected) : String :=
  let text := if e.foundText = "" ∨ e.foundText = e.found then "" else " `" ++ e.foundText ++ "`"
  "Parse failed at offset " ++ Text.natText e.offset ++ ": found " ++ e.found ++ text ++
    ", expected one of: " ++ String.intercalate ", " e.expected

/-- The token at the furthest place of a stream, which lies in front of the end. -/
def Furthest.unexpected (f : Furthest) (tokens : Array Token) : Unexpected :=
  match tokens[min (f.index.getD 0) (tokens.size - 1)]? with
  | some token => ⟨token.offset, token.name, token.raw, f.expected⟩
  | none => ⟨0, "", "", f.expected⟩

/-- Why a token stream has no value. -/
inductive Failure where
  /-- No way to match the whole stream. -/
  | unexpected (e : Unexpected)
  /-- The grammar is at fault. -/
  | grammar (e : Error)
deriving Repr, DecidableEq

/-- The values of all ways to match the whole token stream, in order of preference; `length` is the
number of bytes of the source. -/
def parseAll (g : Grammar V) (tokens : List Token) (length : Nat) : Except Failure (List V) :=
  let stream := (Token.enclose tokens length).toArray
  let whole := [.terminal Token.beginName, .rule g.entry, .terminal Token.endName]
  match matchSequence stream (g.expand stream (g.budget stream.size)) whole 0 with
  | .error e => .error (.grammar e)
  | .ok found =>
    let values := found.results.filterMap fun (values, stop) =>
      if stop = stream.size then values[1]? else none
    if values.isEmpty then .error (.unexpected (found.furthest.unexpected stream))
    else .ok values

end TriggerScript.Grammar
