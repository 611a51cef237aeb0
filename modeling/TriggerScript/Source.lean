import TriggerScript.Catalog.Grammar
import TriggerScript.Event
import TriggerScript.Failure
import TriggerScript.Program.Grammar
import TriggerScript.Words

/-!
# From source texts to syntax trees

Reading a source text means splitting it into tokens and parsing these. Both steps report what they
have done, and a source with several parses is reported too: the first one is taken.

The main definitions are `Program.ofSource` and `Catalog.ofSource`.
-/

namespace TriggerScript

/-- Splits a source text into tokens and reports their number. -/
def Lexicon.read (lex : Lexicon) (source : String) : Run LexError (List Token) := do
  let tokens ← Run.ofExcept (lex.tokenize source)
  Run.report ⟨.debug, "tokenized source", [("tokens", Text.natText tokens.length)]⟩
  return tokens

/-- The preferred value of a token stream; that there are others is reported. -/
def Grammar.read {V : Type} [Phrase V] (g : Grammar V) (tokens : List Token) (length : Nat) :
    Run CompileError V := do
  let values ← (Run.ofExcept (g.parseAll tokens length)).mapError .ofFailure
  if values.length > 1 then
    Run.report ⟨.warn, "ambiguous input, using the first parse",
      [("entry", g.entry), ("parses", Text.natText values.length)]⟩
  match values with
  | v :: _ => return v
  | [] => throw (.grammar (.unknownRule g.entry))

/-- The program that a token stream stands for; `length` is the number of bytes of the source. -/
def Program.ofTokens (tokens : List Token) (length : Nat) : Run CompileError Program := do
  let phrase ← programGrammar.read tokens length
  let program ← (Run.ofExcept phrase.toProgram).mapError fun e => .grammar (.reduce "program" e)
  Run.report ⟨.debug, "parsed program", [("scopes", Text.natText program.scopes.length)]⟩
  return program

/-- The program that a source text stands for. -/
def Program.ofSource (source : String) : Run CompileError Program := do
  let tokens ← (programLexicon.read source).mapError .lex
  Program.ofTokens tokens source.utf8ByteSize

/-- The catalog that a token stream stands for; `length` is the number of bytes of the source. -/
def Catalog.ofTokens (tokens : List Token) (length : Nat) : Run CompileError Catalog := do
  let phrase ← catalogGrammar.read tokens length
  let catalog ← (Run.ofExcept phrase.toCatalog).mapError fun e => .grammar (.reduce "catalog" e)
  Run.report ⟨.debug, "parsed catalog", [("libraries", Text.natText catalog.libraries.length)]⟩
  return catalog

/-- The catalog that a source text stands for. -/
def Catalog.ofSource (source : String) : Run CompileError Catalog := do
  let tokens ← (catalogLexicon.read source).mapError .lex
  Catalog.ofTokens tokens source.utf8ByteSize

end TriggerScript
