import TriggerScript.Grammar.Matching
import TriggerScript.Token.Lexicon

/-!
# Failures of a compilation

Everything that can go wrong between a source text and a document, with the texts of the errors.
-/

namespace TriggerScript

/-- Why a program or a catalog has no document. -/
inductive LoweringError where
  /-- A name that nothing in scope bears. -/
  | unresolved (name : String)
  /-- A catalog lists a definition that the program does not have. -/
  | unknownDefinition (name : String)
  /-- The program is put together in a way that has no meaning. -/
  | shape (message : String)
  /-- A place of the document is filled that is not open. -/
  | placeTaken (library : String) (place : Nat)
  /-- The defaults of imported parameters lead to one another without end. -/
  | endlessDefaults
deriving Repr, DecidableEq

/-- The text of a lowering error. -/
def LoweringError.message : LoweringError → String
  | unresolved name => "Unresolved symbol `" ++ name ++ "`"
  | unknownDefinition name => "Catalog entry `" ++ name ++ "` matches no known definition"
  | shape message => message
  | placeTaken library place =>
    "Place " ++ Text.natText place ++ " of `" ++ library ++ "` is not open"
  | endlessDefaults => "Defaults of imported parameters lead to one another without end"

/-- Why a source text cannot be compiled. -/
inductive CompileError where
  | lex (e : LexError)
  | parse (e : Grammar.Unexpected)
  | grammar (e : Grammar.Error)
  | lowering (e : LoweringError)
  /-- An id counter is outside its range. -/
  | counter
deriving Repr, DecidableEq

namespace CompileError

/-- The text of an error. -/
def message : CompileError → String
  | lex e => e.message
  | parse e => e.message
  | grammar e => e.message
  | lowering e => e.message
  | counter => "an id counter left its range"

/-- The byte offset of an error that has one. -/
def offset? : CompileError → Option Nat
  | lex e => some e.offset
  | parse e => some e.offset
  | _ => none

/-- The error that a failure to parse is. -/
def ofFailure : Grammar.Failure → CompileError
  | .unexpected e => parse e
  | .grammar e => grammar e

end CompileError

end TriggerScript
