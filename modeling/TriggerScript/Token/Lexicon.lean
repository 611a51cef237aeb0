import TriggerScript.Pattern
import TriggerScript.Token.Reading

/-!
# Lexicons

A lexicon says how a source text is split into tokens. At each place text to ignore is skipped
first. Otherwise the first keyword that stands there is the token, even where a later keyword or a
pattern would take more text; and where no keyword stands, the first pattern with a non-empty
match. The text of a token is its value unless the lexicon has a reading for tokens of that name.
The patterns can be of any kind (`Matching`); those of the two languages are of the kind `Pattern`.

The main definition is `Lexicon.tokenize`.
-/

namespace TriggerScript

/-- How a source text is split into tokens. -/
structure Lexicon (P : Type := Pattern) where
  /-- The text between tokens. -/
  ignore : P
  /-- The words that are tokens of their own name, the preferred ones first. -/
  keywords : List String
  /-- The named patterns, the preferred ones first. -/
  patterns : List (String × P)
  /-- How the text of the tokens of a name is read; a later entry for a name replaces an
  earlier one. -/
  readings : List (String × Reading)

/-- No token can be read at this byte offset. -/
structure LexError where
  offset : Nat
deriving Repr, DecidableEq

/-- The text of a lexical error. -/
def LexError.message (e : LexError) : String :=
  "Failed to lex around offset " ++ Text.natText e.offset

namespace Lexicon

variable {P : Type}

/-- How the text of tokens named `name` is read. -/
def reading (lex : Lexicon P) (name : String) : Reading :=
  (lex.readings.reverse.lookup name).getD .plain

/-- The first non-empty keyword that stands at `c`, with the place behind it. -/
def keywordAt? (lex : Lexicon P) (c : Cursor) : Option (String × c.Later) :=
  lex.keywords.findSome? fun keyword =>
    ((c.skip? keyword.toList).bind c.later?).map fun c' => (keyword, c')

variable [Matching P]

/-- The first pattern with a non-empty match at `c`, with the place behind the match. -/
def patternAt? (lex : Lexicon P) (c : Cursor) : Option (String × c.Later) :=
  lex.patterns.findSome? fun (name, pattern) =>
    (Matching.matchSome? pattern c).map fun c' => (name, c')

/-- The name of the token that begins at `c`, with the place behind it. -/
def tokenAt? (lex : Lexicon P) (c : Cursor) : Option (String × c.Later) :=
  lex.keywordAt? c <|> lex.patternAt? c

/-- The tokens from the place `c` on, which is `offset` bytes into the source. Each step takes
some text, so the text that is left becomes shorter. -/
def tokensFrom (lex : Lexicon P) (c : Cursor) (offset : Nat) : Except LexError (List Token) :=
  if c.left = 0 then .ok []
  else
    match Matching.matchSome? lex.ignore c with
    | some ⟨c', _⟩ => lex.tokensFrom c' (offset + (c.textUntil c').utf8ByteSize)
    | none =>
      match lex.tokenAt? c with
      | none => .error ⟨offset⟩
      | some (name, ⟨c', _⟩) =>
        match lex.reading name (c.textUntil c') with
        | none => .error ⟨offset⟩
        | some value => do
          let tokens ← lex.tokensFrom c' (offset + (c.textUntil c').utf8ByteSize)
          return ⟨name, c.textUntil c', value, offset⟩ :: tokens
termination_by c.left

/-- Splits a source text into its tokens. -/
def tokenize (lex : Lexicon P) (source : String) : Except LexError (List Token) :=
  lex.tokensFrom (Cursor.start source.toList) 0

end Lexicon

end TriggerScript
