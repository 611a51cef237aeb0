import TriggerScript.Token.Lexicon

/-!
# The words of the two languages

The program language and the catalog language share their white space, comments, strings and
labels. Keywords are taken before any pattern, so a label cannot begin with the spelling of a
keyword.
-/

namespace TriggerScript

namespace Words

open Pattern

/-- White space and comments, which run from two slashes to the end of the line. -/
def layout : Pattern :=
  plus (alt (plus (one (.ofList [' ', '\t', '\r', '\n'])))
    (seq (word ['/', '/']) (star (one (.other (.single '\n'))))))

/-- A quoted string; it can run over several lines, and nothing in it is escaped. -/
def str : Pattern :=
  seq (one (.single '"')) (seq (star (one (.other (.single '"')))) (one (.single '"')))

/-- A label: a letter or an underscore, then letters, numbers and underscores. -/
def label : Pattern :=
  seq (one (.union .letter (.single '_')))
    (star (one (.union .letter (.union .number (.single '_')))))

/-- An id: eight hexadecimal digits that end a word. -/
def id : Pattern :=
  seq (times (one (.union (.range '0' '9') (.union (.range 'A' 'F') (.range 'a' 'f')))) 8) boundary

/-- A text: a string behind the word `text`. -/
def text : Pattern :=
  seq (word ['t', 'e', 'x', 't']) str

/-- An integer with an optional minus sign. -/
def int : Pattern :=
  seq (opt (one (.single '-'))) (plus (one .digit))

/-- A truth value that ends a word. -/
def bool : Pattern :=
  seq (alt (word ['t', 'r', 'u', 'e']) (word ['f', 'a', 'l', 's', 'e'])) boundary

/-- How the tokens of both languages are read. -/
def readings : List (String × Reading) :=
  [("str", .stripQuotes), ("text", .stripQuotes), ("int", .int), ("bool", .bool)]

end Words

/-- The words of the program language. -/
def programLexicon : Lexicon where
  ignore := Words.layout
  keywords :=
    ["import", "library", "preset", "trigger", "function", "action", "event", "->", ";", ".",
      ",", "\x7b", "\x7d", "[", "]", "(", ")", "<", ">", ":", "="]
  patterns :=
    [("id", Words.id), ("text", Words.text), ("str", Words.str), ("int", Words.int),
      ("bool", Words.bool), ("label", Words.label)]
  readings := Words.readings ++ [("id", .upperCase)]

/-- The words of the catalog language. -/
def catalogLexicon : Lexicon where
  ignore := Words.layout
  keywords := ["library", "folder", ",", "\x7b", "\x7d"]
  patterns := [("str", Words.str), ("label", Words.label)]
  readings := Words.readings

end TriggerScript
