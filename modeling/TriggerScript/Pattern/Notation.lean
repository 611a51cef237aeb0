import TriggerScript.Pattern

/-!
# The written form of patterns

Patterns are written in the usual notation of regular expressions: characters stand for
themselves, `.` for any character but the line feed, `[…]` and `[^…]` for character classes,
`\d`, `\s`, `\w`, `\p{L}` and `\p{N}` for named classes, `\b` for a word boundary, `(…)` and
`(?:…)` for groups, `|` for alternatives, and `*`, `+`, `?` and `{n}` for repetitions.

Reading goes in two steps. `lexemes` resolves the escapes; `Reader.step` then takes one lexeme at a
time and keeps the open groups on a stack. The main definition is `Pattern.ofNotation?`.
-/

namespace TriggerScript.Pattern

/-- A unit of the notation. -/
inductive Lexeme where
  /-- A character that may have a meaning of its own. -/
  | sign (c : Char)
  /-- A character that stands for itself. -/
  | plain (c : Char)
  /-- A named class. -/
  | chars (chars : CharClass)
  /-- A word boundary. -/
  | boundary
  /-- The start of a group. -/
  | openGroup
deriving Repr, DecidableEq

/-- The unit that a backslash in front of `c` stands for. -/
def escape? (c : Char) : Option Lexeme :=
  match c with
  | 'd' => some (.chars .digit)
  | 's' => some (.chars .blank)
  | 'w' => some (.chars .word)
  | 'b' => some .boundary
  | 'n' => some (.plain '\n')
  | 'r' => some (.plain '\r')
  | 't' => some (.plain '\t')
  | _ => if c.isAlphanum then none else some (.plain c)

/-- The units of a written pattern. -/
def lexemes : List Char → Option (List Lexeme)
  | [] => some []
  | '\\' :: 'p' :: '{' :: 'L' :: '}' :: rest => (lexemes rest).map (.chars .letter :: ·)
  | '\\' :: 'p' :: '{' :: 'N' :: '}' :: rest => (lexemes rest).map (.chars .number :: ·)
  | '\\' :: c :: rest => do
    let first ← escape? c
    return first :: (← lexemes rest)
  | ['\\'] => none
  | '(' :: '?' :: ':' :: rest => (lexemes rest).map (.openGroup :: ·)
  | '(' :: rest => (lexemes rest).map (.openGroup :: ·)
  | c :: rest => (lexemes rest).map (.sign c :: ·)

/-- A group that is still open: the alternatives that are complete, and the parts of the current
one, the last part first. -/
structure Group where
  complete : Option Pattern := none
  parts : List Pattern := []

namespace Group

/-- The current alternative. -/
def current (g : Group) : Pattern :=
  match g.parts with
  | [] => .empty
  | last :: earlier => earlier.foldl (fun rest part => .seq part rest) last

/-- The alternatives read so far as one pattern. -/
def close (g : Group) : Pattern :=
  match g.complete with
  | none => g.current
  | some p => .alt p g.current

/-- Starts the next alternative. -/
def nextAlternative (g : Group) : Group :=
  ⟨some g.close, []⟩

/-- Adds a part to the current alternative. -/
def add (g : Group) (p : Pattern) : Group :=
  { g with parts := p :: g.parts }

/-- Repeats the last part. -/
def repeatLast? (g : Group) (f : Pattern → Pattern) : Option Group :=
  match g.parts with
  | [] => none
  | last :: earlier => some { g with parts := f last :: earlier }

end Group

/-- A character class that is still open. -/
structure OpenClass where
  /-- Whether the class is the complement of what is listed. -/
  negated : Bool := false
  /-- What is listed so far, `none` right after the bracket. -/
  content : Option CharClass := none
  /-- The last character, as long as a range could start with it. -/
  last : Option Char := none
  /-- Whether a dash stands behind `last`. -/
  dash : Bool := false

namespace OpenClass

/-- Adds characters to the class. -/
def add (k : OpenClass) (chars : CharClass) : OpenClass :=
  { k with
    content := some (match k.content with | none => chars | some old => .union old chars)
    last := none
    dash := false }

/-- Moves the pending character and dash into the class. -/
def settle (k : OpenClass) : OpenClass :=
  match k.last, k.dash with
  | none, _ => k
  | some c, false => k.add (.single c)
  | some c, true => (k.add (.single c)).add (.single '-')

/-- Reads a character that stands for itself. -/
def character? (k : OpenClass) (c : Char) : Option OpenClass :=
  match k.last, k.dash with
  | some lo, true => if lo ≤ c then some (k.add (.range lo c)) else none
  | _, _ => some { k.settle with last := some c }

/-- The finished class. -/
def close (k : OpenClass) : CharClass :=
  let listed := k.settle.content.getD .nothing
  if k.negated then .other listed else listed

end OpenClass

/-- What the next lexeme belongs to. -/
inductive Mode where
  /-- The pattern itself. -/
  | outside
  /-- A character class. -/
  | inClass (chars : OpenClass)
  /-- The number of a counted repetition. -/
  | inCount (digits : List Char)

/-- A pattern that is being read. -/
structure Reader where
  /-- What the next lexeme belongs to. -/
  mode : Mode := .outside
  /-- The innermost open group. -/
  group : Group := {}
  /-- The groups around it, the innermost first. -/
  outer : List Group := []

namespace Reader

/-- Adds a part to the innermost group. -/
def add (r : Reader) (p : Pattern) : Reader :=
  { r with group := r.group.add p }

/-- Repeats the last part of the innermost group. -/
def repeatLast? (r : Reader) (f : Pattern → Pattern) : Option Reader :=
  (r.group.repeatLast? f).map fun group => { r with group }

/-- Reads a lexeme of the pattern itself. -/
def stepOutside (r : Reader) : Lexeme → Option Reader
  | .plain c => some (r.add (.one (.single c)))
  | .chars chars => some (r.add (.one chars))
  | .boundary => some (r.add .boundary)
  | .openGroup => some { r with group := {}, outer := r.group :: r.outer }
  | .sign ')' =>
    match r.outer with
    | [] => none
    | group :: outer => some { r with group := group.add r.group.close, outer }
  | .sign '|' => some { r with group := r.group.nextAlternative }
  | .sign '*' => r.repeatLast? .star
  | .sign '+' => r.repeatLast? .plus
  | .sign '?' => r.repeatLast? .opt
  | .sign '.' => some (r.add (.one .anyInLine))
  | .sign '[' => some { r with mode := .inClass {} }
  | .sign '{' => some { r with mode := .inCount [] }
  | .sign c => some (r.add (.one (.single c)))

/-- Goes on inside a character class. -/
def inside (r : Reader) (k : Option OpenClass) : Option Reader :=
  k.map fun k => { r with mode := .inClass k }

/-- Reads a lexeme of a character class. -/
def stepClass (r : Reader) (k : OpenClass) : Lexeme → Option Reader
  | .plain c => r.inside (k.character? c)
  | .chars chars => r.inside (some (k.settle.add chars))
  | .boundary => none
  | .openGroup => r.inside (k.character? '(')
  | .sign ']' =>
    if k.content.isNone && k.last.isNone then r.inside (k.character? ']')
    else some { r with mode := .outside, group := r.group.add (.one k.close) }
  | .sign '^' =>
    if k.content.isNone && k.last.isNone && !k.negated then
      some { r with mode := .inClass { k with negated := true } }
    else r.inside (k.character? '^')
  | .sign '-' =>
    if k.last.isSome && !k.dash then some { r with mode := .inClass { k with dash := true } }
    else r.inside (k.character? '-')
  | .sign c => r.inside (k.character? c)

/-- Reads a lexeme of the number of a counted repetition. -/
def stepCount (r : Reader) (digits : List Char) : Lexeme → Option Reader
  | .sign '}' =>
    if digits.isEmpty then none
    else
      let count := digits.reverse.foldl (fun n c => 10 * n + (c.toNat - '0'.toNat)) 0
      { r with mode := .outside }.repeatLast? (.times · count)
  | .sign c => if c.isDigit then some { r with mode := .inCount (c :: digits) } else none
  | _ => none

/-- Reads one lexeme. -/
def step (r : Reader) (l : Lexeme) : Option Reader :=
  match r.mode with
  | .outside => r.stepOutside l
  | .inClass k => r.stepClass k l
  | .inCount digits => r.stepCount digits l

/-- The pattern, if nothing is left open. -/
def finish (r : Reader) : Option Pattern :=
  match r.mode, r.outer with
  | .outside, [] => some r.group.close
  | _, _ => none

end Reader

/-- The pattern that a text denotes; `none` if the text is malformed. -/
def ofNotation? (s : String) : Option Pattern := do
  let units ← lexemes s.toList
  let reader ← units.foldlM Reader.step {}
  reader.finish

end TriggerScript.Pattern
