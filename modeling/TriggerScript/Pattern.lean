import TriggerScript.Text.Blank
import TriggerScript.Text.Word

/-!
# Token patterns

A pattern describes the texts a token can have. Matching starts at a place of the source, looks
for the first way to match in order of preference (the left side of an alternative first, more
repetitions before fewer) and answers with the place behind the match.

Splitting a text into tokens needs no more of patterns than where their matches end (`Matching`).

The main definitions are `Pattern`, `Cursor` and `Pattern.match?`.
-/

namespace TriggerScript

/-- A set of characters. -/
inductive CharClass where
  /-- Exactly this character. -/
  | single (c : Char)
  /-- The characters from `lo` to `hi`, both included. -/
  | range (lo hi : Char)
  /-- The decimal digits of all scripts. -/
  | digit
  /-- The letters of all scripts. -/
  | letter
  /-- The numbers of all scripts. -/
  | number
  /-- White space of any script. -/
  | blank
  /-- The characters that words are made of. -/
  | word
  /-- No character. -/
  | nothing
  /-- The characters of either class. -/
  | union (a b : CharClass)
  /-- The characters that are not in the class. -/
  | other (a : CharClass)
deriving Repr, DecidableEq

namespace CharClass

/-- Whether the class has the character `c`. -/
def contains : CharClass → Char → Bool
  | single x, c => c == x
  | range lo hi, c => lo ≤ c && c ≤ hi
  | digit, c => Text.isDecimalDigit c
  | letter, c => Text.isLetter c
  | number, c => Text.isNumber c
  | blank, c => Text.isBlank c
  | word, c => Text.isWord c
  | nothing, _ => false
  | union a b, c => a.contains c || b.contains c
  | other a, c => !a.contains c

/-- Every character but the line feed. -/
def anyInLine : CharClass :=
  other (single '\n')

/-- The class of the characters of a list. -/
def ofList : List Char → CharClass
  | [] => nothing
  | [c] => single c
  | c :: rest => union (single c) (ofList rest)

end CharClass

/-- A place in a text: the character in front of it, if there is one, and the text behind it
together with its length. -/
structure Cursor where
  /-- The character just before this place, `none` at the start. -/
  before : Option Char
  /-- The text from this place on. -/
  rest : List Char
  /-- How many characters `rest` has. -/
  left : Nat
  left_eq : left = rest.length

namespace Cursor

/-- The start of a text. -/
def start (text : List Char) : Cursor :=
  ⟨none, text, text.length, rfl⟩

/-- The same place, with nothing in front of it. -/
def restart (c : Cursor) : Cursor :=
  { c with before := none }

/-- The character at this place and the place behind it. -/
def next? : Cursor → Option (Char × Cursor)
  | ⟨_, [], _, _⟩ => none
  | ⟨_, x :: xs, n, h⟩ => some (x, ⟨some x, xs, n - 1, by simp [h]⟩)

/-- The place behind `word`, if `word` stands here. -/
def skip? (c : Cursor) : List Char → Option Cursor
  | [] => some c
  | x :: word =>
    match c.next? with
    | some (y, c') => if x = y then c'.skip? word else none
    | none => none

/-- The text between this place and a later one. -/
def textUntil (c later : Cursor) : String :=
  String.ofList (c.rest.take (c.left - later.left))

/-- A place that lies behind `c` with some text in between. -/
abbrev Later (c : Cursor) :=
  { c' : Cursor // c'.left < c.left }

/-- The place `c'`, if it lies behind `c`. -/
def later? (c c' : Cursor) : Option c.Later :=
  if h : c'.left < c.left then some ⟨c', h⟩ else none

/-- Whether a word begins or ends at this place. -/
def atBoundary (c : Cursor) : Bool :=
  c.before.any Text.isWord != (c.rest.head?.any Text.isWord)

end Cursor

/-- A token pattern. -/
inductive Pattern where
  /-- Matches the empty text. -/
  | empty
  /-- Matches one character of the class. -/
  | one (chars : CharClass)
  /-- Matches the empty text where a word begins or ends. -/
  | boundary
  /-- Matches `first`, then `second`. -/
  | seq (first second : Pattern)
  /-- Matches `left`, or else `right`. -/
  | alt (left right : Pattern)
  /-- Matches `body` any number of times, as often as possible. -/
  | star (body : Pattern)
deriving Repr, DecidableEq

namespace Pattern

/-- Repeats `body` from `c` on, at most `bound` times, as often as `k` accepts the rest; a
repetition that takes no text is no repetition. -/
def repeatRun {α : Type} (body : Cursor → (Cursor → Option α) → Option α) :
    Nat → Cursor → (Cursor → Option α) → Option α
  | 0, c, k => k c
  | bound + 1, c, k =>
    match body c fun c' => if c'.left < c.left then repeatRun body bound c' k else none with
    | some r => some r
    | none => k c

/-- Tries the ways to match the pattern at `c` in order of preference and answers with the first
one whose end `k` accepts. The bound on repetitions is the length of the text that is left: each
repetition takes some of it. -/
def run {α : Type} : Pattern → Cursor → (Cursor → Option α) → Option α
  | empty, c, k => k c
  | one chars, c, k =>
    match c.next? with
    | some (x, c') => if chars.contains x then k c' else none
    | none => none
  | boundary, c, k => if c.atBoundary then k c else none
  | seq p q, c, k => p.run c fun c' => q.run c' k
  | alt p q, c, k =>
    match p.run c k with
    | some r => some r
    | none => q.run c k
  | star p, c, k => repeatRun p.run c.left c k

/-- The end of the preferred match of the pattern at `c`. -/
def match? (p : Pattern) (c : Cursor) : Option Cursor :=
  p.run c some

/-- One or more repetitions. -/
def plus (p : Pattern) : Pattern :=
  seq p (star p)

/-- The pattern or nothing. -/
def opt (p : Pattern) : Pattern :=
  alt p empty

/-- Exactly `n` repetitions. -/
def times (p : Pattern) : Nat → Pattern
  | 0 => empty
  | 1 => p
  | n + 1 => seq p (times p n)

/-- Exactly the text `s`. -/
def word (s : List Char) : Pattern :=
  match s with
  | [] => empty
  | [c] => one (.single c)
  | c :: rest => seq (one (.single c)) (word rest)

end Pattern

/-- Patterns of some kind, of which it is known where their preferred matches end. -/
class Matching (P : Type) where
  /-- The end of the preferred match of a pattern at a place. -/
  match? : P → Cursor → Option Cursor

instance : Matching Pattern := ⟨Pattern.match?⟩

/-- The end of the preferred match at `c`, unless that match is empty. The pattern looks at the text
from `c` on as if nothing stood in front of it. -/
def Matching.matchSome? {P : Type} [Matching P] (p : P) (c : Cursor) : Option c.Later :=
  (match? p c.restart).bind c.later?

end TriggerScript
