import TriggerScript.Text.Decimal

/-!
# Excerpts of a source

An error report shows the line of the error, marked, with two lines around it on either side.
-/

namespace TriggerScript.Excerpt

/-- The lines of a text. A line ends at a line feed, with a carriage return in front of it or not;
behind the last line feed there is a line only if there is some text. -/
def linesFrom (line : List Char) : List Char → List (List Char)
  | [] => if line.isEmpty then [] else [line.reverse]
  | '\n' :: rest =>
    (match line with
      | '\r' :: line => line.reverse
      | line => line.reverse) :: linesFrom [] rest
  | c :: rest => linesFrom (c :: line) rest

/-- The lines of a text. -/
def lines (s : String) : List (List Char) :=
  linesFrom [] s.toList

/-- The number of line feeds in front of a byte offset. -/
def lineFeedsBefore : Nat → List Char → Nat
  | _, [] => 0
  | offset, c :: rest =>
    if offset = 0 then 0
    else (if c = '\n' then 1 else 0) + lineFeedsBefore (offset - c.utf8Size) rest

/-- A number with spaces in front of it, at least three characters wide. -/
def column (n : Nat) : List Char :=
  let digits := Text.natChars n
  List.replicate (3 - digits.length) ' ' ++ digits

/-- A line of the excerpt; `index` counts from zero. -/
def row (marked : Bool) (index : Nat) (line : List Char) : List Char :=
  (if marked then ['>', '>'] else [' ', ' ']) ++ ' ' :: column (index + 1) ++
    ' ' :: '|' :: ' ' :: line ++ ['\n']

/-- The lines from two before to two after the line of the error, which is marked. -/
def around (error : Nat) (lines : List (List Char)) : List Char :=
  (lines.zipIdx.filter fun (_, i) => error ≤ i + 2 ∧ i ≤ error + 2).flatMap fun (line, i) =>
    row (i = error) i line

/-- The lines around a byte offset of a source, the one with the offset marked. -/
def render (source : String) (offset : Nat) : String :=
  String.ofList (around (lineFeedsBefore offset source.toList) (lines source))

end TriggerScript.Excerpt
