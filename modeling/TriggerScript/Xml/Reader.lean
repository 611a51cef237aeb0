import TriggerScript.Text.Decimal
import TriggerScript.Tree

/-!
# Reading XML

A text is split into pieces: tags, runs of text, and markup that has no meaning here (comments,
processing instructions, the declaration, character data and document types). A run of text loses
the blanks around it, and one of blanks only is no piece. The pieces are then put together to a
tree; the first fault in the order of the text is the one that is reported.

The main definition is `Xml.read`.
-/

namespace TriggerScript.Xml

/-- Why a text is no document. -/
inductive ReadError where
  /-- Some markup is not well-formed. -/
  | malformed
  | textOutsideRoot
  | severalRoots
  | unclosedElement
  | emptyDocument
deriving Repr, DecidableEq

/-- The text of a reading error. -/
def ReadError.message : ReadError → String
  | malformed => "Parse error: malformed markup"
  | textOutsideRoot => "Parse error: text outside the root"
  | severalRoots => "Parse error: more than one root"
  | unclosedElement => "Parse error: unclosed element"
  | emptyDocument => "Parse error: empty document"

/-- Whether `c` is a blank of the markup. -/
def isBlank (c : Char) : Bool :=
  c == ' ' || c == '\t' || c == '\r' || c == '\n'

/-- A text without the blanks at its end. -/
def trimEnd (cs : List Char) : List Char :=
  (cs.reverse.dropWhile isBlank).reverse

/-- A piece of a text. -/
inductive Piece where
  /-- A run of text. -/
  | text (raw : List Char)
  /-- A tag that opens an element: what stands between the angle brackets. -/
  | opening (content : List Char)
  /-- A tag of an element without content. -/
  | empty (content : List Char)
  /-- A tag that closes an element: what stands behind the slash. -/
  | closing (content : List Char)
  /-- Markup without meaning. -/
  | skipped
  /-- Markup that is not well-formed; nothing behind it is read. -/
  | malformed
deriving Repr, DecidableEq

/-- Splits a text at the first `>` whose text in front of it, the last character first, is accepted;
`before` is what has been read of that. -/
def splitAtClose (accept : List Char → Bool) (before : List Char) :
    List Char → Option (List Char × List Char)
  | [] => none
  | '>' :: rest =>
    if accept before then some (before.reverse, rest)
    else splitAtClose accept ('>' :: before) rest
  | c :: rest => splitAtClose accept (c :: before) rest

/-- Splits a text at the first `>` that is not inside quotes. -/
def splitAtTagEnd (quote : Option Char) : List Char → Option (List Char × List Char)
  | [] => none
  | c :: rest =>
    match quote with
    | some q =>
      (splitAtTagEnd (if c = q then none else some q) rest).map fun p => (c :: p.1, p.2)
    | none =>
      if c = '>' then some ([], rest)
      else
        (splitAtTagEnd (if c = '"' ∨ c = '\'' then some c else none) rest).map
          fun p => (c :: p.1, p.2)

/-- Whether a text starts with a word, in any case of its letters. -/
def startsWith (word cs : List Char) : Bool :=
  (cs.take word.length).map Char.toUpper = word

/-- A document type, up to the `>` with as many `<` as `>` in front of it. It has a name. -/
def docType (cs : List Char) : Option (Piece × List Char) := do
  let (content, rest) ← splitAtClose (fun before => before.count '<' = before.count '>') [] cs
  if startsWith ['D', 'O', 'C', 'T', 'Y', 'P', 'E'] content && (content.drop 7).any (!isBlank ·) then
    some (.skipped, rest)
  else none

/-- A comment, up to the first `-->` behind its start. -/
def comment (cs : List Char) : Option (Piece × List Char) := do
  let (content, rest) ←
    splitAtClose (fun before => before.length ≥ 4 && before.take 2 = ['-', '-']) [] cs
  if content.take 2 = ['-', '-'] then some (.skipped, rest) else none

/-- Character data, up to the first `]]>`. Its mark is in capitals. -/
def characterData (cs : List Char) : Option (Piece × List Char) := do
  let (content, rest) ← splitAtClose (fun before => before.take 2 = [']', ']']) [] cs
  if content.take 7 = ['[', 'C', 'D', 'A', 'T', 'A', '['] then some (.skipped, rest) else none

/-- A processing instruction or the declaration, up to the first `?>`; the question marks at the two
ends are not the same. -/
def instruction (cs : List Char) : Option (Piece × List Char) := do
  let (content, rest) ←
    splitAtClose (fun before => before.head? = some '?' || before.isEmpty) [] cs
  if content.isEmpty then none else some (.skipped, rest)

/-- The tag with a content: a slash at its end makes it that of an empty element. -/
def tagPiece (content : List Char) : Piece :=
  if content.getLast? = some '/' then .empty content.dropLast else .opening content

/-- The piece of markup behind a `<`, and the text behind it. -/
def markup : List Char → Option (Piece × List Char)
  | [] => none
  | '!' :: '-' :: rest => comment ('-' :: rest)
  | '!' :: '[' :: rest => characterData ('[' :: rest)
  | '!' :: c :: rest => if c = 'D' ∨ c = 'd' then docType (c :: rest) else none
  | ['!'] => none
  | '?' :: rest => instruction rest
  | '/' :: rest => (splitAtTagEnd none rest).map fun (content, rest) => (.closing content, rest)
  | cs =>
    (splitAtTagEnd none cs).map fun (content, rest) => (tagPiece content, rest)

theorem length_of_splitAtClose {accept : List Char → Bool} {before cs content rest : List Char}
    (h : splitAtClose accept before cs = some (content, rest)) : rest.length < cs.length := by
  fun_induction splitAtClose accept before cs with
  | case1 => simp at h
  | case2 before cs ha =>
    obtain ⟨_, rfl⟩ : _ ∧ cs = rest := by simpa using h
    simp
  | case3 before cs ha ih =>
    have := ih h
    simp only [List.length_cons]
    omega
  | case4 before c cs _ ih =>
    have := ih h
    simp only [List.length_cons]
    omega

theorem length_of_splitAtTagEnd {quote : Option Char} {cs content rest : List Char}
    (h : splitAtTagEnd quote cs = some (content, rest)) : rest.length < cs.length := by
  induction cs generalizing quote content with
  | nil => simp [splitAtTagEnd] at h
  | cons c cs ih =>
    have step {q : Option Char}
        (h : (splitAtTagEnd q cs).map (fun p => (c :: p.1, p.2)) = some (content, rest)) :
        rest.length < (c :: cs).length := by
      obtain ⟨⟨tag, rest'⟩, hp, heq⟩ := Option.map_eq_some_iff.mp h
      obtain ⟨_, rfl⟩ : _ ∧ rest' = rest := by simpa using heq
      have := ih hp
      simp only [List.length_cons]
      omega
    cases quote with
    | some q => exact step h
    | none =>
      rw [splitAtTagEnd] at h
      split at h
      · obtain ⟨_, rfl⟩ : _ ∧ cs = rest := by simpa using h
        simp
      · exact step h

theorem length_of_markup {cs rest : List Char} {piece : Piece}
    (h : markup cs = some (piece, rest)) : rest.length < cs.length := by
  unfold markup at h
  split at h
  · simp at h
  · obtain ⟨⟨content, rest'⟩, hs, h⟩ := Option.bind_eq_some_iff.mp h
    have := length_of_splitAtClose hs
    simp only [List.length_cons] at *
    split at h
    · obtain ⟨_, rfl⟩ : _ ∧ rest' = rest := by simpa using h
      omega
    · simp at h
  · obtain ⟨⟨content, rest'⟩, hs, h⟩ := Option.bind_eq_some_iff.mp h
    have := length_of_splitAtClose hs
    simp only [List.length_cons] at *
    split at h
    · obtain ⟨_, rfl⟩ : _ ∧ rest' = rest := by simpa using h
      omega
    · simp at h
  · split at h
    · obtain ⟨⟨content, rest'⟩, hs, h⟩ := Option.bind_eq_some_iff.mp h
      have := length_of_splitAtClose hs
      simp only [List.length_cons] at *
      split at h
      · obtain ⟨_, rfl⟩ : _ ∧ rest' = rest := by simpa using h
        omega
      · simp at h
    · simp at h
  · simp at h
  · obtain ⟨⟨content, rest'⟩, hs, h⟩ := Option.bind_eq_some_iff.mp h
    have := length_of_splitAtClose hs
    simp only [List.length_cons] at *
    split at h
    · simp at h
    · obtain ⟨_, rfl⟩ : _ ∧ rest' = rest := by simpa using h
      omega
  · obtain ⟨⟨content, rest'⟩, hs, h⟩ := Option.map_eq_some_iff.mp h
    have := length_of_splitAtTagEnd hs
    obtain ⟨_, rfl⟩ : _ ∧ rest' = rest := by simpa using h
    simp only [List.length_cons]
    omega
  · obtain ⟨⟨content, rest'⟩, hs, h⟩ := Option.map_eq_some_iff.mp h
    have := length_of_splitAtTagEnd hs
    obtain ⟨_, rfl⟩ : _ ∧ rest' = rest := by simpa using h
    assumption

/-- The pieces of a text. -/
def pieces (cs : List Char) : List Piece :=
  match cs with
  | [] => []
  | c :: rest =>
    if isBlank c then pieces rest
    else if c = '<' then
      match _h : markup rest with
      | none => [.malformed]
      | some (piece, rest') => piece :: pieces rest'
    else .text (trimEnd (c :: rest.takeWhile (· ≠ '<'))) :: pieces (rest.dropWhile (· ≠ '<'))
termination_by cs.length
decreasing_by
  · simp
  · have := length_of_markup _h
    simp only [List.length_cons]
    omega
  · have := (List.dropWhile_sublist (· ≠ '<') (l := rest)).length_le
    simp only [List.length_cons]
    omega

/-- The character of a code point that a document can name by its number. -/
def charOfCode? (n : Nat) : Option Char :=
  if n ≠ 0 ∧ n.isValidChar then some (Char.ofNat n) else none

/-- The character that stands between `&` and `;` by its name or number. -/
def entity? : List Char → Option Char
  | ['l', 't'] => some '<'
  | ['g', 't'] => some '>'
  | ['a', 'm', 'p'] => some '&'
  | ['a', 'p', 'o', 's'] => some '\''
  | ['q', 'u', 'o', 't'] => some '"'
  | '#' :: 'x' :: digits => (Text.natOfHex? digits).bind charOfCode?
  | '#' :: digits => (Text.natOfChars? digits).bind charOfCode?
  | _ => none

/-- A text with its entities resolved; `name` is what has been read of an entity, the last character
first. -/
def unescapedFrom (name : Option (List Char)) : List Char → Option (List Char)
  | [] => if name.isSome then none else some []
  | c :: rest =>
    match name with
    | none =>
      if c = '&' then unescapedFrom (some []) rest else (unescapedFrom none rest).map (c :: ·)
    | some cs =>
      if c = '&' then none
      else if c = ';' then do
        let x ← entity? cs.reverse
        let others ← unescapedFrom none rest
        return x :: others
      else unescapedFrom (some (c :: cs)) rest

/-- A text with its entities resolved. -/
def unescaped? (cs : List Char) : Option String :=
  (unescapedFrom none cs).map String.ofList

/-- Where the reading of attributes stands. Keys and values have their last character first. -/
inductive AttributeState where
  | between
  | key (cs : List Char)
  /-- Behind a key and a blank. -/
  | afterKey (key : List Char)
  /-- Behind an equals sign. -/
  | beforeValue (key : List Char)
  | value (key : List Char) (quote : Char) (cs : List Char)

/-- The attributes of a tag, with values as they are written. -/
def rawAttributes (state : AttributeState) : List Char → Option (List (List Char × List Char))
  | [] =>
    match state with
    | .between => some []
    | _ => none
  | c :: rest =>
    match state with
    | .between => rawAttributes (if isBlank c then .between else .key [c]) rest
    | .key cs =>
      if c = '=' then rawAttributes (.beforeValue cs.reverse) rest
      else rawAttributes (if isBlank c then .afterKey cs.reverse else .key (c :: cs)) rest
    | .afterKey key =>
      if c = '=' then rawAttributes (.beforeValue key) rest
      else if isBlank c then rawAttributes (.afterKey key) rest
      else none
    | .beforeValue key =>
      if c = '"' ∨ c = '\'' then rawAttributes (.value key c []) rest
      else if isBlank c then rawAttributes (.beforeValue key) rest
      else none
    | .value key quote cs =>
      if c = quote then (rawAttributes .between rest).map ((key, cs.reverse) :: ·)
      else rawAttributes (.value key quote (c :: cs)) rest

/-- Whether no key occurs twice. -/
def keysDistinct : List (List Char × List Char) → Bool
  | [] => true
  | (key, _) :: rest => !(rest.any (·.1 = key)) && keysDistinct rest

/-- The attributes of a tag. -/
def attributes? (cs : List Char) : Option (List (String × String)) := do
  let raw ← rawAttributes .between cs
  if keysDistinct raw then
    raw.mapM fun (key, value) => (unescaped? value).map fun value => (String.ofList key, value)
  else none

/-- The name of a tag: what stands in front of the first blank. -/
def tagName (content : List Char) : List Char :=
  content.takeWhile (!isBlank ·)

/-- The node that a tag begins. -/
def node? (content : List Char) : Option Node := do
  let attributes ← attributes? (content.dropWhile (!isBlank ·))
  return { tag := String.ofList (tagName content), attributes }

/-- The name in a closing tag: blanks behind it do not count. -/
def closingName (content : List Char) : List Char :=
  match trimEnd content with
  | [] => content
  | name => name

/-- A tree that is being read. -/
structure Builder where
  /-- The open elements, the innermost first. -/
  stack : List Node := []
  root : Option Node := none

namespace Builder

/-- Adds a finished node to the innermost open element, or makes it the root. -/
def add (b : Builder) (n : Node) : Except ReadError Builder :=
  match b.stack, b.root with
  | parent :: outer, _ =>
    .ok { b with stack := { parent with children := parent.children ++ [n] } :: outer }
  | [], none => .ok { b with root := some n }
  | [], some _ => .error .severalRoots

/-- Takes one piece. -/
def step (b : Builder) : Piece → Except ReadError Builder
  | .skipped => .ok b
  | .malformed => .error .malformed
  | .opening content =>
    match node? content with
    | some n => .ok { b with stack := n :: b.stack }
    | none => .error .malformed
  | .empty content =>
    match node? content with
    | some n => b.add n
    | none => .error .malformed
  | .closing content =>
    match b.stack with
    | n :: outer =>
      if n.tag.toList = closingName content then { b with stack := outer }.add n
      else .error .malformed
    | [] => .error .malformed
  | .text raw =>
    match unescaped? raw, b.stack with
    | none, _ => .error .malformed
    | some s, n :: outer => .ok { b with stack := { n with text := some s } :: outer }
    | some _, [] => .error .textOutsideRoot

/-- The tree, if it is complete. -/
def finish (b : Builder) : Except ReadError Node :=
  match b.stack, b.root with
  | _ :: _, _ => .error .unclosedElement
  | [], some n => .ok n
  | [], none => .error .emptyDocument

end Builder

/-- A text without the mark that can stand in front of it. -/
def withoutMark : List Char → List Char
  | c :: rest => if c.toNat = 0xFEFF then rest else c :: rest
  | [] => []

/-- The tree that a text stands for. -/
def read (s : String) : Except ReadError Node := do
  let builder ← (pieces (withoutMark s.toList)).foldlM Builder.step {}
  builder.finish

end TriggerScript.Xml
