import TriggerScript.Proofs.Document.Nodes
import TriggerScript.Proofs.Xml.Markup

/-!
# Reading back what is written

A tree whose names are made of letters is read back from its text with the same tags, attributes and
children. Only its texts can change: one loses the blanks around it, and one of blanks only is lost
(`Xml.read_render`). Documents have such names, whatever their libraries are called.
-/

namespace TriggerScript

namespace Node

mutual

/-- A tree with other texts; where there is none for a text, the node is left without one. -/
def mapTexts (f : String → Option String) : Node → Node
  | ⟨tag, attributes, children, text⟩ => ⟨tag, attributes, mapTextsAll f children, text.bind f⟩

/-- Several trees with other texts. -/
def mapTextsAll (f : String → Option String) : List Node → List Node
  | [] => []
  | n :: rest => mapTexts f n :: mapTextsAll f rest

end

lemma tag_mapTexts (f : String → Option String) (n : Node) : (n.mapTexts f).tag = n.tag := by
  cases n
  rfl

/-- The tags and the attributes of a tree. -/
def withoutTexts (n : Node) : Node :=
  n.mapTexts fun _ => none

mutual

lemma withoutTexts_mapTexts (f : String → Option String) :
    ∀ n : Node, (n.mapTexts f).withoutTexts = n.withoutTexts
  | ⟨tag, attributes, children, text⟩ => by
    have htext : (text.bind f).bind (fun _ => (none : Option String)) = text.bind fun _ => none := by
      cases text <;> simp
    simp only [withoutTexts, mapTexts, withoutTexts_mapTextsAll f children, htext]

lemma withoutTexts_mapTextsAll (f : String → Option String) : ∀ ns : List Node,
    mapTextsAll (fun _ => none) (mapTextsAll f ns) = mapTextsAll (fun _ => none) ns
  | [] => rfl
  | n :: rest => by
    simp only [mapTextsAll, withoutTexts_mapTextsAll f rest]
    exact congrArg (· :: _) (withoutTexts_mapTexts f n)

end

lemma every_mk_iff {P : Node → Prop} {tag : String} {attributes : List (String × String)}
    {children : List Node} {text : Option String} :
    (⟨tag, attributes, children, text⟩ : Node).Every P ↔
      P ⟨tag, attributes, children, text⟩ ∧ ∀ child ∈ children, child.Every P :=
  ⟨fun ⟨hn, hchildren⟩ => ⟨hn, hchildren⟩, fun ⟨hn, hchildren⟩ => ⟨hn, hchildren⟩⟩

mutual

/-- A tree stays the same if its texts do. -/
lemma mapTexts_eq_self_iff (f : String → Option String) :
    ∀ n : Node, n.mapTexts f = n ↔ n.Every fun n => ∀ s ∈ n.text, f s = some s
  | ⟨tag, attributes, children, text⟩ => by
    have htext : text.bind f = text ↔ ∀ s ∈ text, f s = some s := by
      cases text <;> simp
    rw [mapTexts, every_mk_iff, ← mapTextsAll_eq_self_iff f children, ← htext]
    simp [and_comm]

lemma mapTextsAll_eq_self_iff (f : String → Option String) : ∀ ns : List Node,
    mapTextsAll f ns = ns ↔ ∀ n ∈ ns, n.Every fun n => ∀ s ∈ n.text, f s = some s
  | [] => by simp [mapTextsAll]
  | n :: rest => by
    rw [mapTextsAll, List.cons.injEq, List.forall_mem_cons, mapTexts_eq_self_iff f n,
      mapTextsAll_eq_self_iff f rest]

end

end Node

namespace Xml

/-! ## Texts -/

/-- What is read where a text is written. -/
def readText (s : String) : Option String :=
  if trimmed s.toList = [] then none else some (String.ofList (trimmed s.toList))

lemma dropWhile_eq_self_iff_head {p : Char → Bool} {cs : List Char} :
    cs.dropWhile p = cs ↔ ∀ c ∈ cs.head?, p c = false := by
  rw [List.dropWhile_eq_self_iff]
  cases cs <;> simp

lemma trimEnd_eq_self_iff {cs : List Char} :
    trimEnd cs = cs ↔ ∀ c ∈ cs.getLast?, isBlank c = false := by
  rw [trimEnd, List.reverse_eq_iff, dropWhile_eq_self_iff_head, List.head?_reverse]

lemma trimmed_eq_self_iff {cs : List Char} :
    trimmed cs = cs ↔
      (∀ c ∈ cs.head?, isBlank c = false) ∧ ∀ c ∈ cs.getLast?, isBlank c = false := by
  rw [← dropWhile_eq_self_iff_head, ← trimEnd_eq_self_iff]
  constructor
  · intro h
    have hend : (trimmed cs).length ≤ (cs.dropWhile isBlank).length := by
      simpa [trimmed, trimEnd] using
        (List.dropWhile_sublist isBlank (l := (cs.dropWhile isBlank).reverse)).length_le
    have hstart : cs.dropWhile isBlank = cs :=
      (List.dropWhile_suffix isBlank).eq_of_length_le (by rwa [h] at hend)
    rw [trimmed, hstart] at h
    exact ⟨hstart, h⟩
  · rintro ⟨hstart, hend⟩
    rw [trimmed, hstart, hend]

/-- A text that is not empty and has no blank at its ends. -/
structure Kept (s : String) : Prop where
  nonempty : s ≠ ""
  first : ∀ c ∈ s.toList.head?, c ∉ blanks
  last : ∀ c ∈ s.toList.getLast?, c ∉ blanks

lemma kept_iff {s : String} : Kept s ↔
    s ≠ "" ∧ (∀ c ∈ s.toList.head?, c ∉ blanks) ∧ ∀ c ∈ s.toList.getLast?, c ∉ blanks :=
  ⟨fun ⟨hne, hfirst, hlast⟩ => ⟨hne, hfirst, hlast⟩, fun ⟨hne, hfirst, hlast⟩ => ⟨hne, hfirst, hlast⟩⟩

instance (s : String) : Decidable (Kept s) :=
  decidable_of_iff (s ≠ "" ∧ s.toList.head?.all (· ∉ blanks) ∧ s.toList.getLast?.all (· ∉ blanks))
    (by simp [kept_iff, Option.all_eq_true])

lemma readText_eq_some_iff {s : String} : readText s = some s ↔ Kept s := by
  have hself : readText s = some s ↔ trimmed s.toList = s.toList ∧ s.toList ≠ [] := by
    rw [readText]
    split_ifs with h
    · simp [h]
    · rw [Option.some.injEq, ← String.toList_inj, String.toList_ofList]
      exact ⟨fun heq => ⟨heq, heq ▸ h⟩, And.left⟩
  have hempty : s.toList ≠ [] ↔ s ≠ "" := by simp
  rw [hself, trimmed_eq_self_iff, kept_iff, hempty, and_comm]
  simp only [isBlank_eq_false_iff]

/-! ## Reading on -/

variable {b : Builder} {cs rest : List Char}

/-- Reading on with a tree over the pieces of a text. -/
def readFrom (b : Builder) (cs : List Char) : Except ReadError Builder :=
  (pieces cs).foldlM Builder.step b

lemma readFrom_of_piece {piece : Piece} (h : pieces cs = piece :: pieces rest) :
    readFrom b cs = b.step piece >>= fun b => readFrom b rest := by
  rw [readFrom, h, List.foldlM_cons]
  rfl

lemma readFrom_lineBreak (allowed : Bool) (depth : Nat) :
    readFrom b (lineBreak allowed depth ++ rest) = readFrom b rest := by
  rw [readFrom, pieces_lineBreak, readFrom]

/-- A node is read where it is written, and reading goes on behind it. -/
def ReadsBack (n : Node) : Prop :=
  ∀ (depth : Nat) (breakBefore : Bool) (b : Builder) (rest : List Char),
    readFrom b (nodeChars depth breakBefore n ++ rest) =
      b.add (n.mapTexts readText) >>= fun b => readFrom b rest

section Element

variable {outer : List Node} {root : Option Node} {tag : String}
  {attributes : List (String × String)} {children : List Node} {text : Option String}

lemma readFrom_childrenChars (h : ∀ n ∈ children, ReadsBack n) (depth : Nat)
    (breakBefore : Bool) (parent : Node) :
    readFrom ⟨parent :: outer, root⟩ (childrenChars depth breakBefore children ++ rest) =
      readFrom ⟨{ parent with
        children := parent.children ++ Node.mapTextsAll readText children } :: outer, root⟩ rest := by
  induction children generalizing parent breakBefore with
  | nil =>
    cases parent
    rw [childrenChars, Node.mapTextsAll, List.append_nil, List.nil_append]
  | cons n children ih =>
    obtain ⟨hn, hchildren⟩ := List.forall_mem_cons.1 h
    rw [childrenChars, List.append_assoc, hn]
    refine (ih hchildren true _).trans ?_
    simp [Node.mapTextsAll]

/-- A text at the start of an element. -/
lemma readFrom_escaped (s : String) :
    readFrom ⟨{ tag, attributes } :: outer, root⟩ (escaped s ++ '<' :: rest) =
      readFrom ⟨{ tag, attributes, text := readText s } :: outer, root⟩ ('<' :: rest) := by
  have hpieces := pieces_text (not_mem_escaped s).1 rest
  rw [trimmed_escaped] at hpieces
  simp only [flatMap_escapedChar_eq_nil_iff] at hpieces
  rw [readText]
  split_ifs at hpieces ⊢ with htext
  · rw [readFrom, hpieces, List.nil_append, readFrom]
  · rw [readFrom_of_piece hpieces, Builder.step, unescaped?_flatMap]
    rfl

/-- The text of what stands in an element. -/
def contentChars (depth : Nat) (children : List Node) (text : Option String) : List Char :=
  text.elim [] escaped ++ childrenChars (depth + 1) text.isNone children ++
    lineBreak (text.isNone || !children.isEmpty) depth

lemma nodeChars_eq_of_content (h : children = [] → text ≠ none) (depth : Nat)
    (breakBefore : Bool) :
    nodeChars depth breakBefore ⟨tag, attributes, children, text⟩ =
      lineBreak breakBefore depth ++ '<' :: (tagChars tag attributes ++ '>' ::
        (contentChars depth children text ++ '<' :: '/' :: (tag.toList ++ ['>']))) := by
  cases text with
  | some s =>
    rw [nodeChars.eq_2 _ _ _ _ _ _ h]
    simp [contentChars, tagChars]
  | none =>
    rw [nodeChars.eq_3 _ _ _ _ _ h]
    simp [contentChars, tagChars]

lemma exists_nodeChars (depth : Nat) (n : Node) : ∃ cs, nodeChars depth false n = '<' :: cs := by
  rcases n with ⟨tag, attributes, children, text⟩
  by_cases h : children = [] ∧ text = none
  · obtain ⟨rfl, rfl⟩ := h
    exact ⟨_, by rw [nodeChars]; rfl⟩
  · exact ⟨_, nodeChars_eq_of_content (fun hchildren htext => h ⟨hchildren, htext⟩) depth false⟩

/-- Behind a text no line is broken. -/
lemma exists_childrenChars (depth depth' : Nat) (children : List Node) (rest : List Char) :
    ∃ cs, childrenChars depth false children ++ (lineBreak (!children.isEmpty) depth' ++ '<' :: rest) =
      '<' :: cs := by
  cases children with
  | nil => exact ⟨rest, rfl⟩
  | cons n children =>
    obtain ⟨cs, hcs⟩ := exists_nodeChars depth n
    exact ⟨_, by rw [childrenChars, hcs]; rfl⟩

lemma readFrom_contentChars (h : ∀ n ∈ children, ReadsBack n) (depth : Nat) :
    readFrom ⟨{ tag, attributes } :: outer, root⟩ (contentChars depth children text ++ '<' :: rest) =
      readFrom ⟨(⟨tag, attributes, children, text⟩ : Node).mapTexts readText :: outer, root⟩
        ('<' :: rest) := by
  rw [contentChars, List.append_assoc, List.append_assoc, Node.mapTexts]
  cases text with
  | none =>
    rw [Option.elim_none, List.nil_append, readFrom_childrenChars h, readFrom_lineBreak]
    rfl
  | some s =>
    obtain ⟨cs, hcs⟩ := exists_childrenChars (depth + 1) depth children rest
    simp only [Option.elim_some, Option.isNone_some, Bool.false_or]
    rw [hcs, readFrom_escaped, ← hcs, readFrom_childrenChars h, readFrom_lineBreak]
    rfl

lemma closingName_of_isName (h : IsName tag) : closingName tag.toList = tag.toList := by
  have htrim : trimEnd tag.toList = tag.toList := by
    rw [trimEnd_eq_self_iff]
    intro c hc
    exact (not_mark_of_isAlpha (h.2 c (List.mem_of_getLast? hc))).2
  rw [closingName, htrim]
  split
  · rfl
  · rfl

lemma step_closing {n : Node} (h : IsName tag) (htag : n.tag = tag) :
    Builder.step ⟨n :: outer, root⟩ (.closing tag.toList) = Builder.add ⟨outer, root⟩ n :=
  if_pos (by rw [htag, closingName_of_isName h])

lemma readsBack_empty (h : WellNamed tag attributes) : ReadsBack ⟨tag, attributes, [], none⟩ := by
  intro depth breakBefore b rest
  have hchars : nodeChars depth breakBefore ⟨tag, attributes, [], none⟩ ++ rest =
      lineBreak breakBefore depth ++ '<' :: (tagChars tag attributes ++ '/' :: '>' :: rest) := by
    simp [nodeChars, tagChars]
  rw [hchars, readFrom_lineBreak, readFrom_of_piece (pieces_empty h), Builder.step, node?_tagChars h]
  rfl

lemma readsBack_content (h : WellNamed tag attributes) (hcontent : children = [] → text ≠ none)
    (hchildren : ∀ n ∈ children, ReadsBack n) : ReadsBack ⟨tag, attributes, children, text⟩ := by
  intro depth breakBefore b rest
  rw [nodeChars_eq_of_content hcontent]
  simp only [List.append_assoc, List.cons_append, List.nil_append]
  rw [readFrom_lineBreak, readFrom_of_piece (pieces_opening h), Builder.step, node?_tagChars h]
  -- the content fills the node that the opening tag has put on the stack, and the closing tag adds it
  refine (readFrom_contentChars hchildren depth).trans ?_
  rw [readFrom_of_piece (pieces_closing h.tag), step_closing h.tag (Node.tag_mapTexts ..)]

end Element

/-- A tree of nodes with good names is read where it is written. -/
lemma readsBack_of_every {n : Node} (h : n.Every fun n => WellNamed n.tag n.attributes) :
    ReadsBack n := by
  induction h with
  | @mk n hn _ ih =>
    rcases n with ⟨tag, attributes, children, text⟩
    by_cases hempty : children = [] ∧ text = none
    · obtain ⟨rfl, rfl⟩ := hempty
      exact readsBack_empty hn
    · exact readsBack_content hn (fun hchildren htext => hempty ⟨hchildren, htext⟩) ih

/-- What is written is read back: the tags, the attributes and the order of the children are the same,
and each text has lost the blanks around it. -/
theorem read_render {tree : Node} (h : tree.Every fun n => WellNamed n.tag n.attributes)
    (withDeclaration : Bool) :
    read (render withDeclaration tree) = .ok (tree.mapTexts readText) := by
  have hfinish (breakBefore : Bool) : (readFrom {} (nodeChars 0 breakBefore tree) >>= Builder.finish) =
      .ok (tree.mapTexts readText) := by
    have hread := readsBack_of_every h 0 breakBefore {} []
    rw [List.append_nil] at hread
    have hend (b : Builder) : readFrom b [] = .ok b := by
      rw [readFrom, pieces]
      rfl
    simp only [hend] at hread
    rw [hread]
    rfl
  cases withDeclaration with
  | false =>
    obtain ⟨cs, hcs⟩ := exists_nodeChars 0 tree
    have hmark : withoutMark (nodeChars 0 false tree) = nodeChars 0 false tree := by
      rw [hcs]
      rfl
    rw [read, render, if_neg Bool.false_ne_true, String.toList_ofList, hmark]
    exact hfinish false
  | true =>
    have hmark : withoutMark (declaration.toList ++ nodeChars 0 true tree) =
        declaration.toList ++ nodeChars 0 true tree := rfl
    have hskip : readFrom {} (declaration.toList ++ nodeChars 0 true tree) =
        readFrom {} (nodeChars 0 true tree) := by
      rw [readFrom_of_piece pieces_declaration]
      rfl
    rw [read, render, if_pos rfl, String.toList_append, String.toList_ofList, hmark]
    change (readFrom {} _ >>= _) = _
    rw [hskip]
    exact hfinish true

end Xml

/-! ## Documents -/

namespace Document

open Xml

/-- The tags of a document. -/
def tags : List String :=
  ["TriggerData", "Library", "Root", "Element", "ArraySizeVariable"] ++ Node.referenceTags ++
    Node.plainTags

/-- What the keys of a node of a document can be. -/
def keyLists : List (List String) :=
  [["Id"], ["Type", "Id"], ["Type", "Id", "Library"], ["Dim", "Type", "Id"],
    ["Dim", "Type", "Id", "Library"]] ++ Node.plainKeys

lemma wellNamed_of_mem (tag : String) {attributes : List (String × String)} (htag : tag ∈ tags)
    (hkeys : attributes.map Prod.fst ∈ keyLists) : WellNamed tag attributes := by
  have hnames : ∀ tag ∈ tags, IsName tag := by decide
  have hkeyNames : ∀ keys ∈ keyLists, (∀ key ∈ keys, IsName key) ∧ keys.Nodup := by decide
  exact ⟨hnames tag htag, (hkeyNames _ hkeys).1, (hkeyNames _ hkeys).2⟩

lemma wellNamed_inner {Target : ElementType → Allocation → Prop} {n : Node} (h : n.Inner Target) :
    WellNamed n.tag n.attributes := by
  cases h with
  | @reference tag type a htag _ =>
    refine wellNamed_of_mem tag (List.mem_append_left _ (List.mem_append_right _ htag)) ?_
    rw [Node.referring, Allocation.written]
    split_ifs <;> simp [keyLists]
  | @dimension index type a _ =>
    refine wellNamed_of_mem "ArraySizeVariable" (by decide) ?_
    rw [Allocation.written]
    split_ifs <;> simp [keyLists]
  | @plain tag _ _ _ htag hkeys =>
    exact wellNamed_of_mem tag (List.mem_append_right _ htag) (List.mem_append_right _ hkeys)

variable {p : Program} {c : Catalog}

lemma every_wellNamed {tree : Node} (hbuild : (build p c).start.1 = .ok tree) :
    tree.Every fun n => WellNamed n.tag n.attributes := by
  obtain ⟨pools, parts, items, rfl, h⟩ := composition_of_build hbuild
  have hdocument : WellNamed (ofPools pools).tag (ofPools pools).attributes :=
    wellNamed_of_mem "TriggerData" (by decide) (by simp [ofPools, keyLists, Node.plainKeys])
  refine ⟨hdocument, Node.every_of_forall_visit ?_⟩
  refine h.forall_nodes ?_ ?_ ?_ fun n hn => wellNamed_inner hn
  · intro q
    exact wellNamed_of_mem "Library" (by decide) (by simp [libraryNode, keyLists])
  · intro q
    exact wellNamed_of_mem "Root" (by decide) (by simp [root, keyLists, Node.plainKeys])
  · intro part
    exact wellNamed_of_mem "Element" (by decide) (by simp [Part.node, keyLists])

/-- The text of a document is read, and all is as in the document but its texts: a text has lost the
blanks around it, and one of blanks only is lost. So the document is the same if and only if no text is
empty or has a blank at one of its ends. -/
theorem read_back_of_build {tree : Node} (hbuild : (build p c).start.1 = .ok tree)
    (withDeclaration : Bool) :
    ∃ tree', read (render withDeclaration tree) = .ok tree' ∧
      tree'.withoutTexts = tree.withoutTexts ∧ tree' = tree.mapTexts readText ∧
      (tree' = tree ↔ tree.Every fun n => ∀ s ∈ n.text, Kept s) := by
  refine ⟨_, read_render (every_wellNamed hbuild) withDeclaration,
    Node.withoutTexts_mapTexts readText tree, rfl, ?_⟩
  rw [Node.mapTexts_eq_self_iff]
  simp only [readText_eq_some_iff]

end Document

namespace Sample

/-- A program whose library, comment and text hold marks of the markup. -/
def marked (s : String) : Program :=
  ⟨[.library ⟨"<&>", [.variable ⟨[⟨"comment", some "\"x\" > 'y'"⟩], ⟨"string", []⟩, "greeting",
    ⟨.literal (.string s), some ⟨"<&>", ⟨1⟩⟩⟩, some ⟨"<&>", ⟨2⟩⟩⟩]⟩]⟩

/-- The document of the program. -/
def markedDocument (s : String) : Node where
  tag := "TriggerData"
  children :=
    [{ tag := "Library", attributes := [("Id", "<&>")], children := [
      { tag := "Root", children := [.reference "Item" .variable ⟨"<&>", ⟨2⟩⟩] },
      .element .variable ⟨2⟩ [
        { tag := "Comment", text := some "\"x\" > 'y'" },
        { tag := "VariableType", children := [{ tag := "Type", attributes := [("Value", "string")] }] },
        .reference "Value" .param ⟨"<&>", ⟨1⟩⟩],
      .element .param ⟨1⟩ [Lower.literalText s, Lower.literalType "string"]] }]

lemma marked_build (s : String) :
    (Document.build (marked s) ⟨[]⟩).start.1 = .ok (markedDocument s) :=
  rfl

lemma every_markedDocument {s : String} (h : Xml.Kept s) :
    (markedDocument s).Every fun n => ∀ s ∈ n.text, Xml.Kept s := by
  have hcomment : Xml.Kept "\"x\" > 'y'" := by decide
  simp [markedDocument, Node.reference, Node.element, Lower.literalText, Lower.literalType,
    Node.every_mk_iff, h, hcomment]

end Sample

/-- Marks in texts and names are kept; a blank at the end of a text is lost. -/
theorem Document.read_back_of_build_sample :
    (build (Sample.marked "a < b") ⟨[]⟩).start.1 = .ok (Sample.markedDocument "a < b") ∧
      Xml.read (Xml.render true (Sample.markedDocument "a < b")) =
        .ok (Sample.markedDocument "a < b") ∧
      (build (Sample.marked "a ") ⟨[]⟩).start.1 = .ok (Sample.markedDocument "a ") ∧
      Xml.read (Xml.render false (Sample.markedDocument "a ")) =
        .ok (Sample.markedDocument "a") := by
  obtain ⟨kept, hkept, -, -, hsame⟩ := read_back_of_build (Sample.marked_build "a < b") true
  obtain ⟨changed, hchanged, -, htexts, -⟩ := read_back_of_build (Sample.marked_build "a ") false
  refine ⟨Sample.marked_build _, ?_, Sample.marked_build _, ?_⟩
  · rw [hkept, hsame.2 (Sample.every_markedDocument (by decide))]
  · rw [hchanged, htexts]
    exact congrArg Except.ok (by decide)

end TriggerScript
