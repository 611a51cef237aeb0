import TriggerScript.Proofs.Program.Readings

/-!
# Where locals are declared

The first locals of a function, an action or a trigger may be declared in front of the braces or inside
them. The program that is read is the same, with one exception: if the return type ends in a label in
brackets and the first local has no attribute list, the label is read as an attribute of that local when
the two stand side by side (`Program.locals_moved_iff`).
-/

namespace TriggerScript

open Grammar Rendering ProgramGrammar

/-! ## Definitions inside programs -/

/-- What surrounds a definition of a library in a program. -/
structure Surroundings where
  /-- The scopes in front of the library. -/
  scopesBefore : List Scope
  /-- The name of the library. -/
  library : String
  /-- The definitions of the library in front of the one that is surrounded. -/
  before : List Definition
  /-- The definitions of the library behind it. -/
  after : List Definition
  /-- The scopes behind the library. -/
  scopesAfter : List Scope

/-- The renderings of a definition in which all groups that can be read in two ways are attributes. -/
abbrev Definition.attributedRendering (d : Definition) : Language Token :=
  attributed d.rendering d.firstLocal?

namespace Surroundings

/-- The program with the definition in its place. -/
def plug (s : Surroundings) (d : Definition) : Program :=
  ⟨s.scopesBefore ++ .library ⟨s.library, s.before ++ d :: s.after⟩ :: s.scopesAfter⟩

/-- What stands in front of the definition, if scopes and definitions are rendered in this way. -/
def frontOf (s : Surroundings) (S : Scope → Language Token) (R : Definition → Language Token) :
    Language Token :=
  (s.scopesBefore.map S).prod *
    (keyword "library" * str s.library * keyword "\x7b" * (s.before.map R).prod)

/-- What stands behind the definition. -/
def backOf (s : Surroundings) (S : Scope → Language Token) (R : Definition → Language Token) :
    Language Token :=
  (s.after.map R).prod * keyword "\x7d" * (s.scopesAfter.map S).prod

/-- The renderings of what stands in front of the definition. -/
def front (s : Surroundings) : Language Token :=
  s.frontOf Scope.rendering Definition.rendering

/-- The renderings of what stands behind the definition. -/
def back (s : Surroundings) : Language Token :=
  s.backOf Scope.rendering Definition.rendering

variable {s : Surroundings} {d d' : Definition}

lemma rendering_plug : (s.plug d).rendering = s.front * d.rendering * s.back := by
  simp [Program.rendering, plug, front, back, frontOf, backOf, Scope.rendering, mul_assoc]

lemma attributedRendering_plug : (s.plug d).attributedRendering =
    s.frontOf Scope.attributedRendering Definition.attributedRendering * d.attributedRendering *
      s.backOf Scope.attributedRendering Definition.attributedRendering := by
  simp [Program.attributedRendering, plug, frontOf, backOf, Scope.attributedRendering, mul_assoc]

lemma plug_inj : s.plug d = s.plug d' ↔ d = d' := by
  simp [plug]

/-- If tokens of a definition stand in a scope, the scope is a library, and they are read as one of its
definitions. -/
lemma exists_of_mem_scope {head ts tail : List Token} {scope : Scope} {name : String}
    {ds : List Definition}
    (hhead : head ∈ keyword "library" * str name * keyword "\x7b" * (ds.map Definition.rendering).prod)
    (hts : ts ∈ d.rendering) (hscope : head ++ ts ++ tail ∈ scope.attributedRendering) :
    ∃ (library : String) (before : List Definition) (d' : Definition) (after : List Definition),
      scope = .library ⟨library, before ++ d' :: after⟩ ∧
      head ∈ keyword "library" * str library * keyword "\x7b" *
        (before.map Definition.attributedRendering).prod ∧
      ts ∈ d'.attributedRendering ∧
      tail ∈ (after.map Definition.attributedRendering).prod * keyword "\x7d" := by
  obtain ⟨first, label, opens, front, rfl, hfirst, -, hopens, hfront⟩ := mem_heading_mul.1 hhead
  rcases scope with ⟨library, es⟩ | ⟨library, es⟩
  all_goals
    rw [Scope.attributedRendering, mul_assoc] at hscope
    obtain ⟨first', label', opens', rest, heq, hfirst', hlabel, -, hrest⟩ := mem_heading_mul.1 hscope
    obtain ⟨rfl, rfl, rfl, rfl⟩ : first = first' ∧ label = label' ∧ opens = opens' ∧
      front ++ (ts ++ tail) = rest := by simpa using heq
  · simp [hfirst] at hfirst'
  · obtain ⟨before, others, rfl, hbefore, hothers⟩ :=
      delimited_lib_items.exists_append (fun _ => attributed_le _ _) hfront hrest
    obtain ⟨d', after, rfl, hd', hafter⟩ :=
      delimited_lib_items.exists_cons (fun _ => attributed_le _ _) hts hothers
    exact ⟨library, before, d', after, rfl,
      mem_heading_mul.2 ⟨first, label, opens, front, rfl, hfirst, hlabel, hopens, hbefore⟩, hd', hafter⟩

/-- If tokens of a definition stand in a program, they are read as a definition, whatever is read. -/
lemma exists_plug_of_mem {front ts back : List Token} {p : Program} (hfront : front ∈ s.front)
    (hts : ts ∈ d.rendering) (hback : back ∈ s.back)
    (hp : front ++ ts ++ back ∈ p.attributedRendering) :
    ∃ (s' : Surroundings) (d' : Definition), p = s'.plug d' ∧
      front ∈ s'.frontOf Scope.attributedRendering Definition.attributedRendering ∧
      ts ∈ d'.attributedRendering ∧
      back ∈ s'.backOf Scope.attributedRendering Definition.attributedRendering := by
  obtain ⟨scopes₁, hscopes₁, head, hhead, rfl⟩ := hfront
  obtain ⟨tail, htail, scopes₂, hscopes₂, rfl⟩ := hback
  have hlibrary : head ++ ts ++ tail ∈
      Scope.rendering (.library ⟨s.library, s.before ++ d :: s.after⟩) := by
    have hmem := Language.append_mem_mul (Language.append_mem_mul hhead hts) htail
    simpa [Scope.rendering, mul_assoc] using hmem
  have hscopes : scopes₁ ++ (head ++ ts ++ tail ++ scopes₂) ∈
      (p.scopes.map Scope.attributedRendering).prod * 1 := by
    simpa [Program.attributedRendering] using hp
  obtain ⟨scopesBefore, rest, hrest, hbefore, hcut⟩ :=
    delimited_sections.exists_append Scope.attributedRendering_le hscopes₁ hscopes
  obtain ⟨scope, scopesAfter, rfl, hscope, hafter⟩ :=
    delimited_sections.exists_cons Scope.attributedRendering_le hlibrary hcut
  obtain ⟨library, before, d', after, rfl, hhead, hts, htail⟩ := exists_of_mem_scope hhead hts hscope
  rw [mul_one] at hafter
  exact ⟨⟨scopesBefore, library, before, after, scopesAfter⟩, d', by rw [plug, ← hrest],
    Language.append_mem_mul hbefore hhead, hts, Language.append_mem_mul htail hafter⟩

end Surroundings

/-! ## Writing a definition -/

lemma variableRenderings_append (xs ys : List VariableDef) :
    variableRenderings (xs ++ ys) = variableRenderings xs ++ variableRenderings ys := by
  simp only [← language_variables, List.map_append]

/-- A definition as it is written, cut into pieces. -/
structure Writing where
  /-- What stands in front of the body. -/
  signature : List Token
  /-- The locals in front of the brace. -/
  outer : List Token
  /-- The opening brace. -/
  opens : Token
  /-- The locals behind the brace. -/
  inner : List Token
  /-- The statements and the closing brace. -/
  rest : List Token

namespace Writing

/-- The pieces one after the other. -/
def tokens (w : Writing) : List Token :=
  w.signature ++ (w.outer ++ w.opens :: (w.inner ++ w.rest))

/-- The pieces with all locals moved behind the brace. -/
def moved (w : Writing) : List Token :=
  w.signature ++ w.opens :: (w.outer ++ (w.inner ++ w.rest))

lemma moved_perm (w : Writing) : w.moved.Perm w.tokens :=
  List.perm_middle.symm.append_left w.signature

/-- The pieces are those of a definition with these locals and statements in its body. -/
structure Writes (w : Writing) (d : Definition) (outer inner : List VariableDef)
    (statements : List Call) : Prop where
  body : d.body? = some ⟨outer ++ inner, statements⟩
  signature : w.signature ∈ d.signature
  outer : w.outer ∈ (variableRenderings outer).prod
  opens : w.opens.name = "\x7b"
  inner : w.inner ∈ (variableRenderings inner).prod
  rest : w.rest ∈ ((callRenderings statements).map (· * keyword ";")).prod * keyword "\x7d"

variable {w : Writing} {d : Definition} {outer inner : List VariableDef} {statements : List Call}

namespace Writes

lemma block_mem_rendering (h : w.Writes d outer inner statements) :
    w.opens :: (w.inner ++ w.rest) ∈ Block.rendering ⟨inner, statements⟩ := by
  rw [Block.rendering, mul_assoc, mul_assoc, cons_mem_keyword_mul]
  exact ⟨h.opens, Language.append_mem_mul h.inner h.rest⟩

lemma tokens_mem_rendering (h : w.Writes d outer inner statements) : w.tokens ∈ d.rendering := by
  rw [Definition.rendering_eq h.body]
  exact Language.append_mem_mul h.signature (Language.mem_iSup.2
    ⟨⟨(outer, inner), rfl⟩, Language.append_mem_mul h.outer h.block_mem_rendering⟩)

lemma tokens_mem_attributedRendering_iff (h : w.Writes d outer inner statements) :
    w.tokens ∈ d.attributedRendering ↔
      ¬(d.EndsInLabel ∧ w.outer.head?.map (·.name) = some "label") :=
  Definition.mem_attributed_iff h.body ⟨(outer, inner), rfl⟩ h.signature h.outer h.block_mem_rendering

lemma moved_mem_attributedRendering (h : w.Writes d outer inner statements) :
    w.moved ∈ d.attributedRendering := by
  have hblock : w.opens :: (w.outer ++ (w.inner ++ w.rest)) ∈
      Block.rendering ⟨outer ++ inner, statements⟩ := by
    rw [Block.rendering, mul_assoc, mul_assoc, cons_mem_keyword_mul, variableRenderings_append,
      List.prod_append, mul_assoc]
    exact ⟨h.opens, Language.append_mem_mul h.outer (Language.append_mem_mul h.inner h.rest)⟩
  exact (Definition.mem_attributed_iff h.body ⟨([], outer ++ inner), rfl⟩ h.signature
    Language.nil_mem_one hblock).2 (by simp)

end Writes

end Writing

/-- Locals that are declared in front of the braces of a definition may as well be declared at the
beginning inside them. Whatever the definition is and whatever program it stands in, a program is read
both times. It is the same one, unless the return type ends in a label in brackets and the locals begin
with a label, that is with a type and not with attributes. -/
theorem Program.locals_moved_iff {s : Surroundings} {w : Writing} {d : Definition}
    {outer inner : List VariableDef} {statements : List Call} {front back moved : List Token}
    (hfront : front ∈ s.front) (hw : w.Writes d outer inner statements) (hback : back ∈ s.back)
    (hfits : ∀ t ∈ front ++ w.tokens ++ back, t.fits)
    (hmoved : SameTokens (front ++ w.moved ++ back) moved) (length length' : Nat) :
    ∃ p q, (Program.ofTokens (front ++ w.tokens ++ back) length).start.1 = .ok p ∧
      (Program.ofTokens moved length').start.1 = .ok q ∧
      (p = q ↔ ¬(d.EndsInLabel ∧ w.outer.head?.map (·.name) = some "label")) := by
  have hrendering : front ++ w.tokens ++ back ∈ (s.plug d).rendering := by
    rw [Surroundings.rendering_plug]
    exact Language.append_mem_mul (Language.append_mem_mul hfront hw.tokens_mem_rendering) hback
  obtain ⟨p, hp⟩ := Program.exists_ofTokens_of_mem_rendering hfits hrendering length
  obtain ⟨s', d', rfl, hfront', hd', hback'⟩ :=
    Surroundings.exists_plug_of_mem hfront hw.tokens_mem_rendering hback
      (Program.mem_attributedRendering_of_ofTokens hp)
  -- the surroundings are read in the same way, and what has been moved is read as it is written
  have hq : (Program.ofTokens moved length').start.1 = .ok (s'.plug d) := by
    have hfits' : ∀ t ∈ front ++ w.moved ++ back, t.fits := fun t ht =>
      hfits t (((w.moved_perm.append_left front).append_right back).mem_iff.1 ht)
    have hmem : front ++ w.moved ++ back ∈ (s'.plug d).attributedRendering := by
      rw [Surroundings.attributedRendering_plug]
      exact Language.append_mem_mul (Language.append_mem_mul hfront' hw.moved_mem_attributedRendering)
        hback'
    have hread : (Program.ofTokens (front ++ w.moved ++ back) length').start.1 = .ok (s'.plug d) :=
      (Program.ofTokens_iff_attributedRendering hfits').2 hmem
    exact Program.ofTokens_of_sameTokens hmoved hfits' hread
  refine ⟨s'.plug d', s'.plug d, hp, hq, ?_⟩
  rw [Surroundings.plug_inj, ← hw.tokens_mem_attributedRendering_iff]
  constructor
  · rintro rfl
    exact hd'
  · exact Definition.eq_of_mem_attributed hd'

namespace Sample

/-- A library with nothing else in it. -/
def surroundings : Surroundings :=
  ⟨[], "L", [], [], []⟩

/-- `library "L" {` -/
def headingTokens : List Token :=
  [keywordToken "library", strToken "L", keywordToken "\x7b"]

/-- `function F "f" () -> T[2]` -/
def signatureTokens : List Token :=
  [keywordToken "function", labelToken "F", strToken "f", keywordToken "(", keywordToken ")",
    keywordToken "->", labelToken "T", keywordToken "[", intToken 2, keywordToken "]"]

/-- `[x]` -/
def groupTokens : List Token :=
  [keywordToken "[", labelToken "x", keywordToken "]"]

/-- `int n = 1;` -/
def localTokens : List Token :=
  [labelToken "int", labelToken "n", keywordToken "=", intToken 1, keywordToken ";"]

/-- The group is written as an attribute of the local. -/
def attributeWriting : Writing :=
  ⟨signatureTokens, groupTokens ++ localTokens, keywordToken "\x7b", [], [keywordToken "\x7d"]⟩

/-- The group is written as a dimension of the return type. -/
def dimensionWriting : Writing :=
  ⟨signatureTokens ++ groupTokens, localTokens, keywordToken "\x7b", [], [keywordToken "\x7d"]⟩

/-- `[x] int n = 1;` -/
def flaggedVariable : VariableDef :=
  { intVariable "n" 1 with attributes := [⟨"x", none⟩] }

/-- The function in which the group is an attribute. -/
def attributeFunction : Definition :=
  .function ⟨.function, [], "F", "f", [], ⟨"T", [.size 2]⟩, ⟨[flaggedVariable], []⟩, none⟩

/-- The function in which the group is a dimension. -/
def dimensionFunction : Definition :=
  .function ⟨.function, [], "F", "f", [], ⟨"T", [.size 2, .variable "x"]⟩, ⟨[intVariable "n" 1], []⟩,
    none⟩

lemma headingTokens_mem_front : headingTokens ∈ surroundings.front := by
  simp [headingTokens, surroundings, Surroundings.front, Surroundings.frontOf, keywordToken, strToken,
    mul_assoc, str]

lemma closing_mem_back : [keywordToken "\x7d"] ∈ surroundings.back := by
  simp [surroundings, Surroundings.back, Surroundings.backOf, keywordToken]

lemma attributeWriting_writes :
    attributeWriting.Writes attributeFunction [flaggedVariable] [] [] where
  body := rfl
  signature := by
    simp [attributeWriting, signatureTokens, attributeFunction, Definition.signature,
      Definition.opening, Definition.returns?, returnsRendering, TypeRef.rendering, TypeRef.void,
      Dimension.rendering, attributesRendering, commas, separated, keywordToken, labelToken, strToken,
      intToken, given_of, given_of_not, mul_assoc, add_mul, Language.mem_add, str, label]
  outer := by
    simp [attributeWriting, groupTokens, localTokens, flaggedVariable, intVariable, variableRenderings,
      VariableDef.rendering, Value.rendering, ValueKind.rendering, TypeRef.rendering,
      attributesRendering, Attribute.rendering, commas, separated, keywordToken, labelToken, intToken,
      given_of, given_of_not, mul_assoc, label]
  opens := rfl
  inner := Language.nil_mem_one
  rest := by simp [attributeWriting, callRenderings, keywordToken]

lemma dimensionWriting_writes :
    dimensionWriting.Writes dimensionFunction [intVariable "n" 1] [] [] where
  body := rfl
  signature := by
    simp [dimensionWriting, signatureTokens, groupTokens, dimensionFunction, Definition.signature,
      Definition.opening, Definition.returns?, returnsRendering, TypeRef.rendering, TypeRef.void,
      Dimension.rendering, attributesRendering, commas, separated, keywordToken, labelToken, strToken,
      intToken, given_of, given_of_not, mul_assoc, add_mul, Language.mem_add, str, label]
  outer := by
    simp [dimensionWriting, localTokens, intVariable, variableRenderings, VariableDef.rendering,
      Value.rendering, ValueKind.rendering, TypeRef.rendering, attributesRendering, keywordToken,
      labelToken, intToken, given_of, mul_assoc, add_mul, Language.mem_add, label]
  opens := rfl
  inner := Language.nil_mem_one
  rest := by simp [dimensionWriting, callRenderings, keywordToken]

end Sample

/-- A local with attributes can be moved into the braces of its body, and the program stays the same. -/
theorem Program.locals_moved_iff_sample :
    Sample.headingTokens ∈ Sample.surroundings.front ∧
      Sample.attributeWriting.Writes Sample.attributeFunction [Sample.flaggedVariable] [] [] ∧
      [Sample.keywordToken "\x7d"] ∈ Sample.surroundings.back ∧
      (∀ t ∈ Sample.headingTokens ++ Sample.attributeWriting.tokens ++ [Sample.keywordToken "\x7d"],
        t.fits) ∧
      ambiguities Sample.attributeWriting.tokens = 1 ∧
      ∃ p, (Program.ofTokens (Sample.headingTokens ++ Sample.attributeWriting.tokens ++
          [Sample.keywordToken "\x7d"]) 0).start.1 = .ok p ∧
        (Program.ofTokens (Sample.headingTokens ++ Sample.attributeWriting.moved ++
          [Sample.keywordToken "\x7d"]) 0).start.1 = .ok p := by
  have hfits : ∀ t ∈ Sample.headingTokens ++ Sample.attributeWriting.tokens ++
      [Sample.keywordToken "\x7d"], t.fits := by decide
  obtain ⟨p, q, hp, hq, heq⟩ := Program.locals_moved_iff Sample.headingTokens_mem_front
    Sample.attributeWriting_writes Sample.closing_mem_back hfits rfl 0 0
  obtain rfl := heq.2 fun h => absurd h.2 (by decide)
  exact ⟨Sample.headingTokens_mem_front, Sample.attributeWriting_writes, Sample.closing_mem_back, hfits,
    by decide, p, hp, hq⟩

/-- Locals cannot always be moved. If a label in brackets is written as a dimension of the return type
and the local behind it has no attributes, the label is read as an attribute of the local, and it is
read as a dimension once the local has been moved. -/
theorem Program.locals_moved_differ :
    Sample.headingTokens ∈ Sample.surroundings.front ∧
      Sample.dimensionWriting.Writes Sample.dimensionFunction [Sample.intVariable "n" 1] [] [] ∧
      [Sample.keywordToken "\x7d"] ∈ Sample.surroundings.back ∧
      (∀ t ∈ Sample.headingTokens ++ Sample.dimensionWriting.tokens ++ [Sample.keywordToken "\x7d"],
        t.fits) ∧
      (Program.ofTokens (Sample.headingTokens ++ Sample.dimensionWriting.tokens ++
        [Sample.keywordToken "\x7d"]) 0).start.1 =
          .ok (Sample.surroundings.plug Sample.attributeFunction) ∧
      (Program.ofTokens (Sample.headingTokens ++ Sample.dimensionWriting.moved ++
        [Sample.keywordToken "\x7d"]) 0).start.1 =
          .ok (Sample.surroundings.plug Sample.dimensionFunction) ∧
      Sample.surroundings.plug Sample.attributeFunction ≠
        Sample.surroundings.plug Sample.dimensionFunction :=
  ⟨Sample.headingTokens_mem_front, Sample.dimensionWriting_writes, Sample.closing_mem_back, by decide,
    by decide +kernel, by decide +kernel, by decide +kernel⟩

end TriggerScript
