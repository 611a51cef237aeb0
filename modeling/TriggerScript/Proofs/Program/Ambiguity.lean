import TriggerScript.Proofs.Program.Languages
import TriggerScript.Proofs.Program.Returns
import TriggerScript.Proofs.Reading

/-!
# How many parses a program has

The grammar of programs is ambiguous in one spot only, behind the arrow of a return type. All other
alternatives are told apart by the tokens ahead. So the number of parses is known from the token list:
it doubles with each group that can be read in two ways (`length_of_parseAll`, `count_isAmbiguous`).

The parse that is found first is followed from the program down to its definitions. In each function it
leaves such a group to the body, where it is the only attribute of the first local
(`attributes_of_leastYields`). The renderings of a program in which this is so are
`Program.attributedRendering`, and the main result is `Program.two_parses_per_ambiguity`.
-/

namespace TriggerScript

open Grammar Rendering

/-- The token lists of the language in which a group that can be read in two ways is, wherever it
stands, the only attribute of the local. If there is no local, there is no such group. -/
def attributed (l : Language Token) (first : Option VariableDef) : Language Token :=
  {ts | ts ∈ l ∧ ∀ front back b, front ++ back = ts → ambiguous? back = some b →
    ∃ x, b.value = .text x ∧ first.map (·.attributes) = some [⟨x, none⟩]}

/-- The first local of a function. -/
def Definition.firstLocal? : Definition → Option VariableDef
  | .function d => d.body.locals.head?
  | _ => none

/-- The renderings of a scope in which all groups that can be read in two ways are attributes. -/
def Scope.attributedRendering : Scope → Language Token
  | .import_ s => keyword "import" * str s.library * keyword "\x7b" *
      (s.definitions.map fun d => attributed d.rendering none).prod * keyword "\x7d"
  | .library s => keyword "library" * str s.library * keyword "\x7b" *
      (s.definitions.map fun d => attributed d.rendering d.firstLocal?).prod * keyword "\x7d"

/-- The renderings of a program in which all groups that can be read in two ways are attributes. -/
def Program.attributedRendering (p : Program) : Language Token :=
  (p.scopes.map Scope.attributedRendering).prod

namespace ProgramGrammar

/-! ## The number of parses -/

/-- Counting places is counting what stands from them on. -/
lemma count_drop {P : List Token → Bool} (hnil : P [] = false) (ts : List Token) :
    Nat.count (fun k => P (ts.drop k)) ts.length = ts.tails.countP P := by
  induction ts with
  | nil => simp [hnil]
  | cons t ts ih =>
    rw [List.length_cons, Nat.count_succ', List.tails_cons, List.countP_cons, ← ih]
    rfl

/-- The places in the stream are those in the token list. -/
lemma count_isAmbiguous (tokens : List Token) (length : Nat) :
    Nat.count (isAmbiguous (stream tokens length) ·) (stream tokens length).size =
      ambiguities tokens := by
  have hmark : ∀ ts, ambiguous? (ts ++ [Token.mark Token.endName length]) = ambiguous? ts :=
    ambiguous?_append_mark (show Token.endName ≠ "label" by decide)
      (show Token.endName ≠ "]" by decide)
  have hbegin : ambiguous? (Token.mark Token.beginName 0 :: tokens) = none := by
    cases tokens <;> simp [ambiguous?, Token.mark, Token.beginName]
  have hcount := count_drop (P := fun ts => (ambiguous? ts).isSome) rfl (Token.enclose tokens length)
  refine Eq.trans hcount ?_
  rw [Token.enclose, List.tails_append, List.countP_append, List.countP_map, List.tails_cons,
    List.countP_cons, ambiguities]
  simp only [Function.comp_def, hmark, hbegin]
  rfl

/-- There is nothing to be read in two ways at a token that is no arrow. -/
lemma isAmbiguous_of_plain {tokens : Array Token} {place : Nat} {token : Token}
    (htoken : tokens[place]? = some token) (hplain : token.name ≠ "->") :
    isAmbiguous tokens place = false := by
  refine isAmbiguous_eq_false ?_
  rwa [nameAt, htoken, Option.map_some, ne_eq, Option.some.injEq]

/-- A return type is counted together with what follows it. -/
lemma counted_returning {tokens : Array Token} : ∀ xs ∈ returning, ∀ {place d stop},
    Derives programGrammar tokens xs place d stop →
      Counted programGrammar tokens (isAmbiguous tokens) [] xs place stop := by
  intro xs hxs place d stop hd
  rcases List.mem_pair.1 hxs with rfl | rfl
  · exact follows_body.counted hd
  · exact follows_semicolon.counted hd

/-- The number of parses doubles at each place at which a group can be read in two ways. -/
lemma length_of_parseAll {tokens : List Token} {length : Nat} {values : List ProgramPhrase}
    (h : programGrammar.parseAll tokens length = .ok values) :
    values.length = 2 ^ Nat.count (isAmbiguous (stream tokens length) ·) (stream tokens length).size :=
  Lookahead.length_of_parseAll (covers _) checks_program
    (fun htoken hplain => isAmbiguous_of_plain htoken (of_decide_eq_true hplain)) counted_returning
    (by decide +kernel) h

/-! ## What is read first -/

/-- A body that begins with a label in brackets has it as the only attribute of its first local. -/
lemma attributes_of_mem {a b c : Token} {ts : List Token} {xs : List VariableDef} {body : Block}
    (hopens : a.name = "[") (hlabel : b.name = "label") (hcloses : c.name = "]")
    (h : a :: b :: c :: ts ∈ (variableRenderings xs).prod * body.rendering) :
    ∃ x, b.value = .text x ∧ xs.head?.map (·.attributes) = some [⟨x, none⟩] := by
  obtain ⟨locals, statements⟩ := body
  match xs with
  | [] => simp [variableRenderings, Block.rendering, mul_assoc, hopens] at h
  | ⟨attributes, ty, name, value, allocation⟩ :: xs =>
    rw [variableRenderings, List.prod_cons, VariableDef.rendering, attributesRendering] at h
    simp only [mul_assoc, add_mul, mem_given_mul, Language.mem_add, TypeRef.rendering, Rendering.label,
      cons_mem_word_mul, cons_mem_keyword_mul, hopens] at h
    match attributes with
    | [] => simp [commas, separated, hlabel] at h
    | ⟨key, some _⟩ :: _ =>
      simp [commas, separated, Attribute.rendering, Rendering.label, mul_assoc, hcloses] at h
    | ⟨key, none⟩ :: _ :: _ =>
      simp [commas, separated, Attribute.rendering, Rendering.label, mul_assoc, hcloses] at h
    | [⟨key, none⟩] =>
      have hkey : b.value = .text key := by
        simp [commas, separated, Attribute.rendering, Rendering.label, hcloses] at h
        exact h.2.1.2
      exact ⟨key, hkey, rfl⟩

variable {tokens : Array Token} {place stop : Nat} {ts : List Token} {xs : List Symbol}

/-- What is known of the places is known of the tokens there. -/
lemma forall_name_ne {name : String} (hts : tokens.toList.drop place = ts ++ tokens.toList.drop stop)
    (h : ∀ k, place ≤ k → k < stop → nameAt tokens k ≠ some name) : ∀ t ∈ ts, t.name ≠ name := by
  intro t ht hname
  obtain ⟨i, hi, rfl⟩ := List.mem_iff_getElem.1 ht
  have hlength := congrArg List.length hts
  rw [List.length_append, List.length_drop, List.length_drop, Array.length_toList] at hlength
  have htoken := getElem?_of_drop_eq_append hts hi
  have hlt : place + i < tokens.size := (Array.getElem?_eq_some_iff.1 htoken).1
  refine h (place + i) (by omega) (by omega) ?_
  rw [nameAt, htoken, Option.map_some, hname]

lemma name_ne_of_leastYields {vs : List ProgramPhrase} (hxs : xs.all (·.isOther "->" plainRules))
    (h : LeastYields programGrammar tokens xs ts vs) : ∀ t ∈ ts, t.name ≠ "->" := by
  obtain ⟨place, d, stop, hd, -, hts⟩ := h
  exact forall_name_ne hts fun k => hd.derives.nameAt_ne lacks_arrow hxs

/-- What begins with a flag. -/
lemma IsFlag.exists_eq_cons {b : Token} (h : IsFlag tokens place b) (hle : place + 3 ≤ stop)
    (hts : tokens.toList.drop place = ts ++ tokens.toList.drop stop) :
    ∃ a c rest, ts = a :: b :: c :: rest ∧ a.name = "[" ∧ c.name = "]" := by
  obtain ⟨a, ha, hopens⟩ := nameAt_eq_some_iff.1 h.opens
  obtain ⟨c, hc, hcloses⟩ := nameAt_eq_some_iff.1 h.closes
  obtain ⟨n, rfl⟩ := Nat.exists_eq_add_of_le hle
  have hrest := List.take_append_drop n (tokens.toList.drop (place + 3))
  rw [List.drop_drop] at hrest
  rw [drop_eq_cons ha, drop_eq_cons h.inside, drop_eq_cons hc, ← hrest] at hts
  exact ⟨a, c, _, (List.append_cancel_right hts).symm, hopens, hcloses⟩

/-- The group is read as an attribute. -/
lemma attributes_of_leastYields {b : Token} {returns : ProgramPhrase} {locals : List VariableDef}
    {body : Block} (h : LeastYields programGrammar tokens [r "ret", r "locals", r "block"] ts
      [returns, .list (locals.map .variable), .block body])
    (hb : ambiguous? ts = some b) :
    ∃ x, b.value = .text x ∧ locals.head?.map (·.attributes) = some [⟨x, none⟩] := by
  obtain ⟨place, d, stop, hd, hvs, hts⟩ := h
  obtain ⟨d₁, d₂, hlt, hpair, inner, mid, behind, rfl, hbehind, hflag⟩ :=
    follows_body.exists_pair hd.derives (hts ▸ ambiguous?_append hb _)
  -- of the two readings the least one is that in which the group is left to the body
  obtain rfl : d = .rule "ret" 1 inner behind := by
    rcases (hpair d).1 hd.derives with rfl | rfl
    · rfl
    · exact absurd hlt (hd.not_lt ((hpair _).2 (.inl rfl)))
  obtain ⟨parts, -, hvs⟩ := except_bind_ok_iff.1 hvs
  obtain ⟨v, -, hvs⟩ := except_bind_ok_iff.1 hvs
  obtain ⟨vs, hvs, heq⟩ := except_bind_ok_iff.1 hvs
  obtain ⟨rfl, rfl⟩ := List.cons.inj (Except.ok.inj heq)
  obtain ⟨us, hus, hyields⟩ := hbehind.yields hvs
  obtain ⟨e, he⟩ := (follows_body.skip_iff hflag).1 ⟨_, hbehind⟩
  obtain ⟨a, c, rest, rfl, hopens, hcloses⟩ := hflag.exists_eq_cons he.place_le_stop hus
  have hmem : a :: b :: c :: rest ∈ (variableRenderings locals).prod * body.rendering := by
    obtain ⟨front, back, hfront, hback, heq⟩ := yields_cons_iff.1 hyields
    rw [← heq, ← language_locals, ← language_block]
    exact Language.append_mem_mul (mem_language_singleton.2 hfront) (mem_language_singleton.2 hback)
  exact attributes_of_mem hopens hflag.label hcloses hmem

/-- A return type that ends at a semicolon has no group that can be read in two ways. -/
lemma not_ambiguous_of_semicolon {vs : List ProgramPhrase} {b : Token}
    (h : LeastYields programGrammar tokens [r "ret", t ";"] ts vs) : ambiguous? ts ≠ some b := by
  intro hb
  obtain ⟨place, d, stop, hd, -, hts⟩ := h
  obtain ⟨-, -, -, -, -, mid, behind, -, hbehind, hflag⟩ :=
    follows_semicolon.exists_pair hd.derives (hts ▸ ambiguous?_append hb _)
  have hname := (derivable_terminal_iff.1 ⟨_, hbehind⟩).1
  simp [hflag.opens] at hname

/-- The only arrow of a definition is that of its return type. -/
lemma exists_leastYields_returns {pre : List Symbol} {parts : List ProgramPhrase}
    {front back : List Token} {b : Token} (hpre : pre.all (·.isOther "->" plainRules))
    (hxs : Follows tokens xs)
    (h : LeastYields programGrammar tokens (pre ++ r "ret" :: xs) (front ++ back) parts)
    (hb : ambiguous? back = some b) :
    ∃ us ws, us ++ ws = parts ∧ us.length = pre.length ∧
      LeastYields programGrammar tokens (r "ret" :: xs) back ws := by
  obtain ⟨front', back', us, ws, hfront, hback, hts, hparts⟩ := h.append
  refine ⟨us, ws, hparts, hfront.yields.length_eq, ?_⟩
  obtain ⟨arrow, rest, rfl, harrow⟩ := exists_arrow_of_ambiguous? hb
  rcases List.append_eq_append_iff.1 hts with ⟨more, rfl, rfl⟩ | ⟨more, rfl, hmore⟩
  · cases more with
    | nil => exact hback
    | cons first more =>
      obtain ⟨place, d, stop, hd, -, hback⟩ := hback
      obtain ⟨-, hback⟩ := getElem?_of_drop_eq_cons hback
      have hne := forall_name_ne hback fun k hplace => hxs.no_arrow_behind hd.derives hplace
      exact absurd harrow (hne arrow (by simp))
  · cases more with
    | nil => exact hmore ▸ hback
    | cons first more =>
      obtain ⟨rfl, -⟩ := List.cons.inj hmore
      exact absurd harrow (name_ne_of_leastYields hpre hfront arrow (by simp))

/-- Without a return type there is nothing that can be read in two ways. -/
lemma not_ambiguous_of_plain {vs : List ProgramPhrase} {front back : List Token} {b : Token}
    (hxs : xs.all (·.isOther "->" plainRules))
    (h : LeastYields programGrammar tokens xs (front ++ back) vs) : ambiguous? back ≠ some b := by
  intro hb
  obtain ⟨arrow, rest, rfl, harrow⟩ := exists_arrow_of_ambiguous? hb
  exact absurd harrow (name_ne_of_leastYields hxs h arrow (by simp))

/-- A function is made of its body, whatever stands in front of the return type. -/
lemma exists_body_of_function {us : List ProgramPhrase} {returns locals block : ProgramPhrase}
    {d : Definition} (hus : us.length = 7)
    (h : function (us ++ [returns, locals, block]) = .ok (.definition d)) :
    ∃ f, d = .function f ∧ body locals block = .ok f.body := by
  match us, hus with
  | [attrs, _, name, description, _, params, _], _ =>
    simp only [List.cons_append, List.nil_append, function, except_bind_ok_iff] at h
    obtain ⟨_, -, _, -, _, -, _, -, _, -, _, hbody, hd⟩ := h
    exact ⟨_, (ProgramPhrase.definition.inj (Except.ok.inj hd)).symm, hbody⟩

lemma mem_attributed_of_lib_item {d : Definition}
    (h : LeastYields programGrammar tokens [r "lib_item"] ts [.definition d]) :
    ts ∈ attributed d.rendering d.firstLocal? := by
  refine ⟨language_lib_item d ▸ mem_language_singleton.2 h.yields, ?_⟩
  rintro front back b rfl hb
  obtain ⟨p, hp, parts, hreduce, hparts⟩ := h.rule
  rw [alternatives_lib_item] at hp
  simp only [List.mem_cons, List.not_mem_nil, or_false] at hp
  rcases hp with rfl | rfl | rfl | rfl | rfl
  · exact absurd hb (not_ambiguous_of_plain (by decide) hparts)
  · have hfunction : LeastYields programGrammar tokens ([r "attrs", t "function", t "label", t "str",
        t "(", r "params", t ")"] ++ r "ret" :: [r "locals", r "block"]) (front ++ back) parts := hparts
    obtain ⟨us, ws, rfl, hus, hws⟩ := exists_leastYields_returns (by decide) follows_body hfunction hb
    obtain ⟨returns, locals, block, rfl⟩ := List.length_eq_three.1 hws.yields.length_eq
    obtain ⟨f, rfl, hbody⟩ := exists_body_of_function hus hreduce
    obtain ⟨⟨⟨outer, inner⟩, hsplit⟩, rfl, rfl⟩ := body_ok_iff.1 hbody
    obtain ⟨x, hx, hfirst⟩ := attributes_of_leastYields hws hb
    obtain ⟨first, hhead, hattributes⟩ := Option.map_eq_some_iff.1 hfirst
    refine ⟨x, hx, ?_⟩
    rw [Definition.firstLocal?, ← hsplit, List.head?_append, hhead, ← hattributes]
    rfl
  · exact absurd hb (not_ambiguous_of_plain (by decide) hparts)
  · exact absurd hb (not_ambiguous_of_plain (by decide) hparts)
  · exact absurd hb (not_ambiguous_of_plain (by decide) hparts)

lemma mem_attributed_of_ext_item {d : ExternalDefinition}
    (h : LeastYields programGrammar tokens [r "ext_item"] ts [.external d]) :
    ts ∈ attributed d.rendering none := by
  refine ⟨language_ext_item d ▸ mem_language_singleton.2 h.yields, ?_⟩
  rintro front back b rfl hb
  obtain ⟨p, hp, parts, -, hparts⟩ := h.rule
  rw [alternatives_ext_item] at hp
  simp only [List.mem_cons, List.not_mem_nil, or_false] at hp
  rcases hp with rfl | rfl | rfl
  · exact absurd hb (not_ambiguous_of_plain (by decide) hparts)
  · have hfunction : LeastYields programGrammar tokens ([r "attrs", r "callable_kind", t "label",
        t "=", t "id", t "(", r "ext_params", t ")"] ++ r "ret" :: [t ";"]) (front ++ back) parts :=
      hparts
    obtain ⟨us, ws, -, -, hws⟩ := exists_leastYields_returns (by decide) follows_semicolon hfunction hb
    exact absurd hb (not_ambiguous_of_semicolon hws)
  · exact absurd hb (not_ambiguous_of_plain (by decide) hparts)

lemma mem_keyword {name : String} {v : ProgramPhrase}
    (h : LeastYields programGrammar tokens [t name] ts [v]) : ts ∈ keyword name :=
  language_keyword name ▸ ⟨v, Set.mem_univ v, h.yields⟩

/-- A scope is read definition by definition. -/
lemma mem_of_scope {α : Type} {f : α → ProgramPhrase} {R : α → Language Token} {name items s : String}
    {item : Symbol} {first opens closes : ProgramPhrase} {ds : List α}
    (hlist : IsList items item none)
    (hitem : ∀ {ts a}, LeastYields programGrammar tokens [item] ts [f a] → ts ∈ R a)
    (h : LeastYields programGrammar tokens [t name, t "str", t "\x7b", r items, t "\x7d"] ts
      [first, .token (.text s), opens, .list (ds.map f), closes]) :
    ts ∈ keyword name * str s * keyword "\x7b" * (ds.map R).prod * keyword "\x7d" := by
  obtain ⟨tail, rest, hlists⟩ := hlist
  have hstr : ∀ {ts}, LeastYields programGrammar tokens [t "str"] ts [.token (.text s)] →
      ts ∈ str s := by
    intro ts h
    rw [str, ← language_word]
    exact mem_language_singleton.2 h.yields
  simp only [mul_assoc]
  exact h.mem_mul mem_keyword fun h => h.mem_mul hstr fun h => h.mem_mul mem_keyword fun h =>
    h.mem_mul (LeastYields.mem_prod_of_list hlists hitem) mem_keyword

lemma mem_attributedRendering_of_import {s : Scope}
    (h : LeastYields programGrammar tokens [r "import"] ts [.scope s]) :
    ts ∈ s.attributedRendering := by
  obtain ⟨p, hp, parts, hreduce, hparts⟩ := h.rule
  rw [alternatives_import, List.mem_singleton] at hp
  subst hp
  match parts, hparts.yields.length_eq with
  | [_, library, _, items, _], _ =>
    obtain ⟨name, rfl, ds, rfl, rfl⟩ : ∃ name, library = .token (.text name) ∧
        ∃ ds : List ExternalDefinition, items = .list (ds.map .external) ∧
          .import_ ⟨name, ds⟩ = s := by
      simpa [importScope, except_bind_ok_iff, except_map_ok_iff] using hreduce
    exact mem_of_scope isList_ext_items mem_attributed_of_ext_item hparts

lemma mem_attributedRendering_of_library {s : Scope}
    (h : LeastYields programGrammar tokens [r "library"] ts [.scope s]) :
    ts ∈ s.attributedRendering := by
  obtain ⟨p, hp, parts, hreduce, hparts⟩ := h.rule
  rw [alternatives_library, List.mem_singleton] at hp
  subst hp
  match parts, hparts.yields.length_eq with
  | [_, library, _, items, _], _ =>
    obtain ⟨name, rfl, ds, rfl, rfl⟩ : ∃ name, library = .token (.text name) ∧
        ∃ ds : List Definition, items = .list (ds.map .definition) ∧ .library ⟨name, ds⟩ = s := by
      simpa [libraryScope, except_bind_ok_iff, except_map_ok_iff] using hreduce
    exact mem_of_scope isList_lib_items mem_attributed_of_lib_item hparts

lemma mem_attributedRendering_of_section {s : Scope}
    (h : LeastYields programGrammar tokens [r "section"] ts [.scope s]) :
    ts ∈ s.attributedRendering := by
  obtain ⟨p, hp, parts, hreduce, hparts⟩ := h.rule
  rw [alternatives_section] at hp
  rcases List.mem_pair.1 hp with rfl | rfl
  all_goals
    obtain ⟨v, rfl⟩ := List.length_eq_one_iff.1 hparts.yields.length_eq
    obtain rfl := Except.ok.inj hreduce
  · exact mem_attributedRendering_of_import hparts
  · exact mem_attributedRendering_of_library hparts

lemma mem_attributedRendering_of_program {p : Program}
    (h : LeastYields programGrammar tokens [r "program"] ts [.program p]) :
    ts ∈ p.attributedRendering := by
  obtain ⟨tail, rest, hlist⟩ := isList_sections
  obtain ⟨q, hq, parts, hreduce, hparts⟩ := h.rule
  rw [alternatives_program, List.mem_singleton] at hq
  subst hq
  obtain ⟨v, rfl⟩ := List.length_eq_one_iff.1 hparts.yields.length_eq
  obtain ⟨scopes, rfl, rfl⟩ : ∃ scopes : List Scope, v = .list (scopes.map .scope) ∧ ⟨scopes⟩ = p := by
    simpa [program, except_map_ok_iff] using hreduce
  exact LeastYields.mem_prod_of_list hlist mem_attributedRendering_of_section hparts

end ProgramGrammar

/-- If fitting tokens have a parse, they have two parses for each group behind an arrow that can be read
as a dimension of a return type or as an attribute of a local, and no others. In the first one, which is
the program that is read, all these groups are attributes. -/
theorem Program.two_parses_per_ambiguity {tokens : List Token} {length : Nat}
    (htokens : ∀ t ∈ tokens, t.fits)
    (hparse : ∃ d, IsParse programGrammar (stream tokens length) d) :
    ∃ values, programGrammar.parseAll tokens length = .ok values ∧
      values.length = 2 ^ ambiguities tokens ∧
      ∃ p, values.head? = some (.program p) ∧ (Program.ofTokens tokens length).start.1 = .ok p ∧
        tokens ∈ p.attributedRendering := by
  obtain ⟨found, hfound⟩ := @ProgramGrammar.exists_found tokens length htokens
  obtain ⟨v, others, h⟩ := exists_cons_of_isParse hfound hparse
  obtain ⟨p, rfl⟩ := ProgramGrammar.exists_program_of_mem htokens h List.mem_cons_self
  refine ⟨_, h, ?_, p, rfl, Program.ofTokens_ok_iff.2 ⟨others, h⟩, ?_⟩
  · rw [ProgramGrammar.length_of_parseAll h, ProgramGrammar.count_isAmbiguous]
  · exact ProgramGrammar.mem_attributedRendering_of_program (leastYields_of_parseAll h)

namespace Sample

/-- `int n = 1; { }` -/
def flaggedTokens : List Token :=
  [labelToken "int", labelToken "n", keywordToken "=", intToken 1, keywordToken ";",
    keywordToken "\x7b", keywordToken "\x7d"]

/-- `library "L" { function F "f" () -> T[2][x] int n = 1; { } }` -/
def functionTokens : List Token :=
  [keywordToken "library", strToken "L", keywordToken "\x7b", keywordToken "function",
    labelToken "F", strToken "f", keywordToken "(", keywordToken ")", keywordToken "->",
    labelToken "T", keywordToken "[", intToken 2, keywordToken "]", keywordToken "[",
    labelToken "x", keywordToken "]"] ++ (flaggedTokens ++ [keywordToken "\x7d"])

/-- A function that returns an array of two dimensions. -/
def functionProgram : Program :=
  ⟨[.library ⟨"L", [.function ⟨.function, [], "F", "f", [], ⟨"T", [.size 2, .variable "x"]⟩,
    ⟨[intVariable "n" 1], []⟩, none⟩]⟩]⟩

lemma flaggedTokens_mem_rendering : flaggedTokens ∈ bodyRendering ⟨[intVariable "n" 1], []⟩ := by
  refine Language.mem_iSup.2 ⟨⟨([intVariable "n" 1], []), rfl⟩, ?_⟩
  simp [flaggedTokens, intVariable, labelToken, keywordToken, intToken, Block.rendering,
    variableRenderings, callRenderings, VariableDef.rendering, Value.rendering, ValueKind.rendering,
    TypeRef.rendering, attributesRendering, given_of, mul_assoc, add_mul, Language.mem_add, label]

lemma functionTokens_mem_rendering : functionTokens ∈ functionProgram.rendering := by
  have hbody : flaggedTokens ++ [keywordToken "\x7d"] ∈
      bodyRendering ⟨[intVariable "n" 1], []⟩ * keyword "\x7d" :=
    Language.append_mem_mul flaggedTokens_mem_rendering (by simp [keywordToken])
  simpa [functionProgram, functionTokens, keywordToken, strToken, labelToken, intToken,
    Program.rendering, Scope.rendering, Definition.rendering, returnsRendering, TypeRef.rendering,
    TypeRef.void, Dimension.rendering, attributesRendering, commas, separated, given_of, given_of_not,
    mul_assoc, add_mul, Language.mem_add, str, label] using hbody

end Sample

/-- Brackets between a return type and a local can be read in two ways, and the program has them as
attributes of the local. -/
theorem Program.two_parses_per_ambiguity_sample :
    (∀ t ∈ Sample.functionTokens, t.fits) ∧ ambiguities Sample.functionTokens = 1 ∧
      ∃ values, programGrammar.parseAll Sample.functionTokens 0 = .ok values ∧ values.length = 2 ∧
        ∃ p, values.head? = some (.program p) ∧
          (Program.ofTokens Sample.functionTokens 0).start.1 = .ok p ∧
            Sample.functionTokens ∈ p.attributedRendering := by
  have hfits : ∀ t ∈ Sample.functionTokens, t.fits := by decide
  have hambiguities : ambiguities Sample.functionTokens = 1 := by decide
  have hparse : ∃ d, IsParse programGrammar (stream Sample.functionTokens 0) d := by
    have hmem := Sample.functionTokens_mem_rendering
    rw [← ProgramGrammar.language_program] at hmem
    obtain ⟨b, e, h⟩ := (exists_yields_whole_iff 0).2 (mem_language_singleton.1 hmem)
    obtain ⟨d, hd, -⟩ := exists_isParse_iff.2 h
    exact ⟨d, hd⟩
  obtain ⟨values, hvalues, hlength, hfirst⟩ := Program.two_parses_per_ambiguity hfits hparse
  rw [hambiguities] at hlength
  exact ⟨hfits, hambiguities, values, hvalues, hlength, hfirst⟩

end TriggerScript
