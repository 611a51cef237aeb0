import TriggerScript.Proofs.Program.Signatures

/-!
# The program that is read

Several programs can have the same tokens as a rendering, but for each token list there is only one in
whose renderings all groups that can be read in two ways are attributes. So this is the program that is
read (`Program.ofTokens_iff_attributedRendering`).
-/

namespace TriggerScript

open Grammar Rendering

/-! ## Items one after the other -/

/-- Tokens of an item do not go on to be those of another one, and what follows the last item does not
begin with one. -/
structure Delimited {α : Type} (S : α → Language Token) (M : Language Token) : Prop where
  eq_of_append : ∀ {a b ts ts' rest rest'}, ts ∈ S a → ts' ∈ S b → ts ++ rest = ts' ++ rest' → ts = ts'
  not_mem : ∀ {a ts rest}, ts ∈ S a → ts ++ rest ∉ M

namespace Delimited

variable {α : Type} {R S : α → Language Token} {M : Language Token} {as bs : List α}
  {ts front back : List Token}

/-- If tokens of an item stand in front of a list, they are those of its first item. -/
lemma exists_cons (h : Delimited S M) (hR : ∀ a, R a ≤ S a) {b : α} (hfront : front ∈ S b)
    (hts : front ++ back ∈ (as.map R).prod * M) :
    ∃ a others, as = a :: others ∧ front ∈ R a ∧ back ∈ (others.map R).prod * M := by
  cases as with
  | nil =>
    rw [List.map_nil, List.prod_nil, one_mul] at hts
    exact (h.not_mem hfront hts).elim
  | cons a as =>
    rw [List.map_cons, List.prod_cons, mul_assoc] at hts
    obtain ⟨front', hfront', back', hback', heq⟩ := hts
    obtain rfl := h.eq_of_append (hR a hfront') hfront heq
    obtain rfl := List.append_cancel_left heq
    exact ⟨a, as, rfl, hfront', hback'⟩

/-- A list of items can be cut where tokens of items end. -/
lemma exists_append (h : Delimited S M) (hR : ∀ a, R a ≤ S a) (hfront : front ∈ (bs.map S).prod)
    (hts : front ++ back ∈ (as.map R).prod * M) :
    ∃ as₁ as₂, as = as₁ ++ as₂ ∧ front ∈ (as₁.map R).prod ∧ back ∈ (as₂.map R).prod * M := by
  induction bs generalizing front as with
  | nil =>
    obtain rfl := (Language.mem_one _).1 hfront
    exact ⟨[], as, rfl, Language.nil_mem_one, hts⟩
  | cons b bs ih =>
    obtain ⟨first, hfirst, front, hfront, rfl⟩ := hfront
    rw [List.append_assoc] at hts
    obtain ⟨a, others, rfl, hfirst, hothers⟩ := h.exists_cons hR hfirst hts
    obtain ⟨as₁, as₂, rfl, hfront, hback⟩ := ih hfront hothers
    exact ⟨a :: as₁, as₂, rfl, Language.append_mem_mul hfirst hfront, hback⟩

/-- Items are known from their tokens if each of them is. -/
lemma eq_of_mem (h : Delimited S M) (hR : ∀ a, R a ≤ S a)
    (hunique : ∀ {a b ts}, ts ∈ R a → ts ∈ R b → a = b) (has : ts ∈ (as.map R).prod * M)
    (hbs : ts ∈ (bs.map R).prod * M) : as = bs := by
  induction as generalizing bs ts with
  | nil =>
    cases bs with
    | nil => rfl
    | cons b bs =>
      rw [List.map_nil, List.prod_nil, one_mul] at has
      rw [List.map_cons, List.prod_cons, mul_assoc] at hbs
      obtain ⟨first, hfirst, rest, -, rfl⟩ := hbs
      exact (h.not_mem (hR b hfirst) has).elim
  | cons a as ih =>
    rw [List.map_cons, List.prod_cons, mul_assoc] at has
    obtain ⟨first, hfirst, rest, hrest, rfl⟩ := has
    obtain ⟨b, others, rfl, hfirst', hrest'⟩ := h.exists_cons hR (hR a hfirst) hbs
    rw [hunique hfirst hfirst', ih hrest hrest']

end Delimited

namespace ProgramGrammar

variable {xs : List Symbol} {x : Symbol} {ts ts' rest rest' : List Token}

/-! ## Symbols that are read in one way -/

/-- The symbols are matched one after the other, and only return types with what follows them are
matched in more than one way. -/
abbrev Orderly (xs : List Symbol) : Prop :=
  (lookahead (bodyRules ++ otherRules)).orderly returning (· ≠ "->") [] xs

lemma orderly_lib_item : Orderly [r "lib_item"] := by
  decide

lemma orderly_ext_item : Orderly [r "ext_item"] := by
  decide

lemma counted {tokens : Array Token} {place stop : Nat} {d : Derivation} (hxs : Orderly xs)
    (hd : Derives programGrammar tokens xs place d stop) :
    Counted programGrammar tokens (isAmbiguous tokens) [] xs place stop :=
  Lookahead.counted (covers _) checks_program
    (fun htoken hplain => isAmbiguous_of_plain htoken (of_decide_eq_true hplain)) counted_returning
    hxs hd clear_nil

/-- A symbol yields a value from the tokens in its language for that value. -/
lemma yields_of_mem {v : ProgramPhrase} {l : Language Token} (hl : L x {v} = l) (h : ts ∈ l) :
    Yields programGrammar [x] ts [v] := by
  rw [← hl] at h
  exact mem_language_singleton.1 h

/-- What the symbols yield is derived at the beginning of a stream. -/
lemma exists_derives {vs : List ProgramPhrase} (h : Yields programGrammar xs ts vs)
    (rest : List Token) : ∃ d, Derives programGrammar (ts ++ rest).toArray xs 0 d ts.length ∧
      d.values programGrammar = .ok vs := by
  have hstart : ts <+: (ts ++ rest).toArray.toList.drop 0 := ⟨rest, rfl⟩
  obtain ⟨d, hd, hvs⟩ := h.derives hstart
  rw [Nat.zero_add] at hd
  exact ⟨d, hd, hvs⟩

/-- The tokens of symbols end at a known place. -/
lemma eq_of_append {vs vs' : List ProgramPhrase} (hxs : Orderly xs)
    (h : Yields programGrammar xs ts vs) (h' : Yields programGrammar xs ts' vs')
    (heq : ts ++ rest = ts' ++ rest') : ts = ts' := by
  obtain ⟨d, hd, -⟩ := exists_derives h rest
  obtain ⟨d', hd', -⟩ := exists_derives h' rest'
  rw [← heq] at hd'
  exact List.append_inj_left heq ((counted hxs hd).stop_eq hd' clear_nil).symm

/-- No group in the tokens can be read in two ways. -/
def Unambiguous (ts : List Token) : Prop :=
  ∀ front back token, front ++ back = ts → ambiguous? back ≠ some token

/-- The values of unambiguous tokens are known. -/
lemma eq_of_yields {vs vs' : List ProgramPhrase} (hxs : Orderly xs) (hts : Unambiguous ts)
    (h : Yields programGrammar xs ts vs) (h' : Yields programGrammar xs ts vs') : vs = vs' := by
  obtain ⟨d, hd, hvs⟩ := exists_derives h []
  obtain ⟨d', hd', hvs'⟩ := exists_derives h' []
  have hcount : Nat.count (isAmbiguous (ts ++ []).toArray ·) ts.length = 0 := by
    refine Nat.count_of_forall_not fun {k} _ hk => ?_
    obtain ⟨token, htoken⟩ := Option.isSome_iff_exists.1 hk
    rw [List.append_nil] at htoken
    exact hts (ts.take k) (ts.drop k) token (List.take_append_drop k ts) htoken
  have hone := (counted hxs hd).encard_eq
  rw [hcount, Nat.zero_sub, pow_zero] at hone
  obtain ⟨e, he⟩ := Set.encard_eq_one.1 hone
  obtain rfl : d = d' := by
    have hmem : ∀ {d}, Derives programGrammar (ts ++ []).toArray xs 0 d ts.length → d = e := fun hd =>
      Set.mem_singleton_iff.1 (he ▸ hd)
    rw [hmem hd, hmem hd']
  exact Except.ok.inj (hvs.symm.trans hvs')

/-- What stands in front is known from the table. -/
lemma exists_first {v : ProgramPhrase} {name : String}
    (hx : ((lookahead []).firsts [x]).all fun b => b.word.head?.any (· ≠ name))
    (h : Yields programGrammar [x] ts [v]) :
    ∃ first others, ts = first :: others ∧ first.name ≠ name := by
  obtain ⟨d, hd, -⟩ := exists_derives h []
  obtain ⟨⟨word, whole⟩, hb, hword, -⟩ :=
    Lookahead.exists_beginning (covers []) hd Lookahead.depth
  have hname := List.all_eq_true.1 hx _ hb
  cases word with
  | nil => cases hname
  | cons a word =>
    cases ts with
    | nil => exact absurd hword (by simp [ahead])
    | cons first others =>
      obtain ⟨rfl, -⟩ := List.cons_prefix_cons.1 hword
      exact ⟨first, others, rfl, of_decide_eq_true hname⟩

/-- The items of a list are delimited if what follows it does not begin as they do. -/
lemma delimited {α : Type} {f : α → ProgramPhrase} {S : α → Language Token} {M : Language Token}
    (hS : ∀ a, L x {f a} = S a) (hx : Orderly [x])
    (hfirst : ((lookahead []).firsts [x]).all fun b => b.word.head?.any (· ≠ "\x7d"))
    (hM : ∀ {first others}, first :: others ∈ M → first.name = "\x7d") : Delimited S M where
  eq_of_append ha hb := eq_of_append hx (yields_of_mem (hS _) ha) (yields_of_mem (hS _) hb)
  not_mem ha hmem := by
    obtain ⟨first, others, rfl, hne⟩ := exists_first hfirst (yields_of_mem (hS _) ha)
    exact hne (hM hmem)

lemma delimited_lib_items : Delimited Definition.rendering (keyword "\x7d") :=
  delimited language_lib_item orderly_lib_item (by decide) fun h => (cons_mem_keyword.1 h).1

lemma delimited_ext_items : Delimited ExternalDefinition.rendering (keyword "\x7d") :=
  delimited language_ext_item orderly_ext_item (by decide) fun h => (cons_mem_keyword.1 h).1

lemma delimited_sections : Delimited Scope.rendering 1 :=
  delimited language_section (by decide) (by decide) fun h => by simp at h

/-! ## Signatures and bodies are known -/

section

variable {ds ds' : List Dimension} {dims dims' body body' : List Token} {token token' : Token}

/-- Dimensions do not begin with a flag. -/
lemma eq_nil_of_beginsWithFlag (hdims : dims ∈ (ds.map Dimension.rendering).prod)
    (hbody : BeginsWithFlag token body) (hbody' : BeginsWithFlag token' body')
    (heq : body = dims ++ body') : dims = [] := by
  cases ds with
  | nil => exact (Language.mem_one _).1 hdims
  | cons d ds =>
    obtain ⟨first, hfirst, rest, hrest, rfl⟩ := hdims
    obtain ⟨a, b, c, rfl, -, -⟩ := exists_of_mem_dimension hfirst
    -- behind the flag there is a label, and behind the first dimension a bracket
    have hlabel : (rest ++ body').head?.map (·.name) = some "label" := by
      obtain ⟨_, _, next, others, rfl, -, -, -, hnext⟩ := hbody
      obtain ⟨-, -, -, heq⟩ : _ ∧ _ ∧ _ ∧ next :: others = rest ++ body' := by simpa using heq
      simp [← heq, hnext]
    have hbracket : (rest ++ body').head?.map (·.name) = some "[" := by
      rcases eq_or_ne ds [] with rfl | hds
      · obtain rfl := (Language.mem_one _).1 hrest
        obtain ⟨opens, _, _, _, rfl, hopens, -⟩ := hbody'
        simp [hopens]
      · exact head?_dims_append hrest hds
    exact absurd (hlabel.symm.trans hbracket) (by decide)

/-- Dimensions end where a flag begins. -/
lemma dims_eq_of_beginsWithFlag (hdims : dims ∈ (ds.map Dimension.rendering).prod)
    (hdims' : dims' ∈ (ds'.map Dimension.rendering).prod) (hbody : BeginsWithFlag token body)
    (hbody' : BeginsWithFlag token' body') (heq : dims ++ body = dims' ++ body') : dims = dims' := by
  induction ds generalizing ds' dims dims' with
  | nil =>
    obtain rfl := (Language.mem_one _).1 hdims
    exact (eq_nil_of_beginsWithFlag hdims' hbody hbody' heq).symm
  | cons d ds ih =>
    cases ds' with
    | nil =>
      obtain rfl := (Language.mem_one _).1 hdims'
      exact eq_nil_of_beginsWithFlag hdims hbody' hbody heq.symm
    | cons d' ds' =>
      obtain ⟨first, hfirst, rest, hrest, rfl⟩ := hdims
      obtain ⟨first', hfirst', rest', hrest', rfl⟩ := hdims'
      obtain ⟨a, b, c, rfl, -, -⟩ := exists_of_mem_dimension hfirst
      obtain ⟨a', b', c', rfl, -, -⟩ := exists_of_mem_dimension hfirst'
      obtain ⟨rfl, rfl, rfl, htail⟩ : a = a' ∧ b = b' ∧ c = c' ∧ rest ++ body = rest' ++ body' := by
        simpa using heq
      exact congrArg ([a, b, c] ++ ·) (ih hrest hrest' htail)

end

/-- A body is known from its tokens. -/
lemma body_eq_of_mem {outer inner outer' inner' : List VariableDef} {statements statements' : List Call}
    (h : ts ∈ (variableRenderings outer).prod * Block.rendering ⟨inner, statements⟩)
    (h' : ts ∈ (variableRenderings outer').prod * Block.rendering ⟨inner', statements'⟩) :
    outer = outer' ∧ inner = inner' ∧ statements = statements' := by
  have hyields : ∀ {outer inner statements},
      ts ∈ (variableRenderings outer).prod * Block.rendering ⟨inner, statements⟩ →
        Yields programGrammar [r "locals", r "block"] ts
          [.list (outer.map .variable), .block ⟨inner, statements⟩] := by
    rintro outer inner statements ⟨front, hfront, back, hback, rfl⟩
    exact yields_cons_iff.2 ⟨front, back, yields_of_mem (language_locals outer) hfront,
      yields_of_mem (language_block _) hback, rfl⟩
  have hts : Unambiguous ts := by
    rintro front back token rfl htoken
    obtain ⟨arrow, rest, rfl, harrow⟩ := exists_arrow_of_ambiguous? htoken
    exact Arrowless.body _ _ _ h arrow (by simp) harrow
  have heq := eq_of_yields (by decide) hts (hyields h) (hyields h')
  have hinjective : Function.Injective ProgramPhrase.variable := fun _ _ =>
    ProgramPhrase.variable.inj
  simpa [hinjective.eq_iff, List.map_inj_right] using heq

end ProgramGrammar

namespace Definition

open ProgramGrammar

variable {d d' : Definition} {b b' : Block} {ts signature : List Token}

/-- A signature is known from its tokens. -/
lemma withBody_eq_of_signature (hb : d.body? = some b) (hb' : d'.body? = some b')
    (h : signature ∈ d.signature) (h' : signature ∈ d'.signature) :
    d.withBody ⟨[], []⟩ = d'.withBody ⟨[], []⟩ := by
  -- with an empty block behind it there is nothing that can be read in two ways
  obtain ⟨block, hblock, hlength⟩ : ∃ block ∈ Block.rendering ⟨[], []⟩, block.length = 2 :=
    ⟨[⟨"\x7b", "", .none, 0⟩, ⟨"\x7d", "", .none, 0⟩], by
      simp [Block.rendering, variableRenderings, callRenderings], rfl⟩
  have hyields : ∀ {d : Definition} {b}, d.body? = some b → signature ∈ d.signature →
      Yields programGrammar [r "lib_item"] (signature ++ block)
        [.definition (d.withBody ⟨[], []⟩)] := by
    intro d b hb h
    refine yields_of_mem (language_lib_item _) ?_
    rw [rendering_eq (body?_withBody hb), signature_withBody]
    refine Language.append_mem_mul h (Language.mem_iSup.2 ⟨⟨([], []), rfl⟩, ?_⟩)
    exact Language.append_mem_mul Language.nil_mem_one hblock
  have houter : [] ∈ (variableRenderings []).prod := Language.nil_mem_one
  have hts : Unambiguous (signature ++ block) := by
    intro front back token heq htoken
    obtain ⟨-, -, -, -, -, -, -, _, _, _, _, hflag, -⟩ :=
      exists_flag_of_ambiguous? h houter hblock (by simp) heq htoken
    rw [List.nil_append] at hflag
    simp [hflag] at hlength
  have heq := eq_of_yields orderly_lib_item hts (hyields hb h) (hyields hb' h')
  simpa using heq

/-- A group that can be read in two ways tells where the signature ends. -/
lemma exists_signature_of_mem_attributed {front back : List Token} {token : Token}
    (h : ts ∈ attributed d.rendering d.firstLocal?) (heq : front ++ back = ts)
    (htoken : ambiguous? back = some token) : ∃ (b : Block) (s : b.Split) (ds : List Dimension)
      (arrow name : Token) (dims body : List Token), d.body? = some b ∧
        ts = front ++ arrow :: name :: (dims ++ body) ∧ front ++ arrow :: name :: dims ∈ d.signature ∧
        dims ∈ (ds.map Dimension.rendering).prod ∧ BeginsWithFlag token body ∧
        body ∈ (variableRenderings s.1.1).prod * Block.rendering ⟨s.1.2, b.statements⟩ := by
  obtain ⟨x, -, hfirst⟩ := h.2 front back token heq htoken
  obtain ⟨b, hb⟩ : ∃ b, d.body? = some b := by
    rcases d with d | d | d | d
    · cases hfirst
    · cases hfirst
    · exact ⟨_, rfl⟩
    · cases hfirst
  have hmem := h.1
  rw [rendering_eq hb] at hmem
  obtain ⟨signature, hsignature, body, hbody, rfl⟩ := hmem
  obtain ⟨s, outer, houter, block, hblock, rfl⟩ := Language.mem_iSup.1 hbody
  obtain ⟨ty, arrow, name, dims, -, rfl, hdims, hflag⟩ := exists_flag_of_ambiguous? hsignature houter
    hblock ((mem_attributed_iff hb s hsignature houter hblock).1 h) heq htoken
  exact ⟨b, s, ty.dims, arrow, name, dims, outer ++ block, hb, by simp, hsignature, hdims, hflag,
    Language.append_mem_mul houter hblock⟩

/-- A definition is known from tokens in which all groups that can be read in two ways are
attributes. -/
lemma eq_of_mem_attributed (h : ts ∈ attributed d.rendering d.firstLocal?)
    (h' : ts ∈ attributed d'.rendering d'.firstLocal?) : d = d' := by
  by_cases hunambiguous : Unambiguous ts
  · have heq := eq_of_yields orderly_lib_item hunambiguous
      (yields_of_mem (language_lib_item d) h.1) (yields_of_mem (language_lib_item d') h'.1)
    simpa using heq
  · simp only [Unambiguous, not_forall, not_not] at hunambiguous
    obtain ⟨front, back, token, heq, htoken⟩ := hunambiguous
    obtain ⟨b, s, ds, arrow, name, dims, body, hb, hts, hsignature, hdims, hflag, hbody⟩ :=
      exists_signature_of_mem_attributed h heq htoken
    obtain ⟨b', s', ds', arrow', name', dims', body', hb', hts', hsignature', hdims', hflag', hbody'⟩ :=
      exists_signature_of_mem_attributed h' heq htoken
    obtain ⟨rfl, rfl, htail⟩ : arrow = arrow' ∧ name = name' ∧ dims ++ body = dims' ++ body' := by
      simpa using hts.symm.trans hts'
    obtain rfl := dims_eq_of_beginsWithFlag hdims hdims' hflag hflag' htail
    obtain rfl := List.append_cancel_left htail
    obtain ⟨houter, hinner, hstatements⟩ := body_eq_of_mem hbody hbody'
    have hlocals : b.locals = b'.locals := by rw [← s.2, ← s'.2, houter, hinner]
    have hblock : b = b' := by
      cases b
      cases b'
      exact congrArg₂ Block.mk hlocals hstatements
    calc d = (d.withBody ⟨[], []⟩).withBody b := by rw [withBody_withBody, withBody_eq hb]
      _ = (d'.withBody ⟨[], []⟩).withBody b' := by
        rw [withBody_eq_of_signature hb hb' hsignature hsignature', hblock]
      _ = d' := by rw [withBody_withBody, withBody_eq hb']

end Definition

/-! ## Programs are known -/

section

open ProgramGrammar

variable {ts : List Token}

lemma attributed_le (l : Language Token) (first : Option VariableDef) : attributed l first ≤ l :=
  fun _ h => h.1

/-- An imported definition is known from tokens in which no group can be read in two ways. -/
lemma ExternalDefinition.eq_of_mem_attributed {d d' : ExternalDefinition}
    (h : ts ∈ attributed d.rendering none) (h' : ts ∈ attributed d'.rendering none) : d = d' := by
  have hts : Unambiguous ts := by
    intro front back token heq htoken
    obtain ⟨x, -, hfirst⟩ := h.2 front back token heq htoken
    cases hfirst
  have heq := eq_of_yields orderly_ext_item hts (yields_of_mem (language_ext_item d) h.1)
    (yields_of_mem (language_ext_item d') h'.1)
  simpa using heq

/-- A scope begins with a keyword, a name and a brace. -/
lemma mem_heading_mul {name s : String} {l : Language Token} :
    ts ∈ keyword name * str s * keyword "\x7b" * l ↔ ∃ first library opens rest,
      ts = first :: library :: opens :: rest ∧ first.name = name ∧
        (library.name = "str" ∧ library.value = .text s) ∧ opens.name = "\x7b" ∧ rest ∈ l := by
  simp only [mul_assoc, str]
  constructor
  · rintro ⟨_, ⟨first, rfl, hfirst⟩, _, ⟨_, ⟨library, rfl, hlibrary⟩, _, ⟨_, ⟨opens, rfl, hopens⟩,
      rest, hrest, rfl⟩, rfl⟩, rfl⟩
    exact ⟨first, library, opens, rest, rfl, hfirst, hlibrary, hopens, hrest⟩
  · rintro ⟨first, library, opens, rest, rfl, hfirst, hlibrary, hopens, hrest⟩
    simp only [cons_mem_keyword_mul, cons_mem_word_mul]
    exact ⟨hfirst, hlibrary, hopens, hrest⟩

/-- A scope is known from tokens in which all groups that can be read in two ways are attributes. -/
lemma Scope.eq_of_mem_attributedRendering {s s' : Scope} (h : ts ∈ s.attributedRendering)
    (h' : ts ∈ s'.attributedRendering) : s = s' := by
  rcases s with ⟨library, ds⟩ | ⟨library, ds⟩ <;> rcases s' with ⟨library', ds'⟩ | ⟨library', ds'⟩
  all_goals
    rw [attributedRendering, mul_assoc] at h
    rw [attributedRendering, mul_assoc] at h'
    obtain ⟨first, name, opens, rest, rfl, hfirst, hname, -, hrest⟩ := mem_heading_mul.1 h
    obtain ⟨_, _, _, _, heq, hfirst', hname', -, hrest'⟩ := mem_heading_mul.1 h'
    obtain ⟨rfl, rfl, rfl, rfl⟩ : _ ∧ _ ∧ _ ∧ _ := by simpa using heq
    obtain rfl : library = library' := TokenValue.text.inj (hname.2.symm.trans hname'.2)
  · obtain rfl : ds = ds' := delimited_ext_items.eq_of_mem (fun _ => attributed_le _ _)
      ExternalDefinition.eq_of_mem_attributed hrest hrest'
    rfl
  · simp [hfirst] at hfirst'
  · simp [hfirst] at hfirst'
  · obtain rfl : ds = ds' := delimited_lib_items.eq_of_mem (fun _ => attributed_le _ _)
      Definition.eq_of_mem_attributed hrest hrest'
    rfl

lemma prod_map_le {α : Type} {R S : α → Language Token} (h : ∀ a, R a ≤ S a) (as : List α) :
    (as.map R).prod ≤ (as.map S).prod := by
  induction as with
  | nil => exact le_rfl
  | cons a as ih => exact mul_le_mul' (h a) ih

lemma Scope.attributedRendering_le (s : Scope) : s.attributedRendering ≤ s.rendering := by
  cases s with
  | import_ s =>
    exact mul_le_mul' (mul_le_mul' le_rfl (prod_map_le (fun _ => attributed_le _ _) _)) le_rfl
  | library s =>
    exact mul_le_mul' (mul_le_mul' le_rfl (prod_map_le (fun _ => attributed_le _ _) _)) le_rfl

lemma Program.attributedRendering_le (p : Program) : p.attributedRendering ≤ p.rendering :=
  prod_map_le Scope.attributedRendering_le _

/-- A program is known from tokens in which all groups that can be read in two ways are attributes. -/
lemma Program.eq_of_mem_attributedRendering {p q : Program} (hp : ts ∈ p.attributedRendering)
    (hq : ts ∈ q.attributedRendering) : p = q := by
  have hsections : ∀ {p : Program}, ts ∈ p.attributedRendering →
      ts ∈ (p.scopes.map Scope.attributedRendering).prod * 1 := by
    intro p hp
    rwa [mul_one]
  have hscopes : p.scopes = q.scopes := delimited_sections.eq_of_mem Scope.attributedRendering_le
    Scope.eq_of_mem_attributedRendering (hsections hp) (hsections hq)
  cases p
  cases q
  exact congrArg Program.mk hscopes

/-- In what is read, all groups that can be read in two ways are attributes. -/
lemma Program.mem_attributedRendering_of_ofTokens {length : Nat} {p : Program}
    (h : (Program.ofTokens ts length).start.1 = .ok p) : ts ∈ p.attributedRendering := by
  obtain ⟨others, hothers⟩ := Program.ofTokens_ok_iff.1 h
  exact mem_attributedRendering_of_program (leastYields_of_parseAll hothers)

/-- A program is read from any rendering. -/
lemma Program.exists_ofTokens_of_mem_rendering {p : Program} (htokens : ∀ t ∈ ts, t.fits)
    (h : ts ∈ p.rendering) (length : Nat) : ∃ q, (Program.ofTokens ts length).start.1 = .ok q := by
  rw [← language_program] at h
  obtain ⟨values, hvalues, hvalue⟩ := (exists_mem_parseAll_iff_mem_language htokens).2 h
  obtain ⟨first, others, rfl⟩ := List.exists_cons_of_ne_nil (List.ne_nil_of_mem hvalue)
  obtain ⟨q, rfl⟩ := exists_program_of_mem htokens hvalues List.mem_cons_self
  exact ⟨q, Program.ofTokens_ok_iff.2 ⟨others, hvalues⟩⟩

/-- The program that is read from fitting tokens is the one of which they are a rendering in which all
groups that can be read in two ways are attributes. -/
lemma Program.ofTokens_iff_attributedRendering {length : Nat} {p : Program}
    (htokens : ∀ t ∈ ts, t.fits) :
    (Program.ofTokens ts length).start.1 = .ok p ↔ ts ∈ p.attributedRendering := by
  refine ⟨Program.mem_attributedRendering_of_ofTokens, fun hp => ?_⟩
  obtain ⟨q, hq⟩ := Program.exists_ofTokens_of_mem_rendering htokens
    (Program.attributedRendering_le p hp) length
  rw [hq, Program.eq_of_mem_attributedRendering hp (Program.mem_attributedRendering_of_ofTokens hq)]

end

/-! ## Where tokens stand does not matter -/

/-- The token without the text and the place that it has in a source. -/
def Token.bare (t : Token) : Token :=
  { t with raw := "", offset := 0 }

/-- The two lists are made of the same tokens, apart from where they stand. -/
def SameTokens (ts ts' : List Token) : Prop :=
  ts.map Token.bare = ts'.map Token.bare

/-- Whether a token list is in the language does not depend on where the tokens stand. -/
def Placeless (l : Language Token) : Prop :=
  ∀ ts ts', SameTokens ts ts' → ts ∈ l → ts' ∈ l

section

variable {ts ts' : List Token} {t t' : Token}

lemma name_eq_of_bare (h : t.bare = t'.bare) : t.name = t'.name :=
  (Token.mk.inj h).1

lemma value_eq_of_bare (h : t.bare = t'.bare) : t.value = t'.value :=
  (Token.mk.inj h).2.2.1

lemma lastGroup?_map_bare (ts : List Token) :
    lastGroup? (ts.map Token.bare) = (lastGroup? ts).map Token.bare := by
  have hname : ∀ t : Token, t.bare.name = t.name := fun _ => rfl
  fun_induction lastGroup? ts with
  | case1 a b c rest hnames hlabel => simp_all [lastGroup?, Function.comp_def]
  | case2 a b c rest hnames hlabel ih => simp_all [lastGroup?, Function.comp_def]
  | case3 a b c rest hnames => simp_all [lastGroup?]
  | case4 ts hne =>
    rcases ts with _ | ⟨a, _ | ⟨b, _ | ⟨c, rest⟩⟩⟩
    · rfl
    · rfl
    · rfl
    · exact (hne a b c rest rfl).elim

lemma ambiguous?_map_bare (ts : List Token) :
    ambiguous? (ts.map Token.bare) = (ambiguous? ts).map Token.bare := by
  match ts with
  | [] => rfl
  | [_] => rfl
  | a :: b :: rest =>
    have hname : ∀ t : Token, t.bare.name = t.name := fun _ => rfl
    simp only [List.map_cons, ambiguous?, hname, lastGroup?_map_bare]
    split_ifs <;> rfl

namespace SameTokens

lemma symm (h : SameTokens ts ts') : SameTokens ts' ts :=
  Eq.symm h

lemma exists_cons (h : SameTokens (t :: ts) ts') :
    ∃ t' rest, ts' = t' :: rest ∧ t.bare = t'.bare ∧ SameTokens ts rest := by
  obtain ⟨t', rest, rfl, ht, hrest⟩ := List.map_eq_cons_iff.1 h.symm
  exact ⟨t', rest, rfl, ht.symm, hrest.symm⟩

lemma exists_append {front back : List Token} (h : SameTokens (front ++ back) ts') :
    ∃ front' back', ts' = front' ++ back' ∧ SameTokens front front' ∧ SameTokens back back' := by
  rw [SameTokens, List.map_append] at h
  obtain ⟨front', back', rfl, hfront, hback⟩ := List.map_eq_append_iff.1 h.symm
  exact ⟨front', back', rfl, hfront.symm, hback.symm⟩

lemma fits (h : SameTokens ts ts') (hts : ∀ t ∈ ts, t.fits) : ∀ t ∈ ts', t.fits := by
  intro t' ht'
  have hmem : t'.bare ∈ ts.map Token.bare := h ▸ List.mem_map_of_mem ht'
  obtain ⟨t, ht, heq⟩ := List.mem_map.1 hmem
  have hfits := hts t ht
  rwa [Token.fits, name_eq_of_bare heq, value_eq_of_bare heq] at hfits

lemma exists_of_ambiguous? (h : SameTokens ts ts') (ht : ambiguous? ts = some t) :
    ∃ t', ambiguous? ts' = some t' ∧ t'.bare = t.bare := by
  have hmap : (ambiguous? ts').map Token.bare = some t.bare := by
    rw [← ambiguous?_map_bare, ← h, ambiguous?_map_bare, ht, Option.map_some]
  exact Option.map_eq_some_iff.1 hmap

end SameTokens

lemma Grammar.Yields.of_sameTokens {xs : List Symbol} {vs : List ProgramPhrase}
    (h : Yields programGrammar xs ts vs) (hsame : SameTokens ts ts') :
    Yields programGrammar xs ts' vs := by
  induction h generalizing ts' with
  | nil =>
    obtain rfl := List.map_eq_nil_iff.1 hsame.symm
    exact .nil
  | @terminal t symbols ts vs _ ih =>
    obtain ⟨t', rest, rfl, ht, hrest⟩ := hsame.exists_cons
    have hphrase : (Phrase.ofToken t : ProgramPhrase) = Phrase.ofToken t' :=
      congrArg ProgramPhrase.token (value_eq_of_bare ht)
    rw [name_eq_of_bare ht, hphrase]
    exact .terminal (ih hrest)
  | rule hp _ hv _ ihinner ihrest =>
    obtain ⟨front, back, rfl, hfront, hback⟩ := hsame.exists_append
    exact .rule hp (ihinner hfront) hv (ihrest hback)

end

namespace Placeless

variable {l m : Language Token}

lemma mul (hl : Placeless l) (hm : Placeless m) : Placeless (l * m) := by
  rintro _ ts' hsame ⟨front, hfront, back, hback, rfl⟩
  obtain ⟨front', back', rfl, hfront', hback'⟩ := hsame.exists_append
  exact Language.append_mem_mul (hl _ _ hfront' hfront) (hm _ _ hback' hback)

lemma prod_map {α : Type} {R : α → Language Token} (h : ∀ a, Placeless (R a)) (as : List α) :
    Placeless (as.map R).prod := by
  induction as with
  | nil =>
    rintro _ ts' hsame ⟨⟩
    obtain rfl := List.map_eq_nil_iff.1 hsame.symm
    exact Language.nil_mem_one
  | cons a as ih => exact (h a).mul ih

lemma language (x : Symbol) (values : Set ProgramPhrase) : Placeless (ProgramGrammar.L x values) := by
  rintro ts ts' hsame ⟨v, hv, hyields⟩
  exact ⟨v, hv, hyields.of_sameTokens hsame⟩

lemma attributed (hl : Placeless l) (first : Option VariableDef) : Placeless (attributed l first) := by
  rintro ts ts' hsame ⟨hts, hfirst⟩
  refine ⟨hl ts ts' hsame hts, ?_⟩
  rintro front' back' token' rfl htoken'
  obtain ⟨front, back, rfl, -, hback⟩ := hsame.symm.exists_append
  obtain ⟨token, htoken, hbare⟩ := hback.exists_of_ambiguous? htoken'
  obtain ⟨x, hx, hattributes⟩ := hfirst front back token rfl htoken
  exact ⟨x, value_eq_of_bare hbare ▸ hx, hattributes⟩

end Placeless

open ProgramGrammar in
lemma Scope.placeless (s : Scope) : Placeless s.attributedRendering := by
  have hkeyword : ∀ name, Placeless (keyword name) := fun name =>
    language_keyword name ▸ Placeless.language _ _
  have hstr : ∀ s, Placeless (str s) := fun s => by
    rw [str, ← language_word]
    exact Placeless.language _ _
  have hscope : ∀ {name library : String} {items : Language Token}, Placeless items →
      Placeless (keyword name * str library * keyword "\x7b" * items * keyword "\x7d") := fun hitems =>
    ((((hkeyword _).mul (hstr _)).mul (hkeyword _)).mul hitems).mul (hkeyword _)
  cases s with
  | import_ s =>
    exact hscope (.prod_map (fun d => .attributed (language_ext_item d ▸ .language _ _) _) _)
  | library s =>
    exact hscope (.prod_map (fun d => .attributed (language_lib_item d ▸ .language _ _) _) _)

/-- The program that is read does not depend on where the tokens stand. -/
lemma Program.ofTokens_of_sameTokens {ts ts' : List Token} {length length' : Nat} {p : Program}
    (hsame : SameTokens ts ts') (htokens : ∀ t ∈ ts, t.fits)
    (hp : (Program.ofTokens ts length).start.1 = .ok p) :
    (Program.ofTokens ts' length').start.1 = .ok p := by
  rw [Program.ofTokens_iff_attributedRendering htokens] at hp
  rw [Program.ofTokens_iff_attributedRendering (hsame.fits htokens)]
  exact Placeless.prod_map Scope.placeless p.scopes ts ts' hsame hp

end TriggerScript
