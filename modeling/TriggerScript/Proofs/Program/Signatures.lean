import TriggerScript.Proofs.Program.Ambiguity

/-!
# Signatures and bodies

A function, an action or a trigger is a signature with a body behind it. Only a signature that ends in a
return type can hold a group that can be read in two ways, and whether it does depends on its last
dimension and on the first token of the body (`Definition.mem_attributed_iff`).
-/

namespace TriggerScript

open Grammar Rendering

namespace Definition

/-- The body of a function, an action or a trigger. -/
def body? : Definition → Option Block
  | .function d => some d.body
  | .trigger d => some d.body
  | _ => none

/-- The definition with this body in the place of its own one. -/
def withBody (b : Block) : Definition → Definition
  | .function d => .function { d with body := b }
  | .trigger d => .trigger { d with body := b }
  | d => d

/-- The return type of a function. -/
def returns? : Definition → Option TypeRef
  | .function d => if d.kind = .function then some d.returns else none
  | _ => none

/-- What stands in front of the return type and the body. -/
def opening : Definition → Language Token
  | .function d =>
    match d.kind with
    | .function => given (d.allocation = none) * (attributesRendering d.attributes *
        keyword "function" * label d.name * str d.description * keyword "(" *
        commas (d.params.map ParamDef.rendering) * keyword ")")
    | .action => given (d.returns = .void ∧ d.allocation = none) *
        (attributesRendering d.attributes * keyword "action" * label d.name * str d.description *
          keyword "(" * commas (d.params.map ParamDef.rendering) * keyword ")")
    | .event => 0
  | .trigger d => given (d.allocation = none) * (attributesRendering d.attributes *
      keyword "trigger" * label d.name * str d.description * d.event.rendering)
  | _ => 0

/-- What stands in front of the body. -/
def signature (d : Definition) : Language Token :=
  d.opening * d.returns?.elim 1 returnsRendering

variable {d : Definition} {b : Block}

/-- A definition that has a body is its signature and its body. -/
lemma rendering_eq (h : d.body? = some b) : d.rendering = d.signature * bodyRendering b := by
  rcases d with d | d | d | d
  · cases h
  · cases h
  · obtain ⟨kind, attributes, name, description, params, returns, body, allocation⟩ := d
    obtain rfl := Option.some.inj h
    cases kind <;> simp [rendering, signature, opening, returns?, mul_assoc]
  · obtain rfl := Option.some.inj h
    simp [rendering, signature, opening, returns?, mul_assoc]

@[simp]
lemma signature_withBody : (d.withBody b).signature = d.signature := by
  rcases d with d | d | d | d <;> rfl

@[simp]
lemma withBody_withBody {b' : Block} : (d.withBody b').withBody b = d.withBody b := by
  rcases d with d | d | d | d <;> rfl

lemma withBody_eq (h : d.body? = some b) : d.withBody b = d := by
  rcases d with d | d | d | d
  · rfl
  · rfl
  · obtain rfl := Option.some.inj h
    rfl
  · obtain rfl := Option.some.inj h
    rfl

lemma body?_withBody {b' : Block} (h : d.body? = some b') : (d.withBody b).body? = some b := by
  rcases d with d | d | d | d
  · cases h
  · cases h
  · rfl
  · rfl

/-- What returns something is a function. -/
lemma firstLocal?_of_returns? {ty : TypeRef} (h : d.returns? = some ty) (hb : d.body? = some b) :
    d.firstLocal? = b.locals.head? := by
  rcases d with d | d | d | d
  · cases h
  · cases h
  · obtain rfl := Option.some.inj hb
    rfl
  · cases h

end Definition

namespace ProgramGrammar

variable {l m : Language Token} {ts : List Token}

/-! ## Arrows -/

/-- Token lists in which there is no arrow. -/
def Arrowless (l : Language Token) : Prop :=
  ∀ ts ∈ l, ∀ t ∈ ts, t.name ≠ "->"

namespace Arrowless

lemma mul (hl : Arrowless l) (hm : Arrowless m) : Arrowless (l * m) := by
  rintro _ ⟨ts, hts, ts', hts', rfl⟩ t ht
  rcases List.mem_append.1 ht with ht | ht
  · exact hl ts hts t ht
  · exact hm ts' hts' t ht

lemma given_mul {condition : Prop} (hl : Arrowless l) : Arrowless (given condition * l) :=
  fun ts hts => hl ts (mem_given_mul.1 hts).2

lemma keyword {name : String} (hname : name ≠ "->") : Arrowless (keyword name) := by
  rintro _ ⟨token, rfl, rfl⟩ t ht
  rwa [List.mem_singleton.1 ht]

lemma word {name : String} {value : TokenValue} (hname : name ≠ "->") :
    Arrowless (word name value) := by
  rintro _ ⟨token, rfl, rfl, -⟩ t ht
  rwa [List.mem_singleton.1 ht]

/-- The rules that do not lead to return types lead to no arrow. -/
lemma language {x : Symbol} {values : Set ProgramPhrase} (hx : x.isOther "->" plainRules) :
    Arrowless (L x values) := by
  rintro ts ⟨v, -, hts⟩
  have hstart : ts <+: ts.toArray.toList.drop 0 := List.prefix_rfl
  obtain ⟨d, hd, -⟩ := hts.derives hstart
  have hplain : [x].all (·.isOther "->" plainRules) := by
    rwa [List.all_cons, List.all_nil, Bool.and_true]
  exact forall_name_ne (by simp) fun k => hd.nameAt_ne lacks_arrow hplain

lemma attributes (xs : List Attribute) : Arrowless (attributesRendering xs) :=
  language_attrs xs ▸ language (by decide)

lemma dims (xs : List Dimension) : Arrowless (xs.map Dimension.rendering).prod :=
  language_dims xs ▸ language (by decide)

lemma callable {word name description : String} (hword : word ≠ "->") (as : List Attribute)
    (xs : List ParamDef) :
    Arrowless (attributesRendering as * Rendering.keyword word * label name * str description *
      Rendering.keyword "(" * commas (xs.map ParamDef.rendering) * Rendering.keyword ")") := by
  have hparams : Arrowless (commas (xs.map ParamDef.rendering)) :=
    language_params xs ▸ language (by decide)
  exact ((((((attributes as).mul (.keyword hword)).mul (.word (by decide))).mul
    (.word (by decide))).mul (.keyword (by decide))).mul hparams).mul (.keyword (by decide))

lemma opening (d : Definition) : Arrowless d.opening := by
  rcases d with d | d | d | d
  · exact fun ts hts => (Language.notMem_zero ts hts).elim
  · exact fun ts hts => (Language.notMem_zero ts hts).elim
  · obtain ⟨kind, as, name, description, params, returns, body, allocation⟩ := d
    cases kind with
    | function => exact .given_mul (callable (by decide) as params)
    | action => exact .given_mul (callable (by decide) as params)
    | event => exact fun ts hts => (Language.notMem_zero ts hts).elim
  · have hevent : Arrowless d.event.rendering := language_call d.event ▸ language (by decide)
    exact .given_mul (((((attributes d.attributes).mul (.keyword (by decide))).mul
      (.word (by decide))).mul (.word (by decide))).mul hevent)

lemma body (xs : List VariableDef) (b : Block) :
    Arrowless ((variableRenderings xs).prod * b.rendering) := by
  rw [← language_locals, ← language_block]
  exact (language (by decide)).mul (language (by decide))

end Arrowless

/-! ## Dimensions -/

variable {ds : List Dimension} {dims body : List Token}

/-- A dimension is a group. -/
lemma exists_of_mem_dimension {d : Dimension} (h : ts ∈ d.rendering) : ∃ a b c, ts = [a, b, c] ∧
    (a.name = "[" ∧ (b.name = "int" ∨ b.name = "label") ∧ c.name = "]") ∧
      (b.name = "label" ↔ ∃ x, d = .variable x) := by
  cases d with
  | size n =>
    obtain ⟨_, ⟨_, ⟨a, rfl, ha⟩, _, ⟨b, rfl, hb, -⟩, rfl⟩, _, ⟨c, rfl, hc⟩, rfl⟩ := h
    exact ⟨a, b, c, rfl, ⟨ha, .inl hb, hc⟩, by simp [hb]⟩
  | _ x =>
    obtain ⟨_, ⟨_, ⟨a, rfl, ha⟩, _, ⟨b, rfl, hb, -⟩, rfl⟩, _, ⟨c, rfl, hc⟩, rfl⟩ := h
    exact ⟨a, b, c, rfl, ⟨ha, .inr hb, hc⟩, by simp [hb]⟩

/-- Dimensions begin with a bracket. -/
lemma head?_dims_append (hdims : dims ∈ (ds.map Dimension.rendering).prod) (hds : ds ≠ []) :
    (dims ++ body).head?.map (·.name) = some "[" := by
  cases ds with
  | nil => exact (hds rfl).elim
  | cons d ds =>
    obtain ⟨first, hfirst, rest, -, rfl⟩ := hdims
    obtain ⟨a, b, c, rfl, ⟨ha, -, -⟩, -⟩ := exists_of_mem_dimension hfirst
    simp [ha]

/-- If no label follows the dimensions, the last group is behind them. -/
lemma lastGroup?_dims_append (hdims : dims ∈ (ds.map Dimension.rendering).prod)
    (hbody : body.head?.map (·.name) ≠ some "label") : lastGroup? (dims ++ body) = lastGroup? body := by
  induction ds generalizing dims with
  | nil =>
    obtain rfl := (Language.mem_one _).1 hdims
    rfl
  | cons d ds ih =>
    obtain ⟨first, hfirst, rest, hrest, rfl⟩ := hdims
    obtain ⟨a, b, c, rfl, hnames, -⟩ := exists_of_mem_dimension hfirst
    have hnext : (rest ++ body).head?.map (·.name) ≠ some "label" := by
      rcases eq_or_ne ds [] with rfl | hds
      · obtain rfl := (Language.mem_one _).1 hrest
        exact hbody
      · rw [head?_dims_append hrest hds]
        decide
    exact ((if_pos hnames).trans (if_neg fun h => hnext h.2)).trans (ih hrest)

/-- If a label follows the dimensions, the last one of them counts. -/
lemma isSome_lastGroup?_dims_append (hdims : dims ∈ (ds.map Dimension.rendering).prod)
    (hbody : body.head?.map (·.name) = some "label") :
    (lastGroup? (dims ++ body)).isSome ↔ ∃ x, ds.getLast? = some (.variable x) := by
  have hnone : lastGroup? body = none := by
    match body with
    | [] => rfl
    | [_] => rfl
    | [_, _] => rfl
    | a :: b :: c :: rest =>
      have ha : a.name = "label" := Option.some.inj hbody
      exact if_neg fun h => by simp [ha] at h
  induction ds generalizing dims with
  | nil =>
    obtain rfl := (Language.mem_one _).1 hdims
    simp [hnone]
  | cons d ds ih =>
    obtain ⟨first, hfirst, rest, hrest, rfl⟩ := hdims
    obtain ⟨a, b, c, rfl, hnames, hlabel⟩ := exists_of_mem_dimension hfirst
    have hgroup : lastGroup? ([a, b, c] ++ rest ++ body) =
        if b.name = "label" ∧ (rest ++ body).head?.map (·.name) = some "label" then some b
        else lastGroup? (rest ++ body) := if_pos hnames
    rw [hgroup]
    cases ds with
    | nil =>
      obtain rfl := (Language.mem_one _).1 hrest
      rw [List.nil_append, List.getLast?_singleton]
      by_cases hb : b.name = "label"
      · obtain ⟨x, rfl⟩ := hlabel.1 hb
        simp [hb, hbody]
      · rw [if_neg fun h => hb h.1, hnone]
        refine iff_of_false nofun ?_
        rintro ⟨x, hx⟩
        exact hb (hlabel.2 ⟨x, Option.some.inj hx⟩)
    | cons d' ds =>
      rw [head?_dims_append hrest (List.cons_ne_nil _ _), if_neg fun h => by simp at h,
        List.getLast?_cons_cons]
      exact ih hrest

/-! ## What can be read in two ways -/

variable {d : Definition} {signature front back : List Token}

/-- A signature ends in an arrow, a label and dimensions, or there is no dimension. -/
lemma signature_cases (h : signature ∈ d.signature) : ∃ front ∈ d.opening,
    (signature = front ∧ ∀ ty, d.returns? = some ty → ty.dims = []) ∨
      ∃ ty arrow label dims, d.returns? = some ty ∧ signature = front ++ arrow :: label :: dims ∧
        arrow.name = "->" ∧ label.name = "label" ∧ dims ∈ (ty.dims.map Dimension.rendering).prod := by
  obtain ⟨front, hfront, returns, hreturns, rfl⟩ := h
  refine ⟨front, hfront, ?_⟩
  cases hty : d.returns? with
  | none =>
    rw [hty] at hreturns
    obtain rfl : returns = [] := (Language.mem_one _).1 hreturns
    exact .inl ⟨List.append_nil _, nofun⟩
  | some ty =>
    rw [hty] at hreturns
    rcases hreturns with ⟨rfl, rfl⟩ |
      ⟨_, ⟨arrow, rfl, harrow⟩, _, ⟨_, ⟨label, rfl, hlabel, -⟩, dims, hdims, rfl⟩, rfl⟩
    · refine .inl ⟨List.append_nil _, ?_⟩
      rintro _ ⟨⟩
      rfl
    · exact .inr ⟨ty, arrow, label, dims, rfl, rfl, harrow, hlabel, hdims⟩

/-- Where there is an arrow, what has none is in front of it. -/
lemma exists_of_append_eq {arrow : Token} {us vs rest : List Token}
    (heq : front ++ arrow :: rest = us ++ vs) (harrow : arrow.name = "->")
    (hus : ∀ t ∈ us, t.name ≠ "->") : ∃ more, front = us ++ more ∧ vs = more ++ arrow :: rest := by
  rcases List.append_eq_append_iff.1 heq with ⟨more, rfl, hmore⟩ | ⟨more, rfl, rfl⟩
  · cases more with
    | nil => exact ⟨[], by simp, hmore.symm⟩
    | cons first more =>
      obtain ⟨rfl, -⟩ := List.cons.inj hmore
      exact (hus arrow (by simp) harrow).elim
  · exact ⟨more, rfl, rfl⟩

/-- A group that can be read in two ways is behind the arrow of the signature. -/
lemma exists_dims_of_ambiguous? {b : Token} (hsignature : signature ∈ d.signature)
    (hbody : ∀ t ∈ body, t.name ≠ "->") (heq : front ++ back = signature ++ body)
    (hb : ambiguous? back = some b) : ∃ ty arrow label dims, d.returns? = some ty ∧
      signature = front ++ arrow :: label :: dims ∧ dims ∈ (ty.dims.map Dimension.rendering).prod ∧
        lastGroup? (dims ++ body) = some b := by
  obtain ⟨arrow, rest, rfl, harrow⟩ := exists_arrow_of_ambiguous? hb
  obtain ⟨opening, hopening, ⟨rfl, -⟩ |
    ⟨ty, arrow', label, dims, hty, rfl, -, hlabel, hdims⟩⟩ := signature_cases hsignature
  · obtain ⟨more, rfl, rfl⟩ := exists_of_append_eq heq harrow (Arrowless.opening d _ hopening)
    exact (hbody arrow (by simp) harrow).elim
  · rw [List.append_assoc] at heq
    obtain ⟨more, rfl, hmore⟩ := exists_of_append_eq heq harrow (Arrowless.opening d _ hopening)
    cases more with
    | nil =>
      obtain ⟨rfl, rfl⟩ : arrow' = arrow ∧ label :: (dims ++ body) = rest := by simpa using hmore
      rw [ambiguous?] at hb
      split_ifs at hb
      exact ⟨ty, arrow', label, dims, hty, by simp, hdims, hb⟩
    | cons first more =>
      -- there is no other arrow
      obtain ⟨-, hmore⟩ : arrow' = first ∧ label :: (dims ++ body) = more ++ arrow :: rest := by
        simpa using hmore
      have hmem : arrow ∈ label :: (dims ++ body) := by
        rw [hmore]
        simp
      rcases List.mem_cons.1 hmem with rfl | hmem
      · simp [hlabel] at harrow
      · rcases List.mem_append.1 hmem with hmem | hmem
        · exact (Arrowless.dims ty.dims dims hdims arrow hmem harrow).elim
        · exact (hbody arrow hmem harrow).elim

/-! ## What bodies begin with -/

variable {xs : List VariableDef} {outer block : List Token}

/-- A block begins with a brace. -/
lemma exists_brace_of_mem {b : Block} (h : block ∈ b.rendering) :
    ∃ brace rest, block = brace :: rest ∧ brace.name = "\x7b" := by
  obtain ⟨locals, statements⟩ := b
  rw [Block.rendering, mul_assoc, mul_assoc] at h
  obtain ⟨_, ⟨brace, rfl, hbrace⟩, rest, -, rfl⟩ := h
  exact ⟨brace, rest, rfl, hbrace⟩

/-- A body begins with a label if its locals do. -/
lemma head?_body_eq_label_iff {b : Block} (h : block ∈ b.rendering) :
    (outer ++ block).head?.map (·.name) = some "label" ↔ outer.head?.map (·.name) = some "label" := by
  obtain ⟨brace, rest, rfl, hbrace⟩ := exists_brace_of_mem h
  cases outer with
  | nil => simp [hbrace]
  | cons first outer => rfl

/-- The first one of locals that begin with a label has no attributes. -/
lemma attributes_of_head?_label (h : outer ∈ (variableRenderings xs).prod)
    (hlabel : outer.head?.map (·.name) = some "label") : xs.head?.map (·.attributes) = some [] := by
  cases xs with
  | nil =>
    obtain rfl := (Language.mem_one _).1 h
    cases hlabel
  | cons first xs =>
    obtain ⟨attributes, ty, name, value, allocation⟩ := first
    rw [variableRenderings, List.prod_cons, VariableDef.rendering, attributesRendering] at h
    simp only [mul_assoc, add_mul, mem_given_mul, Language.mem_add] at h
    obtain ⟨-, ⟨rfl, -⟩ | h⟩ := h
    · rfl
    · obtain ⟨_, ⟨bracket, rfl, hbracket⟩, rest, -, rfl⟩ := h
      simp [hbracket] at hlabel

/-- The tokens begin with this label in brackets, and another label is behind it. -/
def BeginsWithFlag (token : Token) (ts : List Token) : Prop :=
  ∃ opens closes next rest, ts = opens :: token :: closes :: next :: rest ∧ opens.name = "[" ∧
    token.name = "label" ∧ closes.name = "]" ∧ next.name = "label"

/-- The only group that a body can begin with is a flag. -/
lemma beginsWithFlag_of_lastGroup? {b : Block} {token : Token}
    (hbody : body ∈ (variableRenderings xs).prod * b.rendering)
    (h : lastGroup? body = some token) : BeginsWithFlag token body := by
  rw [← language_locals, ← language_block] at hbody
  obtain ⟨front, hfront, back, hback, heq⟩ := hbody
  have hyields := yields_cons_iff.2 ⟨front, back, mem_language_singleton.1 hfront,
    mem_language_singleton.1 hback, heq⟩
  have hstart : body <+: body.toArray.toList.drop 0 := List.prefix_rfl
  obtain ⟨d, hd, -⟩ := hyields.derives hstart
  have hlast : lastGroup? (body.toArray.toList.drop 0) = some token := h
  obtain ⟨es, mid, hdims, hflag⟩ := lastGroup?_eq_some_iff.1 hlast
  obtain rfl : 0 = mid := by
    rcases follows_body.dims ⟨d, hd⟩ hdims with ⟨-, hmid⟩ | ⟨e, b', -, rfl, hflag'⟩
    · exact hmid
    · have hopens := hflag.opens
      simp [hflag'.next] at hopens
  obtain ⟨opens, hopens, hopensName⟩ := nameAt_eq_some_iff.1 hflag.opens
  obtain ⟨closes, hcloses, hclosesName⟩ := nameAt_eq_some_iff.1 hflag.closes
  obtain ⟨next, hnext, hnextName⟩ := nameAt_eq_some_iff.1 hflag.next
  have hdrop := drop_eq_cons hopens
  rw [drop_eq_cons hflag.inside, drop_eq_cons hcloses, drop_eq_cons hnext] at hdrop
  exact ⟨opens, closes, next, _, hdrop, hopensName, hflag.label, hclosesName, hnextName⟩

end ProgramGrammar

namespace Definition

open ProgramGrammar

variable {d : Definition} {b : Block} {signature outer block : List Token}

/-- The definition returns something, and the last dimension of its type is a label. -/
def EndsInLabel (d : Definition) : Prop :=
  ∃ ty x, d.returns? = some ty ∧ ty.dims.getLast? = some (.variable x)

/-- Behind the return type a group that can be read in two ways is the first thing in the body, unless
the last dimension is a label and the locals begin with one. -/
lemma exists_flag_of_ambiguous? {front back : List Token} {token : Token}
    (hsignature : signature ∈ d.signature) {xs : List VariableDef}
    (houter : outer ∈ (variableRenderings xs).prod) (hblock : block ∈ b.rendering)
    (hnot : ¬(d.EndsInLabel ∧ outer.head?.map (·.name) = some "label"))
    (heq : front ++ back = signature ++ (outer ++ block)) (htoken : ambiguous? back = some token) :
    ∃ ty arrow name dims, d.returns? = some ty ∧ signature = front ++ arrow :: name :: dims ∧
      dims ∈ (ty.dims.map Dimension.rendering).prod ∧ BeginsWithFlag token (outer ++ block) := by
  have hbody := Language.append_mem_mul houter hblock
  obtain ⟨ty, arrow, name, dims, hty, hsignature, hdims, hlast⟩ :=
    exists_dims_of_ambiguous? hsignature (Arrowless.body _ _ _ hbody) heq htoken
  have hlabel : (outer ++ block).head?.map (·.name) ≠ some "label" := by
    intro hlabel
    obtain ⟨x, hx⟩ := (isSome_lastGroup?_dims_append hdims hlabel).1
      (Option.isSome_iff_exists.2 ⟨token, hlast⟩)
    exact hnot ⟨⟨ty, x, hty, hx⟩, (head?_body_eq_label_iff hblock).1 hlabel⟩
  rw [lastGroup?_dims_append hdims hlabel] at hlast
  exact ⟨ty, arrow, name, dims, hty, hsignature, hdims, beginsWithFlag_of_lastGroup? hbody hlast⟩

/-- Behind a signature all groups that can be read in two ways are attributes, unless its last dimension
is a label and the locals begin with one. -/
lemma mem_attributed_iff (hb : d.body? = some b) (s : b.Split) (hsignature : signature ∈ d.signature)
    (houter : outer ∈ (variableRenderings s.1.1).prod)
    (hblock : block ∈ Block.rendering ⟨s.1.2, b.statements⟩) :
    signature ++ (outer ++ block) ∈ attributed d.rendering d.firstLocal? ↔
      ¬(d.EndsInLabel ∧ outer.head?.map (·.name) = some "label") := by
  have hbody : outer ++ block ∈
      (variableRenderings s.1.1).prod * Block.rendering ⟨s.1.2, b.statements⟩ :=
    Language.append_mem_mul houter hblock
  constructor
  · rintro ⟨-, hattributed⟩ ⟨⟨ty, x, hty, hlast⟩, hlabel⟩
    obtain ⟨front, -, ⟨-, hnil⟩ | ⟨ty', arrow, name, dims, hty', rfl, harrow, hname, hdims⟩⟩ :=
      signature_cases hsignature
    · simp [hnil ty hty] at hlast
    · obtain rfl := Option.some.inj (hty.symm.trans hty')
      obtain ⟨token, htoken⟩ := Option.isSome_iff_exists.1
        ((isSome_lastGroup?_dims_append hdims ((head?_body_eq_label_iff hblock).2 hlabel)).2 ⟨x, hlast⟩)
      obtain ⟨y, -, hfirst⟩ := hattributed front (arrow :: name :: (dims ++ (outer ++ block))) token
        (by simp) ((if_pos ⟨harrow, hname⟩).trans htoken)
      have houter := attributes_of_head?_label houter hlabel
      obtain ⟨first, hhead, hattributes⟩ := Option.map_eq_some_iff.1 houter
      rw [firstLocal?_of_returns? hty hb, ← s.2, List.head?_append, hhead] at hfirst
      simp [hattributes] at hfirst
  · intro hnot
    refine ⟨rendering_eq hb ▸ Language.append_mem_mul hsignature (Language.mem_iSup.2 ⟨s, hbody⟩), ?_⟩
    intro front back token heq htoken
    obtain ⟨ty, -, -, -, hty, -, -, opens, closes, next, rest, heq, hopens, hname, hcloses, -⟩ :=
      exists_flag_of_ambiguous? hsignature houter hblock hnot heq htoken
    rw [heq] at hbody
    obtain ⟨x, hx, hfirst⟩ := attributes_of_mem hopens hname hcloses hbody
    obtain ⟨first, hhead, hattributes⟩ := Option.map_eq_some_iff.1 hfirst
    refine ⟨x, hx, ?_⟩
    rw [firstLocal?_of_returns? hty hb, ← s.2, List.head?_append, hhead, ← hattributes]
    rfl

end Definition

end TriggerScript
