import TriggerScript.Proofs.Grammar.Least
import TriggerScript.Proofs.Program.Lookahead

/-!
# Return types

The grammar of programs has one spot that can be read in two ways. Behind an arrow and a label stand
groups in brackets, which are the dimensions of the return type. If the last one of them is a label in
brackets and the next token is a label as well, the group may also be the attributes of the first local
of the body that follows (`ambiguous?`).

What can stand behind a return type is the body of a function or a semicolon. All that has to be known
of it is collected in `Follows`. From this it follows which derivations a return type has together with
what stands behind it: one if there is no such group (`Follows.of_returns`), and two otherwise, of which
the one with the smaller choices leaves the group to the body (`Follows.exists_pair`). So they are
counted by the places at which there is such a group (`Follows.counted`).
-/

namespace TriggerScript

open Grammar

/-! ## Groups in brackets -/

/-- The label in the last one of the groups in brackets that the tokens begin with, if it is a label and
another one follows the group. -/
def lastGroup? : List Token → Option Token
  | a :: b :: c :: rest =>
    if a.name = "[" ∧ (b.name = "int" ∨ b.name = "label") ∧ c.name = "]" then
      if b.name = "label" ∧ rest.head?.map (·.name) = some "label" then some b else lastGroup? rest
    else none
  | _ => none

/-- The label in a group that can be read in two ways, if the tokens begin with an arrow, a label and
groups of which it is the last one. -/
def ambiguous? : List Token → Option Token
  | a :: b :: rest => if a.name = "->" ∧ b.name = "label" then lastGroup? rest else none
  | _ => none

/-- At how many places there is a group that can be read in two ways. -/
def ambiguities (tokens : List Token) : Nat :=
  tokens.tails.countP fun ts => (ambiguous? ts).isSome

/-- Where a group can be read in two ways there is an arrow. -/
lemma exists_arrow_of_ambiguous? {ts : List Token} {b : Token} (h : ambiguous? ts = some b) :
    ∃ arrow rest, ts = arrow :: rest ∧ arrow.name = "->" := by
  match ts with
  | [] => cases h
  | [_] => cases h
  | arrow :: label :: rest =>
    rw [ambiguous?] at h
    split_ifs at h with hnames
    exact ⟨arrow, _, rfl, hnames.1⟩

/-- What follows the label behind the group does not matter. -/
lemma lastGroup?_append {ts : List Token} {b : Token} (h : lastGroup? ts = some b) (us : List Token) :
    lastGroup? (ts ++ us) = some b := by
  induction ts using lastGroup?.induct with
  | case1 a b' c rest hnames hlabel =>
    obtain ⟨next, rest, rfl⟩ : ∃ next others, rest = next :: others :=
      List.exists_cons_of_ne_nil (by rintro rfl; simp at hlabel)
    rw [lastGroup?, if_pos hnames, if_pos hlabel] at h
    exact ((if_pos hnames).trans (if_pos hlabel)).trans h
  | case2 a b' c rest hnames hlabel ih =>
    rw [lastGroup?, if_pos hnames, if_neg hlabel] at h
    obtain ⟨next, rest, rfl⟩ : ∃ next others, rest = next :: others :=
      List.exists_cons_of_ne_nil (by rintro rfl; simp [lastGroup?] at h)
    exact ((if_pos hnames).trans (if_neg hlabel)).trans (ih h)
  | case3 a b' c rest hnames =>
    rw [lastGroup?, if_neg hnames] at h
    cases h
  | case4 ts hne =>
    rw [lastGroup?.eq_2 ts hne] at h
    cases h

lemma ambiguous?_append {ts : List Token} {b : Token} (h : ambiguous? ts = some b) (us : List Token) :
    ambiguous? (ts ++ us) = some b := by
  match ts with
  | [] => cases h
  | [_] => cases h
  | arrow :: label :: ts =>
    rw [ambiguous?] at h
    split_ifs at h with hnames
    simp only [List.cons_append, ambiguous?]
    rw [if_pos hnames, lastGroup?_append h]

/-- A mark at the end does not matter. -/
lemma lastGroup?_append_mark {e : Token} (hlabel : e.name ≠ "label") (hcloses : e.name ≠ "]")
    (ts : List Token) : lastGroup? (ts ++ [e]) = lastGroup? ts := by
  induction ts using lastGroup?.induct with
  | case1 a b c rest hnames hnext =>
    exact (lastGroup?_append (by rw [lastGroup?, if_pos hnames, if_pos hnext]) _).trans
      (by rw [lastGroup?, if_pos hnames, if_pos hnext])
  | case2 a b c rest hnames hnext ih =>
    rw [lastGroup?, if_pos hnames, if_neg hnext]
    cases rest with
    | nil => simp [lastGroup?, hlabel]
    | cons next rest => exact ((if_pos hnames).trans (if_neg hnext)).trans ih
  | case3 a b c rest hnames =>
    rw [lastGroup?, if_neg hnames]
    exact if_neg hnames
  | case4 ts hne =>
    match ts with
    | [] => rfl
    | [_] => rfl
    | [_, _] => simp [lastGroup?, hcloses]
    | a :: b :: c :: rest => exact absurd rfl (hne a b c rest)

lemma ambiguous?_append_mark {e : Token} (hlabel : e.name ≠ "label") (hcloses : e.name ≠ "]")
    (ts : List Token) : ambiguous? (ts ++ [e]) = ambiguous? ts := by
  match ts with
  | [] => rfl
  | [_] => simp [ambiguous?, hlabel]
  | arrow :: label :: ts =>
    simp only [List.cons_append, ambiguous?, lastGroup?_append_mark hlabel hcloses]

namespace ProgramGrammar

variable {tokens : Array Token} {place mid stop stop' : Nat} {xs : List Symbol} {d e : Derivation}
  {es more : List Derivation} {b : Token}

/-- An integer or a label in brackets. -/
structure IsGroup (tokens : Array Token) (place : Nat) : Prop where
  opens : nameAt tokens place = some "["
  inside : nameAt tokens (place + 1) = some "int" ∨ nameAt tokens (place + 1) = some "label"
  closes : nameAt tokens (place + 2) = some "]"

/-- A label in brackets with another label behind it. -/
structure IsFlag (tokens : Array Token) (place : Nat) (b : Token) : Prop where
  opens : nameAt tokens place = some "["
  inside : tokens[place + 1]? = some b
  label : b.name = "label"
  closes : nameAt tokens (place + 2) = some "]"
  next : nameAt tokens (place + 3) = some "label"

/-- The grammar of programs has a derivation of the symbols. -/
abbrev D (tokens : Array Token) (xs : List Symbol) (place stop : Nat) : Prop :=
  Derivable programGrammar tokens xs place stop

/-- Dimensions one after the other. -/
abbrev Dims (tokens : Array Token) : Nat → List Derivation → Nat → Prop :=
  Chain programGrammar tokens (r "dim")

lemma IsFlag.nameAt_inside (h : IsFlag tokens place b) : nameAt tokens (place + 1) = some "label" := by
  rw [nameAt, h.inside, Option.map_some, h.label]

lemma IsFlag.isGroup (h : IsFlag tokens place b) : IsGroup tokens place :=
  ⟨h.opens, .inr h.nameAt_inside, h.closes⟩

lemma derivable_dim_iff : D tokens (r "dim" :: xs) place stop ↔
    IsGroup tokens place ∧ D tokens xs (place + 3) stop := by
  rw [D, r, derivable_rule_iff, alternatives_dim]
  simp only [List.mem_cons, List.not_mem_nil, or_false, exists_eq_or_imp, exists_eq_left,
    List.cons_append, List.nil_append, t, derivable_terminal_iff]
  constructor
  · rintro (⟨hopens, hinside, hcloses, h⟩ | ⟨hopens, hinside, hcloses, h⟩)
    · exact ⟨⟨hopens, .inl hinside, hcloses⟩, h⟩
    · exact ⟨⟨hopens, .inr hinside, hcloses⟩, h⟩
  · rintro ⟨⟨hopens, hinside | hinside, hcloses⟩, h⟩
    · exact .inl ⟨hopens, hinside, hcloses, h⟩
    · exact .inr ⟨hopens, hinside, hcloses, h⟩

/-! ## What stands behind a return type -/

/-- In a body there is one way to read the tokens. -/
lemma eq_of_derives_body (hxs : (lookahead bodyRules).orderly [] (· ≠ "->") [] xs)
    (hd : Derives programGrammar tokens xs place d stop)
    (he : Derives programGrammar tokens xs place e stop') : d = e ∧ stop = stop' := by
  have hcounted : Counted programGrammar tokens (fun _ => false) [] xs place stop :=
    Lookahead.counted (covers _) checks_bodies (fun _ _ => rfl) (List.forall_mem_nil _) hxs hd clear_nil
  obtain rfl := hcounted.stop_eq he clear_nil
  exact ⟨hcounted.eq_of_derives hd he, rfl⟩

lemma derivable_block_iff : D tokens (r "block" :: xs) place stop ↔
    nameAt tokens place = some "\x7b" ∧
      D tokens (r "block_locals" :: r "statements" :: t "\x7d" :: xs) (place + 1) stop := by
  rw [D, r, derivable_rule_iff, alternatives_block]
  simp [t, derivable_terminal_iff]

lemma derivable_type_iff : D tokens (r "type" :: xs) place stop ↔
    nameAt tokens place = some "label" ∧ D tokens (r "dims" :: xs) (place + 1) stop := by
  rw [D, r, derivable_rule_iff, alternatives_type]
  simp [t, derivable_terminal_iff]

lemma derivable_attrs_iff : D tokens (r "attrs" :: xs) place stop ↔ D tokens xs place stop ∨
    nameAt tokens place = some "[" ∧ D tokens (r "attr_list" :: t "]" :: xs) (place + 1) stop := by
  rw [D, r, derivable_rule_iff, alternatives_attrs]
  simp [t, derivable_terminal_iff]

/-- Of a group only a label can be read as attributes. -/
lemma derivable_attr_list_iff
    (hinside : nameAt tokens place = some "int" ∨ nameAt tokens place = some "label")
    (hcloses : nameAt tokens (place + 1) = some "]") :
    D tokens (r "attr_list" :: t "]" :: xs) place stop ↔
      nameAt tokens place = some "label" ∧ D tokens xs (place + 2) stop := by
  obtain ⟨tail, rest, hlist⟩ := isList_attr_list
  rw [D, r, hlist.derivable_iff, r, derivable_rule_iff, alternatives_attribute]
  rcases hinside with hinside | hinside <;>
    simp [t, derivable_terminal_iff, hlist.derivable_rest_iff, hinside, hcloses]

/-- A body is a block, or it begins with the attributes and the type of a local. -/
lemma exists_derivable_body_iff : ∃ xs, ∀ {place stop}, D tokens [r "locals", r "block"] place stop ↔
    D tokens [r "block"] place stop ∨ D tokens (r "attrs" :: r "type" :: xs) place stop := by
  obtain ⟨tail, rest, hlist⟩ := isList_locals
  refine ⟨[t "label", t "=", r "value", t ";", .rule rest, r "block"], fun {place stop} => ?_⟩
  have hvariable : ∀ ys, D tokens (r "variable" :: ys) place stop ↔
      D tokens ([r "attrs", r "type", t "label", t "=", r "value", t ";"] ++ ys) place stop := by
    intro ys
    rw [D, r, derivable_rule_iff, alternatives_variable]
    simp
  exact hlist.derivable_iff.trans (or_congr_right (hvariable _))

/-- Symbols that can stand behind a return type. If they begin with a group, a label follows it, and
they can do without the group just as well. -/
structure Follows (tokens : Array Token) (xs : List Symbol) : Prop where
  unique : ∀ {place d stop e stop'}, Derives programGrammar tokens xs place d stop →
    Derives programGrammar tokens xs place e stop' → d = e ∧ stop = stop'
  exists_isFlag : ∀ {place stop}, D tokens xs place stop → IsGroup tokens place →
    ∃ b, IsFlag tokens place b
  skip_iff : ∀ {place b stop}, IsFlag tokens place b →
    (D tokens xs place stop ↔ D tokens xs (place + 3) stop)
  no_arrow : ∀ {place stop}, D tokens xs place stop → nameAt tokens place ≠ some "->"
  no_arrow_inside : ∀ {place d stop k}, Derives programGrammar tokens xs place d stop → place ≤ k →
    k < stop → nameAt tokens k ≠ some "->"

lemma follows_body : Follows tokens [r "locals", r "block"] := by
  obtain ⟨xs, hbody⟩ := @exists_derivable_body_iff tokens
  refine ⟨eq_of_derives_body (by decide), fun h hgroup => ?_, fun {place b stop} hflag => ?_,
    fun h harrow => ?_, fun h => h.nameAt_ne lacks_arrow (by decide)⟩
  · rw [hbody, derivable_block_iff, derivable_attrs_iff, derivable_type_iff,
      derivable_attr_list_iff hgroup.inside hgroup.closes, derivable_type_iff] at h
    simp only [hgroup.opens, Option.some.injEq, String.reduceEq, false_and, false_or,
      true_and] at h
    obtain ⟨hinside, hnext, -⟩ := h
    obtain ⟨b, hb, hlabel⟩ := Option.map_eq_some_iff.1 hinside
    exact ⟨b, hgroup.opens, hb, hlabel, hgroup.closes, hnext⟩
  · rw [hbody, hbody]
    simp [derivable_block_iff, derivable_attrs_iff, derivable_type_iff,
      derivable_attr_list_iff hflag.isGroup.inside hflag.closes, hflag.opens, hflag.nameAt_inside,
      hflag.next]
  · rw [hbody] at h
    simp [derivable_block_iff, derivable_attrs_iff, derivable_type_iff, harrow] at h

lemma follows_semicolon : Follows tokens [t ";"] := by
  have hnot : ∀ {place stop name}, nameAt tokens place = some name → name ≠ ";" →
      ¬D tokens [t ";"] place stop := fun hname hne h =>
    hne (Option.some.inj (hname.symm.trans (derivable_terminal_iff.1 h).1))
  refine ⟨eq_of_derives_body (by decide), fun h hgroup => ?_, fun hflag => ?_, fun h harrow => ?_,
    fun h => h.nameAt_ne lacks_arrow (by decide)⟩
  · exact absurd h (hnot hgroup.opens (by decide))
  · exact iff_of_false (hnot hflag.opens (by decide)) (hnot hflag.next (by decide))
  · exact hnot harrow (by decide) h

/-! ## The dimensions of a return type -/

lemma eq_of_derives_dim (hd : Derives programGrammar tokens [r "dim"] place d stop)
    (he : Derives programGrammar tokens [r "dim"] place e stop') : d = e ∧ stop = stop' :=
  eq_of_derives_body (by decide) hd he

lemma exists_derives_dim_iff : (∃ d, Derives programGrammar tokens [r "dim"] place d stop) ↔
    IsGroup tokens place ∧ place + 3 = stop :=
  derivable_dim_iff.trans (and_congr_right fun _ => derivable_nil_iff)

/-- No dimension begins with a label. -/
lemma Dims.eq_nil (h : Dims tokens place es stop) (hlabel : nameAt tokens place = some "label") :
    es = [] ∧ place = stop := by
  cases h with
  | nil => exact ⟨rfl, rfl⟩
  | cons hdim _ =>
    obtain ⟨hgroup, -⟩ := exists_derives_dim_iff.1 ⟨_, hdim⟩
    simp [hgroup.opens] at hlabel

/-- Where a return type can end, at most one more dimension follows. -/
lemma Follows.dims (hxs : Follows tokens xs) (h : D tokens xs place stop)
    (hdims : Dims tokens place es mid) :
    (es = [] ∧ place = mid) ∨ ∃ e b, es = [e] ∧ place + 3 = mid ∧ IsFlag tokens place b := by
  cases hdims with
  | nil => exact .inl ⟨rfl, rfl⟩
  | cons hdim hrest =>
    obtain ⟨hgroup, rfl⟩ := exists_derives_dim_iff.1 ⟨_, hdim⟩
    obtain ⟨b, hflag⟩ := hxs.exists_isFlag h hgroup
    obtain ⟨rfl, rfl⟩ := Dims.eq_nil hrest hflag.next
    exact .inr ⟨_, b, rfl, rfl, hflag⟩

/-- Dimensions behind which something can stand lead to the flag, or the flag is the last one. -/
lemma Follows.dims_of_isFlag {es' : List Derivation} {mid' : Nat} (hxs : Follows tokens xs)
    (hdims : Dims tokens place es mid) (hflag : IsFlag tokens mid b)
    (he : Derives programGrammar tokens [r "dim"] mid e (mid + 3))
    (hdims' : Dims tokens place es' mid') (h : D tokens xs mid' stop) :
    (es' = es ∧ mid' = mid) ∨ (es' = es ++ [e] ∧ mid' = mid + 3) := by
  rcases Chain.append_or eq_of_derives_dim hdims hdims' with ⟨more, rfl, hmore⟩ | ⟨more, rfl, hmore⟩
  · cases hmore with
    | nil => exact .inl ⟨List.append_nil _, rfl⟩
    | cons he' hrest =>
      obtain ⟨rfl, rfl⟩ := eq_of_derives_dim he he'
      obtain ⟨rfl, rfl⟩ := Dims.eq_nil hrest hflag.next
      exact .inr ⟨rfl, rfl⟩
  · rcases hxs.dims h hmore with ⟨rfl, rfl⟩ | ⟨e', b', rfl, rfl, hflag'⟩
    · exact .inl ⟨(List.append_nil _).symm, rfl⟩
    -- a label follows on a flag, and not another flag
    · have hopens := hflag.opens
      simp [hflag'.next] at hopens

/-! ## The last group -/

lemma nameAt_eq_head? : nameAt tokens place = (tokens.toList.drop place).head?.map (·.name) := by
  rw [List.head?_drop, Array.getElem?_toList, nameAt]

/-- Tokens ahead that are known. -/
lemma getElem?_of_drop_eq_cons {a : Token} {ts : List Token}
    (h : tokens.toList.drop place = a :: ts) :
    tokens[place]? = some a ∧ tokens.toList.drop (place + 1) = ts := by
  rw [← Array.getElem?_toList, ← List.head?_drop, ← List.tail_drop, h]
  exact ⟨rfl, rfl⟩

lemma getElem?_of_drop_eq_append {ts us : List Token} (h : tokens.toList.drop place = ts ++ us) {i : Nat}
    (hi : i < ts.length) : tokens[place + i]? = some ts[i] := by
  rw [← Array.getElem?_toList, ← List.getElem?_drop, h, List.getElem?_append_left hi,
    List.getElem?_eq_getElem hi]

lemma isGroup_of_drop_eq_cons {a c : Token} {rest : List Token}
    (hts : tokens.toList.drop place = a :: b :: c :: rest)
    (hnames : a.name = "[" ∧ (b.name = "int" ∨ b.name = "label") ∧ c.name = "]") :
    IsGroup tokens place ∧ tokens[place + 1]? = some b ∧ tokens.toList.drop (place + 3) = rest := by
  obtain ⟨ha, hts⟩ := getElem?_of_drop_eq_cons hts
  obtain ⟨hb, hts⟩ := getElem?_of_drop_eq_cons hts
  obtain ⟨hc, hts⟩ := getElem?_of_drop_eq_cons hts
  refine ⟨⟨?_, ?_, ?_⟩, hb, hts⟩ <;> simp [nameAt, ha, hb, hc, hnames]

lemma lastGroup?_of_isGroup (h : IsGroup tokens place) (hinside : tokens[place + 1]? = some b) :
    lastGroup? (tokens.toList.drop place) =
      if b.name = "label" ∧ nameAt tokens (place + 3) = some "label" then some b
      else lastGroup? (tokens.toList.drop (place + 3)) := by
  obtain ⟨a, ha, hopens⟩ := Option.map_eq_some_iff.1 h.opens
  obtain ⟨c, hc, hcloses⟩ := Option.map_eq_some_iff.1 h.closes
  have hname : b.name = "int" ∨ b.name = "label" := by
    simpa [nameAt, hinside] using h.inside
  rw [drop_eq_cons ha, drop_eq_cons hinside, drop_eq_cons hc, lastGroup?,
    if_pos ⟨hopens, hname, hcloses⟩, nameAt_eq_head?]

lemma ambiguous?_eq_some_iff : ambiguous? (tokens.toList.drop place) = some b ↔
    ∃ arrow label, (tokens[place]? = some arrow ∧ arrow.name = "->") ∧
      (tokens[place + 1]? = some label ∧ label.name = "label") ∧
      lastGroup? (tokens.toList.drop (place + 2)) = some b := by
  constructor
  · intro h
    match hts : tokens.toList.drop place with
    | [] => simp [hts, ambiguous?] at h
    | [_] => simp [hts, ambiguous?] at h
    | arrow :: label :: ts =>
      obtain ⟨harrow, hts'⟩ := getElem?_of_drop_eq_cons hts
      obtain ⟨hlabel, rfl⟩ := getElem?_of_drop_eq_cons hts'
      rw [hts, ambiguous?] at h
      split_ifs at h with hnames
      exact ⟨arrow, label, ⟨harrow, hnames.1⟩, ⟨hlabel, hnames.2⟩, h⟩
  · rintro ⟨arrow, label, ⟨harrow, hname⟩, ⟨hlabel, hname'⟩, h⟩
    rw [drop_eq_cons harrow, drop_eq_cons hlabel, ambiguous?, if_pos ⟨hname, hname'⟩, h]

/-- The last group is the flag to which some dimensions lead. -/
lemma lastGroup?_eq_some_iff : lastGroup? (tokens.toList.drop place) = some b ↔
    ∃ es mid, Dims tokens place es mid ∧ IsFlag tokens mid b := by
  constructor
  · intro h
    induction hts : tokens.toList.drop place using lastGroup?.induct generalizing place with
    | case1 a b' c rest hnames hlabel =>
      obtain ⟨hgroup, hinside, rfl⟩ := isGroup_of_drop_eq_cons hts hnames
      rw [hts, lastGroup?, if_pos hnames, if_pos hlabel] at h
      obtain rfl := Option.some.inj h
      exact ⟨[], place, .nil, hgroup.opens, hinside, hlabel.1, hgroup.closes,
        nameAt_eq_head?.trans hlabel.2⟩
    | case2 a b' c rest hnames hlabel ih =>
      obtain ⟨hgroup, -, rfl⟩ := isGroup_of_drop_eq_cons hts hnames
      rw [hts, lastGroup?, if_pos hnames, if_neg hlabel] at h
      obtain ⟨es, mid, hes, hmid⟩ := ih h rfl
      obtain ⟨e, he⟩ := exists_derives_dim_iff.2 ⟨hgroup, rfl⟩
      exact ⟨e :: es, mid, .cons he hes, hmid⟩
    | case3 a b' c rest hnames =>
      rw [hts, lastGroup?, if_neg hnames] at h
      cases h
    | case4 ts hne =>
      rw [hts, lastGroup?.eq_2 ts hne] at h
      cases h
  · rintro ⟨es, mid, hes, hmid⟩
    induction hes with
    | nil => rw [lastGroup?_of_isGroup hmid.isGroup hmid.inside, if_pos ⟨hmid.label, hmid.next⟩]
    | @cons place mid' mid e es he hes ih =>
      obtain ⟨hgroup, rfl⟩ := exists_derives_dim_iff.1 ⟨_, he⟩
      -- behind the group there is another group, and no label
      have hnext : nameAt tokens (place + 3) ≠ some "label" := by
        intro hlabel
        obtain ⟨-, rfl⟩ := Dims.eq_nil hes hlabel
        simp [hmid.opens] at hlabel
      obtain ⟨c, hc⟩ : ∃ c, tokens[place + 1]? = some c := by
        rcases hgroup.inside with h | h <;> exact (Option.map_eq_some_iff.1 h).imp fun _ h => h.1
      rw [lastGroup?_of_isGroup hgroup hc, if_neg fun h => hnext h.2, ih hmid]

/-! ## Derivations of return types -/

/-- A return type with an arrow, and what follows it. -/
def returnsDerivation (arrow label : Token) (dims rest : Derivation) : Derivation :=
  .rule "ret" 1 (.token arrow (.rule "type" 0 (.token label dims) .done)) rest

section

variable {tail rest : String} (hlist : programGrammar.Lists "dims" tail rest (r "dim") none)

include hlist

lemma derives_type_iff : Derives programGrammar tokens [r "type"] place d stop ↔
    ∃ label es, (tokens[place]? = some label ∧ label.name = "label") ∧
      Dims tokens (place + 1) es stop ∧
      .rule "type" 0 (.token label (listDerivation tail rest "dims" es)) .done = d := by
  rw [r, derives_rule_iff_of_single alternatives_type]
  simp only [r, t, derives_nil_iff, derives_terminal_iff, hlist.derives_iff hlist.optional]
  constructor
  · rintro ⟨_, _, _, ⟨label, _, hlabel, ⟨es, hes, rfl⟩, rfl⟩, ⟨rfl, rfl⟩, rfl⟩
    exact ⟨label, es, hlabel, hes, rfl⟩
  · rintro ⟨label, es, hlabel, hes, rfl⟩
    exact ⟨_, _, _, ⟨label, _, hlabel, ⟨es, hes, rfl⟩, rfl⟩, ⟨rfl, rfl⟩, rfl⟩

/-- A return type is nothing, or it is an arrow, a label and dimensions. -/
lemma derives_ret_iff : Derives programGrammar tokens (r "ret" :: xs) place d stop ↔
    (∃ behind, Derives programGrammar tokens xs place behind stop ∧ .rule "ret" 0 .done behind = d) ∨
      ∃ arrow label es mid behind, (tokens[place]? = some arrow ∧ arrow.name = "->") ∧
        (tokens[place + 1]? = some label ∧ label.name = "label") ∧ Dims tokens (place + 2) es mid ∧
        Derives programGrammar tokens xs mid behind stop ∧
        returnsDerivation arrow label (listDerivation tail rest "dims" es) behind = d := by
  rw [r, derives_rule_iff_of_pair alternatives_ret]
  simp only [t, derives_nil_iff, derives_terminal_iff, derives_type_iff hlist]
  constructor
  · rintro (⟨_, _, behind, ⟨rfl, rfl⟩, hbehind, rfl⟩ |
      ⟨_, mid, behind, ⟨arrow, _, harrow, ⟨label, es, hlabel, hes, rfl⟩, rfl⟩, hbehind, rfl⟩)
    · exact .inl ⟨behind, hbehind, rfl⟩
    · exact .inr ⟨arrow, label, es, mid, behind, harrow, hlabel, hes, hbehind, rfl⟩
  · rintro (⟨behind, hbehind, rfl⟩ |
      ⟨arrow, label, es, mid, behind, harrow, hlabel, hes, hbehind, rfl⟩)
    · exact .inl ⟨_, _, behind, ⟨rfl, rfl⟩, hbehind, rfl⟩
    · exact .inr ⟨_, mid, behind, ⟨arrow, _, harrow, ⟨label, es, hlabel, hes, rfl⟩, rfl⟩, hbehind, rfl⟩

/-- At an arrow a return type has dimensions. -/
lemma Follows.derives_ret_iff {arrow label : Token} (hxs : Follows tokens xs)
    (harrow : tokens[place]? = some arrow ∧ arrow.name = "->")
    (hlabel : tokens[place + 1]? = some label ∧ label.name = "label") :
    Derives programGrammar tokens (r "ret" :: xs) place d stop ↔
      ∃ es mid behind, Dims tokens (place + 2) es mid ∧
        Derives programGrammar tokens xs mid behind stop ∧
        returnsDerivation arrow label (listDerivation tail rest "dims" es) behind = d := by
  rw [ProgramGrammar.derives_ret_iff hlist]
  constructor
  · rintro (⟨behind, hbehind, -⟩ |
      ⟨arrow', label', es, mid, behind, harrow', hlabel', hes, hbehind, rfl⟩)
    · exact absurd (nameAt_eq_some_iff.2 ⟨_, harrow⟩) (hxs.no_arrow ⟨_, hbehind⟩)
    · obtain rfl := Option.some.inj (harrow.1.symm.trans harrow'.1)
      obtain rfl := Option.some.inj (hlabel.1.symm.trans hlabel'.1)
      exact ⟨es, mid, behind, hes, hbehind, rfl⟩
  · rintro ⟨es, mid, behind, hes, hbehind, rfl⟩
    exact .inr ⟨arrow, label, es, mid, behind, harrow, hlabel, hes, hbehind, rfl⟩

end

namespace Follows

variable {es' : List Derivation} {mid' : Nat}

/-- If dimensions go on where a return type can end, there is a group that can be read in two ways. -/
lemma of_append (hxs : Follows tokens xs) (hdims : Dims tokens place es mid)
    (hd : Derives programGrammar tokens xs mid d stop) (hmore : Dims tokens mid more mid')
    (he : Derives programGrammar tokens xs mid' e stop') :
    stop = stop' ∧
      ((more = [] ∧ d = e) ∨ ∃ b, lastGroup? (tokens.toList.drop place) = some b) := by
  rcases hxs.dims ⟨d, hd⟩ hmore with ⟨rfl, rfl⟩ | ⟨e', b, -, rfl, hflag⟩
  · obtain ⟨rfl, rfl⟩ := hxs.unique hd he
    exact ⟨rfl, .inl ⟨rfl, rfl⟩⟩
  · obtain ⟨d', hd'⟩ := (hxs.skip_iff hflag).2 ⟨e, he⟩
    exact ⟨(hxs.unique hd hd').2, .inr ⟨b, lastGroup?_eq_some_iff.2 ⟨es, mid, hdims, hflag⟩⟩⟩

/-- What follows a return type ends at the same place, however many dimensions that has. -/
lemma of_dims (hxs : Follows tokens xs) (hdims : Dims tokens place es mid)
    (hd : Derives programGrammar tokens xs mid d stop) (hdims' : Dims tokens place es' mid')
    (he : Derives programGrammar tokens xs mid' e stop') :
    stop = stop' ∧
      ((es = es' ∧ d = e) ∨ ∃ b, lastGroup? (tokens.toList.drop place) = some b) := by
  rcases Chain.append_or eq_of_derives_dim hdims hdims' with ⟨more, rfl, hmore⟩ | ⟨more, rfl, hmore⟩
  · obtain ⟨rfl, ⟨rfl, rfl⟩ | hlast⟩ := hxs.of_append hdims hd hmore he
    · exact ⟨rfl, .inl ⟨(List.append_nil _).symm, rfl⟩⟩
    · exact ⟨rfl, .inr hlast⟩
  · obtain ⟨rfl, ⟨rfl, rfl⟩ | hlast⟩ := hxs.of_append hdims' he hmore hd
    · exact ⟨rfl, .inl ⟨List.append_nil _, rfl⟩⟩
    · exact ⟨rfl, .inr hlast⟩

/-- Two readings of a return type with what follows it are the same if there is no group that can be
read in two ways. -/
lemma of_returns (hxs : Follows tokens xs)
    (hd : Derives programGrammar tokens (r "ret" :: xs) place d stop)
    (he : Derives programGrammar tokens (r "ret" :: xs) place e stop') :
    stop = stop' ∧ (d = e ∨ ∃ b, ambiguous? (tokens.toList.drop place) = some b) := by
  obtain ⟨tail, rest, hlist⟩ := isList_dims
  rcases (ProgramGrammar.derives_ret_iff hlist).1 hd with ⟨behind, hbehind, rfl⟩ |
    ⟨arrow, label, es, mid, behind, harrow, hlabel, hes, hbehind, rfl⟩
  · rcases (ProgramGrammar.derives_ret_iff hlist).1 he with ⟨behind', hbehind', rfl⟩ |
      ⟨arrow', -, -, -, -, harrow', -⟩
    · obtain ⟨rfl, rfl⟩ := hxs.unique hbehind hbehind'
      exact ⟨rfl, .inl rfl⟩
    · exact absurd (nameAt_eq_some_iff.2 ⟨_, harrow'⟩) (hxs.no_arrow ⟨_, hbehind⟩)
  · obtain ⟨es', mid', behind', hes', hbehind', rfl⟩ :=
      (hxs.derives_ret_iff hlist harrow hlabel).1 he
    obtain ⟨rfl, ⟨rfl, rfl⟩ | ⟨b, hb⟩⟩ := hxs.of_dims hes hbehind hes' hbehind'
    · exact ⟨rfl, .inl rfl⟩
    · exact ⟨rfl, .inr ⟨b, ambiguous?_eq_some_iff.2 ⟨arrow, label, harrow, hlabel, hb⟩⟩⟩

/-- A group that can be read in two ways is read in both of them. -/
lemma exists_pair (hxs : Follows tokens xs)
    (hd : Derives programGrammar tokens (r "ret" :: xs) place d stop)
    (hb : ambiguous? (tokens.toList.drop place) = some b) :
    ∃ d₁ d₂, d₁.choices < d₂.choices ∧
      (∀ e, Derives programGrammar tokens (r "ret" :: xs) place e stop ↔ e = d₁ ∨ e = d₂) ∧
      ∃ inner mid behind, .rule "ret" 1 inner behind = d₁ ∧
        Derives programGrammar tokens xs mid behind stop ∧ IsFlag tokens mid b := by
  obtain ⟨tail, rest, hlist⟩ := isList_dims
  obtain ⟨arrow, label, harrow, hlabel, hb⟩ := ambiguous?_eq_some_iff.1 hb
  obtain ⟨es, mid, hdims, hflag⟩ := lastGroup?_eq_some_iff.1 hb
  obtain ⟨e, he⟩ := exists_derives_dim_iff.2 ⟨hflag.isGroup, rfl⟩
  -- both readings are there, as one of them is
  obtain ⟨⟨behind₁, h₁⟩, ⟨behind₂, h₂⟩⟩ : D tokens xs mid stop ∧ D tokens xs (mid + 3) stop := by
    obtain ⟨es', mid', behind, hdims', hbehind, -⟩ := (hxs.derives_ret_iff hlist harrow hlabel).1 hd
    rcases hxs.dims_of_isFlag hdims hflag he hdims' ⟨_, hbehind⟩ with ⟨-, rfl⟩ | ⟨-, rfl⟩
    · exact ⟨⟨_, hbehind⟩, (hxs.skip_iff hflag).1 ⟨_, hbehind⟩⟩
    · exact ⟨(hxs.skip_iff hflag).2 ⟨_, hbehind⟩, ⟨_, hbehind⟩⟩
  refine ⟨returnsDerivation arrow label (listDerivation tail rest "dims" es) behind₁,
    returnsDerivation arrow label (listDerivation tail rest "dims" (es ++ [e])) behind₂, ?_,
    fun d' => ⟨fun hd' => ?_, ?_⟩, _, mid, behind₁, rfl, h₁, hflag⟩
  · have hlonger := hdims.append (.cons he .nil)
    have hlt := Derives.choices_lt_append ((hlist.derives_iff hlist.optional).2 ⟨es, hdims, rfl⟩)
      ((hlist.derives_iff hlist.optional).2 ⟨es ++ [e], hlonger, rfl⟩)
      (choices_listDerivation_lt "dims" es e []) behind₁.choices behind₂.choices
    simp only [returnsDerivation, Derivation.choices, List.append_nil, List.cons_append]
    exact .cons (.cons hlt)
  · obtain ⟨es', mid', behind, hdims', hbehind, rfl⟩ := (hxs.derives_ret_iff hlist harrow hlabel).1 hd'
    rcases hxs.dims_of_isFlag hdims hflag he hdims' ⟨_, hbehind⟩ with ⟨rfl, rfl⟩ | ⟨rfl, rfl⟩
    · exact .inl (by rw [(hxs.unique h₁ hbehind).1])
    · exact .inr (by rw [(hxs.unique h₂ hbehind).1])
  · rintro (rfl | rfl)
    · exact (hxs.derives_ret_iff hlist harrow hlabel).2 ⟨es, mid, behind₁, hdims, h₁, rfl⟩
    · exact (hxs.derives_ret_iff hlist harrow hlabel).2
        ⟨es ++ [e], mid + 3, behind₂, hdims.append (.cons he .nil), h₂, rfl⟩

end Follows

/-! ## Counting the readings -/

/-- Whether a group behind the arrow at the place can be read in two ways. -/
def isAmbiguous (tokens : Array Token) (place : Nat) : Bool :=
  (ambiguous? (tokens.toList.drop place)).isSome

lemma isAmbiguous_eq_false (h : nameAt tokens place ≠ some "->") : isAmbiguous tokens place = false := by
  rw [← Bool.not_eq_true, isAmbiguous, Option.isSome_iff_exists]
  rintro ⟨b, hb⟩
  obtain ⟨arrow, -, harrow, -⟩ := ambiguous?_eq_some_iff.1 hb
  exact h (nameAt_eq_some_iff.2 ⟨arrow, harrow⟩)

/-- Without arrows there is nothing to count. -/
lemma count_eq_of_no_arrow (hle : place ≤ stop)
    (h : ∀ k, place ≤ k → k < stop → nameAt tokens k ≠ some "->") :
    Nat.count (isAmbiguous tokens ·) stop = Nat.count (isAmbiguous tokens ·) place := by
  obtain ⟨n, rfl⟩ := Nat.exists_eq_add_of_le hle
  rw [Nat.count_add, Nat.add_eq_left]
  refine Nat.count_of_forall_not fun {k} hk => ?_
  simp [isAmbiguous_eq_false (h (place + k) (by omega) (by omega))]

namespace Follows

/-- A return type has one arrow at most, and what follows it has none. -/
lemma no_arrow_behind (hxs : Follows tokens xs)
    (hd : Derives programGrammar tokens (r "ret" :: xs) place d stop) {k : Nat} (hplace : place < k)
    (hstop : k < stop) : nameAt tokens k ≠ some "->" := by
  obtain ⟨tail, rest, hlist⟩ := isList_dims
  rcases (ProgramGrammar.derives_ret_iff hlist).1 hd with ⟨behind, hbehind, -⟩ |
    ⟨arrow, label, es, mid, behind, -, hlabel, hes, hbehind, -⟩
  · exact hxs.no_arrow_inside hbehind hplace.le hstop
  · have hdims := (hlist.derives_iff hlist.optional).2 ⟨es, hes, rfl⟩
    rcases Nat.lt_or_ge k (place + 2) with hlt | hge
    · obtain rfl : k = place + 1 := by omega
      simp [nameAt, hlabel]
    · rcases Nat.lt_or_ge k mid with hlt | hge'
      · exact hdims.nameAt_ne lacks_arrow (by decide) hge hlt
      · exact hxs.no_arrow_inside hbehind hge' hstop

/-- So there is at most one group that can be read in two ways. -/
lemma count_eq (hxs : Follows tokens xs)
    (hd : Derives programGrammar tokens (r "ret" :: xs) place d stop) :
    Nat.count (isAmbiguous tokens ·) stop =
      Nat.count (isAmbiguous tokens ·) place + if isAmbiguous tokens place then 1 else 0 := by
  obtain ⟨tail, rest, hlist⟩ := isList_dims
  by_cases harrow : nameAt tokens place = some "->"
  · have hlt : place < stop := by
      rcases (ProgramGrammar.derives_ret_iff hlist).1 hd with ⟨behind, hbehind, -⟩ |
        ⟨-, -, es, mid, behind, -, -, hes, hbehind, -⟩
      · exact absurd harrow (hxs.no_arrow ⟨_, hbehind⟩)
      · have hle := ((hlist.derives_iff hlist.optional).2 ⟨es, hes, rfl⟩).place_le_stop
        have hle' := hbehind.place_le_stop
        omega
    rw [← Nat.count_succ]
    exact count_eq_of_no_arrow hlt fun k hplace => hxs.no_arrow_behind hd hplace
  · rw [isAmbiguous_eq_false harrow]
    refine count_eq_of_no_arrow hd.place_le_stop fun k hplace hstop => ?_
    rcases hplace.eq_or_lt with rfl | hlt
    · exact harrow
    · exact hxs.no_arrow_behind hd hlt hstop

/-- The readings of a return type and of what follows it: two if a group can be read in two ways, and one
otherwise. -/
theorem counted (hxs : Follows tokens xs)
    (hd : Derives programGrammar tokens (r "ret" :: xs) place d stop) :
    Counted programGrammar tokens (isAmbiguous tokens) [] (r "ret" :: xs) place stop := by
  refine ⟨fun he _ => (hxs.of_returns he hd).1, ?_⟩
  rw [hxs.count_eq hd, Nat.add_sub_cancel_left]
  cases hb : ambiguous? (tokens.toList.drop place) with
  | none =>
    have hset : {e | Derives programGrammar tokens (r "ret" :: xs) place e stop} = {d} := by
      ext e
      constructor
      · intro he
        simpa [hb] using (hxs.of_returns he hd).2
      · rintro rfl
        exact hd
    rw [hset, Set.encard_singleton]
    simp [isAmbiguous, hb]
  | some b =>
    obtain ⟨d₁, d₂, hlt, hpair, -⟩ := hxs.exists_pair hd hb
    have hset : {e | Derives programGrammar tokens (r "ret" :: xs) place e stop} = {d₁, d₂} :=
      Set.ext hpair
    have hne : d₁ ≠ d₂ := by
      rintro rfl
      exact List.lt_irrefl _ hlt
    rw [hset, Set.encard_pair hne]
    simp [isAmbiguous, hb]

end Follows

end ProgramGrammar

end TriggerScript
