import Mathlib.Data.Set.Finite.Basic
import Mathlib.Order.WellFounded
import TriggerScript.Proofs.Grammar.Termination

/-!
# Grammars without left recursion

A rule leads to another one if that one can come to stand in front when the first is expanded and no
token has been taken yet: all symbols before it can vanish. If no rule leads back to itself, however
many rules lie between, each expansion comes to an end (`LeftRecursionFree.ends`). It suffices to know
some rules, among them all that can vanish, and a rank that falls along the way
(`Ranked.wellFounded`), which can be checked production by production.
-/

namespace TriggerScript.Grammar

variable {V : Type} {g : Grammar V} {tokens : Array Token} {symbols front back : List Symbol}
  {place stop : Nat} {d : Derivation}

/-- The symbol can be matched without a token. -/
inductive Vanishes (g : Grammar V) : Symbol → Prop
  | rule {name p} (hp : p ∈ g.alternatives name) (hsymbols : ∀ x ∈ p.symbols, Vanishes g x) :
      Vanishes g (.rule name)

/-- The second rule can come to stand in front when the first one is expanded. -/
def Leads (g : Grammar V) (a b : String) : Prop :=
  ∃ p ∈ g.alternatives a, ∃ front back, p.symbols = front ++ .rule b :: back ∧
    ∀ x ∈ front, g.Vanishes x

lemma Derives.place_le_stop (h : Derives g tokens symbols place d stop) : place ≤ stop :=
  Reaches.le_place h.reaches

/-- What is matched without a token can vanish. -/
lemma Derives.vanishes (h : Derives g tokens symbols place d stop) (hstop : stop ≤ place) :
    ∀ x ∈ symbols, g.Vanishes x := by
  induction h with
  | done => exact List.forall_mem_nil _
  | token _ _ hrest _ =>
    have hle := hrest.place_le_stop
    omega
  | rule hp hinner hrest ihinner ihrest =>
    have hle := hinner.place_le_stop
    have hle' := hrest.place_le_stop
    refine List.forall_mem_cons.2 ⟨?_, ihrest (by omega)⟩
    exact .rule (List.mem_of_getElem? hp) (ihinner (by omega))

/-- Symbols can only be expanded for ever if a rule can that comes to stand in front without a token, or
if some symbols can behind one. -/
lemma ends_of_fronts (hplace : place ≤ tokens.size)
    (hlater : ∀ symbols mid, place < mid → mid ≤ tokens.size → Ends g tokens ⟨symbols, mid⟩)
    (hfronts : ∀ front b back, symbols = front ++ .rule b :: back → (∀ x ∈ front, g.Vanishes x) →
      Ends g tokens ⟨[.rule b], place⟩) :
    Ends g tokens ⟨symbols, place⟩ := by
  induction symbols with
  | nil => exact .intro _ fun c hstep => nomatch hstep
  | cons x rest ih =>
    have hhead : Ends g tokens ⟨[x], place⟩ := by
      cases x with
      | terminal name =>
        refine .intro _ fun c hstep => ?_
        cases hstep
        exact .intro _ fun c hstep => nomatch hstep
      | rule name => exact hfronts [] name rest rfl (List.forall_mem_nil _)
    refine hhead.append fun mid hmid => ?_
    have hle : place ≤ mid := Reaches.le_place hmid
    rcases hle.lt_or_eq with hlt | rfl
    · exact hlater rest mid hlt (Reaches.place_le hmid hplace)
    -- the first symbol has vanished, and it may do so in front of the other fronts too
    · obtain ⟨d, hd⟩ := reaches_nil_iff.1 hmid
      have hx : g.Vanishes x := hd.vanishes le_rfl x List.mem_cons_self
      refine ih fun front b back hrest hfront => ?_
      exact hfronts (x :: front) b back (hrest ▸ rfl) (List.forall_mem_cons.2 ⟨hx, hfront⟩)

/-- If the ways from rule to rule come to an end, so do all expansions. -/
theorem ends_of_wellFounded (h : WellFounded fun b a => g.Leads a b)
    (hplace : place ≤ tokens.size) : Ends g tokens ⟨symbols, place⟩ := by
  -- fewer and fewer tokens are left, and at each place the rules in front fall
  induction hleft : tokens.size - place using Nat.strong_induction_on generalizing symbols place with
  | _ left ihleft =>
    have hlater : ∀ symbols mid, place < mid → mid ≤ tokens.size →
        Ends g tokens ⟨symbols, mid⟩ := by
      intro symbols mid hlt hmid
      exact ihleft (tokens.size - mid) (by omega) hmid rfl
    have hrule : ∀ name, Ends g tokens ⟨[.rule name], place⟩ := by
      intro name
      induction name using h.induction with
      | _ name ih =>
        refine .intro _ fun c hstep => ?_
        cases hstep with
        | @choose _ _ _ p hp =>
          rw [List.append_nil]
          refine ends_of_fronts hplace hlater fun front b back hsymbols hfront => ?_
          exact ih b ⟨p, hp, front, back, hsymbols, hfront⟩
    exact ends_of_fronts hplace hlater fun _ b _ _ _ => hrule b

/-- No rule leads back to itself, however many rules lie between. -/
def LeftRecursionFree (g : Grammar V) : Prop :=
  ∀ name, ¬Relation.TransGen g.Leads name name

lemma Leads.mem_names {a b : String} (h : g.Leads a b) : a ∈ g.productions.map (·.name) := by
  obtain ⟨p, hp, -⟩ := h
  obtain ⟨hp, hname⟩ := List.mem_filter.1 hp
  exact List.mem_map.2 ⟨p, hp, of_decide_eq_true hname⟩

/-- There are finitely many rules, so that an endless way from rule to rule would come back. -/
lemma LeftRecursionFree.wellFounded (h : g.LeftRecursionFree) :
    WellFounded fun b a => g.Leads a b := by
  let Name : Type := {name // name ∈ g.productions.map (·.name)}
  have hfinite : Finite Name := List.finite_toSet _
  let leads : Name → Name → Prop := fun b a => g.Leads a.1 b.1
  have htrans : WellFounded (Relation.TransGen leads) := by
    have hirrefl : Std.Irrefl (Relation.TransGen leads) := by
      refine ⟨fun a hcycle => h a.1 ?_⟩
      exact Relation.transGen_swap.1 (hcycle.lift Subtype.val fun _ _ hleads => hleads)
    exact Finite.wellFounded_of_trans_of_irrefl _
  have hacc : ∀ a : Name, Acc (fun b a => g.Leads a b) a.1 := by
    intro a
    induction a using htrans.induction with
    | _ a ih =>
      refine .intro _ fun b hb => ?_
      -- a rule without alternatives leads nowhere
      by_cases hmem : b ∈ g.productions.map (·.name)
      · exact ih ⟨b, hmem⟩ (.single hb)
      · exact .intro _ fun c hc => absurd hc.mem_names hmem
  refine ⟨fun a => .intro _ fun b hb => ?_⟩
  exact (hacc ⟨a, hb.mem_names⟩).inv hb

lemma leftRecursionFree_of_wellFounded (h : WellFounded fun b a => g.Leads a b) :
    g.LeftRecursionFree :=
  fun name hcycle => h.transGen.irrefl.irrefl name (Relation.transGen_swap.2 hcycle)

/-- Without left recursion there is no endless expansion. -/
lemma LeftRecursionFree.ends (h : g.LeftRecursionFree) (hplace : place ≤ tokens.size) :
    Ends g tokens ⟨symbols, place⟩ :=
  ends_of_wellFounded h.wellFounded hplace

/-! ## A rank that falls -/

/-- The rules that come to stand in front of some symbols if no other rules than those given can
vanish. -/
def fronts (vanishing : List String) : List Symbol → List String
  | .rule name :: rest => name :: if name ∈ vanishing then fronts vanishing rest else []
  | _ => []

/-- The symbol is one of the rules given. -/
def Symbol.isAmong (names : List String) : Symbol → Bool
  | .rule name => names.contains name
  | .terminal _ => false

/-- No other rules than those given can vanish, and each rule has a larger rank than those that come to
stand in front of its alternatives. -/
def Ranked (g : Grammar V) (vanishing : List String) (rank : String → Nat) : Prop :=
  ∀ p ∈ g.productions, (p.symbols.all (·.isAmong vanishing) → p.name ∈ vanishing) ∧
    ∀ name ∈ fronts vanishing p.symbols, rank name < rank p.name

instance {vanishing : List String} {rank : String → Nat} : Decidable (g.Ranked vanishing rank) :=
  inferInstanceAs (Decidable (∀ p ∈ g.productions, _))

lemma mem_fronts {vanishing : List String} {b : String}
    (hfront : ∀ x ∈ front, x.isAmong vanishing) :
    b ∈ fronts vanishing (front ++ .rule b :: back) := by
  induction front with
  | nil => exact List.mem_cons_self
  | cons x front ih =>
    obtain ⟨hx, hrest⟩ := List.forall_mem_cons.1 hfront
    cases x with
    | terminal _ => cases hx
    | rule name =>
      have hname : name ∈ vanishing := List.contains_iff_mem.1 hx
      rw [List.cons_append, fronts, if_pos hname]
      exact List.mem_cons_of_mem _ (ih hrest)

namespace Ranked

variable {vanishing : List String} {rank : String → Nat}

lemma isAmong_of_vanishes (h : g.Ranked vanishing rank) {x : Symbol} (hx : g.Vanishes x) :
    x.isAmong vanishing := by
  induction hx with
  | rule hp _ ih =>
    obtain ⟨hp, hname⟩ := List.mem_filter.1 hp
    have hmem := (h _ hp).1 (List.all_eq_true.2 ih)
    rw [of_decide_eq_true hname] at hmem
    exact List.contains_iff_mem.2 hmem

lemma rank_lt_of_leads (h : g.Ranked vanishing rank) {a b : String} (hleads : g.Leads a b) :
    rank b < rank a := by
  obtain ⟨p, hp, front, back, hsymbols, hfront⟩ := hleads
  obtain ⟨hp, hname⟩ := List.mem_filter.1 hp
  have hmem : b ∈ fronts vanishing p.symbols := by
    rw [hsymbols]
    exact mem_fronts fun x hx => h.isAmong_of_vanishes (hfront x hx)
  have hlt := (h p hp).2 b hmem
  rwa [of_decide_eq_true hname] at hlt

lemma wellFounded (h : g.Ranked vanishing rank) : WellFounded fun b a => g.Leads a b :=
  Subrelation.wf h.rank_lt_of_leads (InvImage.wf rank Nat.lt_wfRel.wf)

end Ranked

end TriggerScript.Grammar
