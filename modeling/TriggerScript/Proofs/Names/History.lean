import Mathlib.Data.List.Induction
import Mathlib.Data.Nat.SuccPred
import Mathlib.Tactic.Common
import TriggerScript.LexicalScope
import TriggerScript.Proofs.Numbering
import TriggerScript.Proofs.Runs

/-!
# Names from the history of a scope

A lexical scope comes about by steps: parameters and locals are declared, blocks are opened and closed.
What a name means can be told from the list of these steps alone. A block bears the number of the step
that opens it, and it is open until more blocks have been closed than opened since then (`openBlocks`). A
local belongs to the innermost block that is open when it is declared. The last declaration counts, first
in the innermost open block that has one, then among the parameters, then among the locals outside of all
blocks, and then among the global variables (`Denotes`).

The main result is `LexicalScope.resolve_iff_denotes`. It holds of all lists of steps, also of those that
close blocks where none is open.
-/

namespace TriggerScript

/-! ## Last places -/

section Places

variable {α β : Type} {as : α → Option (String × β)} {counts : List α → Prop} {l : List α}
  {dictionary : List (String × β)} {name : String} {x : β} {y : α}

/-- The places of a list at which something stands under a name. A place counts if `counts` holds of what
stands in front of it. -/
def placesOf (as : α → Option (String × β)) (counts : List α → Prop) (l : List α) (name : String) :
    Set Nat :=
  {i | counts (l.take i) ∧ ∃ x, l[i]?.bind as = some (name, x)}

lemma lt_length_of_mem_placesOf {i : Nat} (h : i ∈ placesOf as counts l name) : i < l.length := by
  obtain ⟨-, x, hx⟩ := h
  by_contra hge
  rw [List.getElem?_eq_none (Nat.le_of_not_lt hge)] at hx
  cases hx

lemma mem_placesOf_concat {i : Nat} : i ∈ placesOf as counts (l ++ [y]) name ↔
    i ∈ placesOf as counts l name ∨ i = l.length ∧ counts l ∧ ∃ x, as y = some (name, x) := by
  rcases Nat.lt_trichotomy i l.length with hlt | rfl | hgt
  · simp only [placesOf, Set.mem_ofPred_eq, List.take_append_of_le_length hlt.le,
      List.getElem?_append_left hlt, hlt.ne, false_and, or_false]
  · have hout : l.length ∉ placesOf as counts l name :=
      fun h => Nat.lt_irrefl _ (lt_length_of_mem_placesOf h)
    simp only [hout, false_or, true_and]
    simp [placesOf]
  · have hout : i ∉ placesOf as counts (l ++ [y]) name := by
      intro h
      have hlt := lt_length_of_mem_placesOf h
      simp only [List.length_append, List.length_singleton] at hlt
      omega
    have hout' : i ∉ placesOf as counts l name :=
      fun h => Nat.lt_asymm hgt (lt_length_of_mem_placesOf h)
    simp only [hout, hout', hgt.ne', false_and, or_false]

/-- Behind an entry that does not count or stands under another name, the places are the same. -/
lemma placesOf_concat_of_not (h : counts l → ∀ x, as y ≠ some (name, x)) :
    placesOf as counts (l ++ [y]) name = placesOf as counts l name := by
  ext i
  rw [mem_placesOf_concat]
  constructor
  · rintro (hi | ⟨-, hcounts, x, hx⟩)
    · exact hi
    · exact (h hcounts x hx).elim
  · exact .inl

/-- A dictionary yields under each name what stands at the last place of that name. -/
def Lists (as : α → Option (String × β)) (counts : List α → Prop) (l : List α)
    (dictionary : List (String × β)) : Prop :=
  ∀ name x, dictionary.lookup name = some x ↔
    ∃ i, IsGreatest (placesOf as counts l name) i ∧ l[i]?.bind as = some (name, x)

lemma Lists.empty (h : ∀ i, ¬counts (l.take i)) : Lists as counts l [] := by
  intro name x
  constructor
  · intro hlookup
    cases hlookup
  · rintro ⟨i, ⟨⟨hi, -⟩, -⟩, -⟩
    exact (h i hi).elim

lemma Lists.nil : Lists as counts [] [] := by
  intro name x
  constructor
  · intro hlookup
    cases hlookup
  · rintro ⟨i, -, hi⟩
    simp at hi

/-- What is read at a place in front of the last one does not depend on the last one. -/
lemma Lists.iff_concat (h : Lists as counts l dictionary)
    (hskip : counts l → ∀ x, as y ≠ some (name, x)) : dictionary.lookup name = some x ↔
      ∃ i, IsGreatest (placesOf as counts (l ++ [y]) name) i ∧
        (l ++ [y])[i]?.bind as = some (name, x) := by
  rw [h name x, placesOf_concat_of_not hskip]
  refine exists_congr fun i => and_congr_right fun hi => ?_
  rw [List.getElem?_append_left (lt_length_of_mem_placesOf hi.1)]

lemma Lists.skip (h : Lists as counts l dictionary) (hskip : counts l → as y = none) :
    Lists as counts (l ++ [y]) dictionary := by
  intro name x
  refine h.iff_concat fun hcounts x hx => ?_
  rw [hskip hcounts] at hx
  cases hx

lemma Lists.add (h : Lists as counts l dictionary) (hcounts : counts l)
    (hy : as y = some (name, x)) : Lists as counts (l ++ [y]) ((name, x) :: dictionary) := by
  intro other x'
  by_cases hother : other = name
  -- the new entry stands at the last place of its name
  · subst hother
    have hlast : IsGreatest (placesOf as counts (l ++ [y]) other) l.length := by
      refine ⟨mem_placesOf_concat.2 (.inr ⟨rfl, hcounts, x, hy⟩), fun i hi => ?_⟩
      rcases mem_placesOf_concat.1 hi with hi | ⟨rfl, -⟩
      · exact (lt_length_of_mem_placesOf hi).le
      · exact Nat.le_refl _
    have hread : (l ++ [y])[l.length]?.bind as = some (other, x) := by simpa using hy
    rw [List.lookup_cons_self]
    constructor
    · rintro ⟨rfl⟩
      exact ⟨l.length, hlast, hread⟩
    · rintro ⟨i, hi, hx'⟩
      rw [hi.unique hlast, hread] at hx'
      cases hx'
      rfl
  · rw [List.lookup_cons, beq_false_of_ne hother]
    refine h.iff_concat fun _ x'' hx'' => hother ?_
    rw [hy] at hx''
    cases hx''
    rfl

lemma exists_isGreatest_placesOf (h : (placesOf as counts l name).Nonempty) :
    ∃ i, IsGreatest (placesOf as counts l name) i :=
  BddAbove.exists_isGreatest_of_nonempty
    ⟨l.length, fun _ hi => (lt_length_of_mem_placesOf hi).le⟩ h

lemma Lists.lookup_eq_none_iff (h : Lists as counts l dictionary) :
    dictionary.lookup name = none ↔ placesOf as counts l name = ∅ := by
  rw [← Set.not_nonempty_iff_eq_empty, Option.eq_none_iff_forall_ne_some]
  constructor
  · intro hnone hplaces
    obtain ⟨i, hi⟩ := exists_isGreatest_placesOf hplaces
    obtain ⟨x, hx⟩ := hi.1.2
    exact hnone x ((h name x).2 ⟨i, hi, hx⟩)
  · intro hempty x hx
    obtain ⟨i, hi, -⟩ := (h name x).1 hx
    exact hempty ⟨i, hi.1⟩

end Places

/-! ## Steps -/

/-- Something that is done to the names in scope. -/
inductive ScopeStep where
  | addParameter (name : String) (a : Allocation)
  | addLocal (name : String) (a : Allocation)
  | openBlock
  | closeBlock
deriving Repr, DecidableEq

namespace ScopeStep

/-- The scope behind a step. -/
def apply (scope : LexicalScope) : ScopeStep → LexicalScope
  | addParameter name a => scope.addParameter name a
  | addLocal name a => scope.addLocal name a
  | openBlock => scope.openBlock
  | closeBlock => scope.closeBlock

/-- The parameter that a step declares. -/
def parameter? : ScopeStep → Option (String × Allocation)
  | addParameter name a => some (name, a)
  | _ => none

/-- The local that a step declares. -/
def local? : ScopeStep → Option (String × Allocation)
  | addLocal name a => some (name, a)
  | _ => none

lemma parameter?_eq_some_iff {step : ScopeStep} {name : String} {a : Allocation} :
    step.parameter? = some (name, a) ↔ step = addParameter name a := by
  cases step <;> simp [parameter?]

lemma local?_eq_some_iff {step : ScopeStep} {name : String} {a : Allocation} :
    step.local? = some (name, a) ↔ step = addLocal name a := by
  cases step <;> simp [local?]

end ScopeStep

/-- The scope behind a list of steps, which begins without names. -/
def LexicalScope.ofHistory (h : List ScopeStep) : LexicalScope :=
  h.foldl ScopeStep.apply {}

lemma LexicalScope.ofHistory_concat (h : List ScopeStep) (step : ScopeStep) :
    ofHistory (h ++ [step]) = step.apply (ofHistory h) := by
  rw [ofHistory, List.foldl_append]
  rfl

/-- The blocks that are open behind a list of steps, each with the number of the step that opens it:
since then at no time have more blocks been closed than opened. -/
def openBlocks (h : List ScopeStep) : Set Nat :=
  {j | h[j]? = some .openBlock ∧ ∀ since, since <+: h.drop (j + 1) →
    since.count .closeBlock ≤ since.count .openBlock}

/-- The steps that declare a local under a name while `block` is the innermost open block. -/
def blockLocals (h : List ScopeStep) (block : Nat) (name : String) : Set Nat :=
  placesOf ScopeStep.local? (fun before => IsGreatest (openBlocks before) block) h name

/-- The steps that declare a local under a name while no block is open. -/
def outerLocals (h : List ScopeStep) (name : String) : Set Nat :=
  placesOf ScopeStep.local? (fun before => openBlocks before = ∅) h name

/-- The steps that declare a parameter under a name. -/
def parameterSteps (h : List ScopeStep) (name : String) : Set Nat :=
  placesOf ScopeStep.parameter? (fun _ => True) h name

/-- The places of global variables of a name among all that a program imports and defines, in order. -/
def globalPlaces (p : Program) (name : String) : Set Nat :=
  placesOf Entry.global? (fun _ => True) p.entries name

/-- What a name means behind a list of steps. -/
inductive Denotes (h : List ScopeStep) (p : Program) (name : String) :
    Except LoweringError Binding → Prop
  | blockLocal {block i : Nat} {a : Allocation}
      (hblock : IsGreatest {j | j ∈ openBlocks h ∧ (blockLocals h j name).Nonempty} block)
      (hlast : IsGreatest (blockLocals h block name) i) (ha : h[i]? = some (.addLocal name a)) :
      Denotes h p name (.ok (.variable a))
  | parameter {i : Nat} {a : Allocation} (hblocks : ∀ j ∈ openBlocks h, blockLocals h j name = ∅)
      (hlast : IsGreatest (parameterSteps h name) i) (ha : h[i]? = some (.addParameter name a)) :
      Denotes h p name (.ok (.parameter a))
  | outerLocal {i : Nat} {a : Allocation} (hblocks : ∀ j ∈ openBlocks h, blockLocals h j name = ∅)
      (hparameters : parameterSteps h name = ∅)
      (hlast : IsGreatest (outerLocals h name) i) (ha : h[i]? = some (.addLocal name a)) :
      Denotes h p name (.ok (.variable a))
  | global {i : Nat} {g : Global} {a : Allocation}
      (hblocks : ∀ j ∈ openBlocks h, blockLocals h j name = ∅)
      (hparameters : parameterSteps h name = ∅) (hlocals : outerLocals h name = ∅)
      (hlast : IsGreatest (globalPlaces p name) i) (hg : p.entries[i]? = some (.global g))
      (ha : g.allocation = some a) : Denotes h p name (.ok (.variable a))
  | unresolved (hblocks : ∀ j ∈ openBlocks h, blockLocals h j name = ∅)
      (hparameters : parameterSteps h name = ∅) (hlocals : outerLocals h name = ∅)
      (hglobals : globalPlaces p name = ∅) : Denotes h p name (.error (.unresolved name))

/-! ## Open blocks -/

section OpenBlocks

variable {h : List ScopeStep} {j : Nat} {opened : List Nat}

lemma lt_length_of_mem_openBlocks (hj : j ∈ openBlocks h) : j < h.length :=
  (List.getElem?_eq_some_iff.1 hj.1).1

/-- A step leaves a block open if it does not close more than has been opened. -/
lemma mem_openBlocks_concat {step : ScopeStep} : j ∈ openBlocks (h ++ [step]) ↔
    (j ∈ openBlocks h ∧ (h.drop (j + 1) ++ [step]).count .closeBlock ≤
      (h.drop (j + 1) ++ [step]).count .openBlock) ∨ j = h.length ∧ step = .openBlock := by
  rcases Nat.lt_trichotomy j h.length with hlt | rfl | hgt
  · have hdrop : (h ++ [step]).drop (j + 1) = h.drop (j + 1) ++ [step] :=
      List.drop_append_of_le_length hlt
    simp only [openBlocks, Set.mem_ofPred_eq, List.getElem?_append_left hlt, hdrop, hlt.ne, false_and,
      or_false, and_assoc]
    refine and_congr_right fun _ => ⟨fun hsince => ⟨fun since hpre => ?_, ?_⟩, ?_⟩
    · exact hsince since (hpre.trans (List.prefix_append _ _))
    · exact hsince _ (List.prefix_refl _)
    · rintro ⟨hsince, hall⟩ since hpre
      rcases List.prefix_concat_iff.1 hpre with rfl | hpre
      · exact hall
      · exact hsince since hpre
  · simp [openBlocks]
  · have hout : j ∉ openBlocks (h ++ [step]) := by
      intro hj
      have hlt := lt_length_of_mem_openBlocks hj
      simp only [List.length_append, List.length_singleton] at hlt
      omega
    have hout' : j ∉ openBlocks h := fun hj => Nat.lt_asymm hgt (lt_length_of_mem_openBlocks hj)
    simp only [hout, hout', hgt.ne', false_and, or_false]

/-- The open blocks, the innermost first. As many blocks lie inside of one as have been opened and not
been closed since then. -/
structure Opened (h : List ScopeStep) (opened : List Nat) : Prop where
  mem_iff : ∀ j, j ∈ openBlocks h ↔ j ∈ opened
  sorted : opened.Pairwise (· > ·)
  excess : ∀ i j, opened[i]? = some j →
    (h.drop (j + 1)).count .openBlock = (h.drop (j + 1)).count .closeBlock + i

namespace Opened

lemma lt_length (ho : Opened h opened) (hj : j ∈ opened) : j < h.length :=
  lt_length_of_mem_openBlocks ((ho.mem_iff j).2 hj)

lemma nil : Opened [] [] :=
  ⟨fun j => by simp [openBlocks], .nil, fun i j hj => by simp at hj⟩

lemma drop_concat (ho : Opened h opened) (hj : j ∈ opened) (step : ScopeStep) :
    (h ++ [step]).drop (j + 1) = h.drop (j + 1) ++ [step] :=
  List.drop_append_of_le_length (ho.lt_length hj)

/-- A declaration opens and closes nothing. -/
lemma declare (ho : Opened h opened) (step : ScopeStep) (hopen : step ≠ .openBlock)
    (hclose : step ≠ .closeBlock) : Opened (h ++ [step]) opened := by
  refine ⟨fun j => ?_, ho.sorted, fun i j hj => ?_⟩
  · rw [mem_openBlocks_concat, ← ho.mem_iff]
    constructor
    · rintro (⟨hj, -⟩ | ⟨-, hstep⟩)
      · exact hj
      · exact (hopen hstep).elim
    · intro hj
      have hle := hj.2 _ (List.prefix_refl _)
      exact .inl ⟨hj, by simpa [List.count_append, hopen, hclose] using hle⟩
  · rw [ho.drop_concat (List.mem_of_getElem? hj)]
    simpa [List.count_append, hopen, hclose] using ho.excess i j hj

lemma openBlock (ho : Opened h opened) : Opened (h ++ [ScopeStep.openBlock]) (h.length :: opened) := by
  have hcount : ∀ since : List ScopeStep,
      List.count ScopeStep.closeBlock (since ++ [ScopeStep.openBlock]) = since.count .closeBlock ∧
        List.count ScopeStep.openBlock (since ++ [ScopeStep.openBlock]) =
          since.count .openBlock + 1 := by
    intro since
    simp [List.count_append]
  refine ⟨fun j => ?_, List.pairwise_cons.2 ⟨fun j => ho.lt_length, ho.sorted⟩, fun i j hj => ?_⟩
  · rw [mem_openBlocks_concat, List.mem_cons, ← ho.mem_iff]
    constructor
    · rintro (⟨hj, -⟩ | ⟨hj, -⟩)
      · exact .inr hj
      · exact .inl hj
    · rintro (hj | hj)
      · exact .inr ⟨hj, rfl⟩
      · have hle := hj.2 _ (List.prefix_refl _)
        exact .inl ⟨hj, by rw [(hcount _).1, (hcount _).2]; omega⟩
  · rcases i with _ | i
    · obtain ⟨rfl⟩ := hj
      simp
    · rw [List.getElem?_cons_succ] at hj
      rw [ho.drop_concat (List.mem_of_getElem? hj), (hcount _).1, (hcount _).2, ho.excess i j hj,
        Nat.add_assoc]

/-- The innermost block is the one inside of which no other is open. -/
lemma closeBlock (ho : Opened h opened) : Opened (h ++ [ScopeStep.closeBlock]) opened.tail := by
  have hcount : ∀ since : List ScopeStep,
      List.count ScopeStep.closeBlock (since ++ [ScopeStep.closeBlock]) = since.count .closeBlock + 1 ∧
        List.count ScopeStep.openBlock (since ++ [ScopeStep.closeBlock]) = since.count .openBlock := by
    intro since
    simp [List.count_append]
  refine ⟨fun j => ?_, ho.sorted.tail, fun i j hj => ?_⟩
  · rw [mem_openBlocks_concat, (hcount _).1, (hcount _).2, ho.mem_iff]
    simp only [reduceCtorEq, and_false, or_false]
    rcases opened with _ | ⟨j₀, outer⟩
    · simp
    · have hne : ∀ j ∈ outer, j ≠ j₀ := fun j hj => ((List.pairwise_cons.1 ho.sorted).1 j hj).ne
      rw [List.tail_cons, List.mem_cons]
      constructor
      · rintro ⟨rfl | hj, hle⟩
        · have hexcess := ho.excess 0 j rfl
          omega
        · exact hj
      · intro hj
        obtain ⟨i, hi⟩ := List.getElem?_of_mem hj
        have hexcess := ho.excess (i + 1) j hi
        exact ⟨.inr hj, by omega⟩
  · rw [List.getElem?_tail] at hj
    have hexcess := ho.excess (i + 1) j hj
    rw [ho.drop_concat (List.mem_of_getElem? hj), (hcount _).1, (hcount _).2]
    omega

lemma eq_empty_iff (ho : Opened h opened) : openBlocks h = ∅ ↔ opened = [] := by
  simp only [Set.eq_empty_iff_forall_notMem, ho.mem_iff, List.eq_nil_iff_forall_not_mem]

lemma isGreatest_head {outer : List Nat} (ho : Opened h (j :: outer)) :
    IsGreatest (openBlocks h) j := by
  refine ⟨(ho.mem_iff j).2 List.mem_cons_self, fun k hk => ?_⟩
  rcases List.mem_cons.1 ((ho.mem_iff k).1 hk) with rfl | hk
  · exact Nat.le_refl _
  · exact ((List.pairwise_cons.1 ho.sorted).1 k hk).le

end Opened

end OpenBlocks

/-! ## Dictionaries of a scope -/

/-- The dictionaries of a scope list what the steps that lead to it have declared, and there is one
for each open block. -/
structure Traces (h : List ScopeStep) (opened : List Nat) : Prop extends Opened h opened where
  blocks : List.Forall₂ (fun j block =>
    Lists ScopeStep.local? (fun before => IsGreatest (openBlocks before) j) h block) opened
      (LexicalScope.ofHistory h).blocks
  parameters : Lists ScopeStep.parameter? (fun _ => True) h (LexicalScope.ofHistory h).parameters
  locals : Lists ScopeStep.local? (fun before => openBlocks before = ∅) h
    (LexicalScope.ofHistory h).locals

namespace Traces

variable {h : List ScopeStep} {opened : List Nat}

lemma skip_blocks (ht : Traces h opened) (step : ScopeStep) (hstep : step.local? = none) :
    List.Forall₂ (fun j block =>
      Lists ScopeStep.local? (fun before => IsGreatest (openBlocks before) j) (h ++ [step]) block)
      opened (LexicalScope.ofHistory h).blocks :=
  ht.blocks.imp fun _ _ hblock => hblock.skip fun _ => hstep

lemma addParameter (ht : Traces h opened) (name : String) (a : Allocation) :
    Traces (h ++ [ScopeStep.addParameter name a]) opened where
  toOpened := ht.toOpened.declare _ (by simp) (by simp)
  blocks := by
    rw [LexicalScope.ofHistory_concat]
    exact ht.skip_blocks _ rfl
  parameters := by
    rw [LexicalScope.ofHistory_concat]
    exact ht.parameters.add trivial rfl
  locals := by
    rw [LexicalScope.ofHistory_concat]
    exact ht.locals.skip fun _ => rfl

/-- A local goes to the innermost open block. -/
lemma addLocal (ht : Traces h opened) (name : String) (a : Allocation) :
    Traces (h ++ [ScopeStep.addLocal name a]) opened := by
  have hopened := ht.toOpened.declare (.addLocal name a) (by simp) (by simp)
  have hparameters := ht.parameters.skip (y := .addLocal name a) fun _ => rfl
  have hblocks := ht.blocks
  have hscope := LexicalScope.ofHistory_concat h (.addLocal name a)
  simp only [ScopeStep.apply, LexicalScope.addLocal] at hscope
  rcases opened with _ | ⟨j, outer⟩
  · rw [List.forall₂_nil_left_iff] at hblocks
    rw [hblocks] at hscope
    refine ⟨hopened, ?_, ?_, ?_⟩
    · rw [hscope]
      exact .nil
    · rw [hscope]
      exact hparameters
    · rw [hscope]
      exact ht.locals.add (ht.eq_empty_iff.2 rfl) rfl
  · obtain ⟨block, blocks, hblock, houter, heq⟩ := List.forall₂_cons_left_iff.1 hblocks
    rw [heq] at hscope
    have hgreatest := ht.isGreatest_head
    refine ⟨hopened, ?_, ?_, ?_⟩
    · rw [hscope]
      refine .cons (hblock.add hgreatest rfl) ?_
      have hinner := (List.pairwise_cons.1 ht.sorted).1
      refine ((List.forall₂_and_left _ _).2 ⟨hinner, houter⟩).imp fun k _ hk => hk.2.skip fun hk' => ?_
      exact (hk.1.ne (hk'.unique hgreatest)).elim
    · rw [hscope]
      exact hparameters
    · rw [hscope]
      refine ht.locals.skip fun hempty => ?_
      rw [hempty] at hgreatest
      exact hgreatest.1.elim

lemma openBlock (ht : Traces h opened) : Traces (h ++ [ScopeStep.openBlock]) (h.length :: opened) where
  toOpened := ht.toOpened.openBlock
  blocks := by
    rw [LexicalScope.ofHistory_concat]
    refine .cons ?_ (ht.skip_blocks _ rfl)
    -- nothing has been declared in the block that has just been opened
    refine (Lists.empty fun i hi => ?_ : Lists _ _ h []).skip fun _ => rfl
    have hlt := lt_length_of_mem_openBlocks hi.1
    rw [List.length_take] at hlt
    omega
  parameters := by
    rw [LexicalScope.ofHistory_concat]
    exact ht.parameters.skip fun _ => rfl
  locals := by
    rw [LexicalScope.ofHistory_concat]
    exact ht.locals.skip fun _ => rfl

lemma closeBlock (ht : Traces h opened) : Traces (h ++ [ScopeStep.closeBlock]) opened.tail where
  toOpened := ht.toOpened.closeBlock
  blocks := by
    rw [LexicalScope.ofHistory_concat]
    have hblocks := ht.skip_blocks .closeBlock rfl
    simp only [ScopeStep.apply, LexicalScope.closeBlock]
    generalize (LexicalScope.ofHistory h).blocks = blocks at hblocks
    cases hblocks with
    | nil => exact .nil
    | cons _ houter => exact houter
  parameters := by
    rw [LexicalScope.ofHistory_concat]
    exact ht.parameters.skip fun _ => rfl
  locals := by
    rw [LexicalScope.ofHistory_concat]
    exact ht.locals.skip fun _ => rfl

end Traces

/-- What one step keeps is kept by all lists of steps. -/
lemma exists_traces (h : List ScopeStep) : ∃ opened, Traces h opened := by
  induction h using List.reverseRecOn with
  | nil => exact ⟨[], .nil, .nil, .nil, .nil⟩
  | append_singleton h step ih =>
    obtain ⟨opened, ht⟩ := ih
    cases step with
    | addParameter name a => exact ⟨opened, ht.addParameter name a⟩
    | addLocal name a => exact ⟨opened, ht.addLocal name a⟩
    | openBlock => exact ⟨_, ht.openBlock⟩
    | closeBlock => exact ⟨_, ht.closeBlock⟩

/-! ## Lookups -/

section Lookups

variable {h : List ScopeStep} {opened : List Nat} {name : String}

/-- The first block that has a name is the innermost one that has it. -/
lemma findSome?_blocks {blocks : List (List (String × Allocation))}
    (hblocks : List.Forall₂ (fun j block =>
      Lists ScopeStep.local? (fun before => IsGreatest (openBlocks before) j) h block) opened blocks)
    (hsorted : opened.Pairwise (· > ·)) :
    (blocks.findSome? (·.lookup name) = none ↔ ∀ j ∈ opened, blockLocals h j name = ∅) ∧
      ∀ a, blocks.findSome? (·.lookup name) = some a ↔ ∃ j i,
        IsGreatest {j | j ∈ opened ∧ (blockLocals h j name).Nonempty} j ∧
          IsGreatest (blockLocals h j name) i ∧ h[i]?.bind ScopeStep.local? = some (name, a) := by
  induction hblocks with
  | nil => simp [IsGreatest]
  | @cons j block outer blocks hblock _ ih =>
    obtain ⟨hj, hsorted⟩ := List.pairwise_cons.1 hsorted
    obtain ⟨ihnone, ihsome⟩ := ih hsorted
    rw [List.findSome?_cons, List.forall_mem_cons]
    rcases hlookup : block.lookup name with _ | b
    · have hempty : blockLocals h j name = ∅ := hblock.lookup_eq_none_iff.1 hlookup
      have hset : {k | k ∈ j :: outer ∧ (blockLocals h k name).Nonempty} =
          {k | k ∈ outer ∧ (blockLocals h k name).Nonempty} := by
        ext k
        simp only [Set.mem_ofPred_eq, List.mem_cons, or_and_right]
        constructor
        · rintro (⟨rfl, hk⟩ | hk)
          · exact (Set.not_nonempty_iff_eq_empty.2 hempty hk).elim
          · exact hk
        · exact .inr
      rw [hset]
      exact ⟨ihnone.trans (by simp [hempty]), ihsome⟩
    · obtain ⟨i, hi, hb⟩ := (hblock name b).1 hlookup
      have hi : IsGreatest (blockLocals h j name) i := hi
      have hgreatest : IsGreatest {k | k ∈ j :: outer ∧ (blockLocals h k name).Nonempty} j := by
        refine ⟨⟨List.mem_cons_self, i, hi.1⟩, fun k hk => ?_⟩
        rcases List.mem_cons.1 hk.1 with rfl | hk
        · exact Nat.le_refl _
        · exact (hj k hk).le
      refine ⟨⟨fun hnone => (by cases hnone), fun hempty => ?_⟩, fun a => ⟨?_, ?_⟩⟩
      · exact (Set.not_nonempty_iff_eq_empty.2 hempty.1 ⟨i, hi.1⟩).elim
      · rintro ⟨rfl⟩
        exact ⟨j, i, hgreatest, hi, hb⟩
      · rintro ⟨k, i', hk, hi', ha⟩
        obtain rfl := hk.unique hgreatest
        rw [hi'.unique hi, hb] at ha
        cases ha
        rfl

/-- The last global variable of a name is the one that the name means. -/
lemma lists_globals (p : Program) :
    Lists Entry.global? (fun _ => True) p.entries (p.entries.filterMap Entry.global?).reverse := by
  induction p.entries using List.reverseRecOn with
  | nil => exact .nil
  | append_singleton entries e ih =>
    rw [List.filterMap_append, List.reverse_append]
    rcases he : e.global? with _ | ⟨name, g⟩
    · simpa [he] using ih.skip fun _ => he
    · simpa [he] using ih.add trivial he

lemma bind_local?_iff {a : Allocation} {i : Nat} : h[i]?.bind ScopeStep.local? = some (name, a) ↔
    h[i]? = some (.addLocal name a) := by
  simp [Option.bind_eq_some_iff, ScopeStep.local?_eq_some_iff]

lemma bind_parameter?_iff {a : Allocation} {i : Nat} : h[i]?.bind ScopeStep.parameter? = some (name, a) ↔
    h[i]? = some (.addParameter name a) := by
  simp [Option.bind_eq_some_iff, ScopeStep.parameter?_eq_some_iff]

lemma Traces.findSome?_eq_none_iff (ht : Traces h opened) :
    (LexicalScope.ofHistory h).blocks.findSome? (·.lookup name) = none ↔
      ∀ j ∈ openBlocks h, blockLocals h j name = ∅ := by
  simp only [ht.mem_iff]
  exact (findSome?_blocks ht.blocks ht.sorted).1

lemma Traces.findSome?_eq_some_iff (ht : Traces h opened) {a : Allocation} :
    (LexicalScope.ofHistory h).blocks.findSome? (·.lookup name) = some a ↔ ∃ j i,
      IsGreatest {j | j ∈ openBlocks h ∧ (blockLocals h j name).Nonempty} j ∧
        IsGreatest (blockLocals h j name) i ∧ h[i]? = some (.addLocal name a) := by
  simp only [ht.mem_iff, ← bind_local?_iff]
  exact (findSome?_blocks ht.blocks ht.sorted).2 a

lemma Traces.parameters_lookup_iff (ht : Traces h opened) {a : Allocation} :
    (LexicalScope.ofHistory h).parameters.lookup name = some a ↔
      ∃ i, IsGreatest (parameterSteps h name) i ∧ h[i]? = some (.addParameter name a) := by
  simp only [← bind_parameter?_iff]
  exact ht.parameters name a

lemma Traces.locals_lookup_iff (ht : Traces h opened) {a : Allocation} :
    (LexicalScope.ofHistory h).locals.lookup name = some a ↔
      ∃ i, IsGreatest (outerLocals h name) i ∧ h[i]? = some (.addLocal name a) := by
  simp only [← bind_local?_iff]
  exact ht.locals name a

lemma Program.global?_eq_some_iff {p : Program} {g : Global} : p.global? name = some g ↔
    ∃ i, IsGreatest (globalPlaces p name) i ∧ p.entries[i]? = some (.global g) := by
  refine (lists_globals p name g).trans (exists_congr fun i => and_congr_right fun hi => ?_)
  obtain ⟨-, g', hg'⟩ := hi.1
  obtain ⟨e, he, hglobal⟩ := Option.bind_eq_some_iff.1 hg'
  cases e <;> simp_all [Entry.global?]

lemma Program.global?_eq_none_iff {p : Program} :
    p.global? name = none ↔ globalPlaces p name = ∅ :=
  (lists_globals p).lookup_eq_none_iff

end Lookups

/-- What a name means can be told from the history of its scope. Behind any list of steps, also one
that closes blocks where none is open, and for any program whose slots have been filled, a name
resolves to the last local of its name in the innermost open block that has one, or else to the last
parameter of its name, or else to the last local of its name that was declared while no block was
open, or else to the last global variable of its name in the program. If there is none of these, the
name is reported as unresolved. -/
theorem LexicalScope.resolve_iff_denotes {p₀ p : Program} {before after : Allocator}
    (hp : (before.run (Allocate.program p₀)).start.1 = .ok (p, after)) (h : List ScopeStep)
    (name : String) (r : Except LoweringError Binding) :
    (ofHistory h).resolve (Symbols.ofProgram p).1 name = r ↔ Denotes h p name r := by
  obtain ⟨s, hs, -⟩ := Allocator.run_start_ok hp
  have hfilled : p.Filled := Program.SlotsFilled.filled (Allocate.program_ok hs).2
  obtain ⟨opened, ht⟩ := exists_traces h
  rw [resolve, local?, Symbols.global?_ofProgram]
  constructor
  · rintro rfl
    rcases hblocks : (ofHistory h).blocks.findSome? (·.lookup name) with _ | a
    · rcases hparameters : (ofHistory h).parameters.lookup name with _ | a
      · rcases hlocals : (ofHistory h).locals.lookup name with _ | a
        · rcases hglobal : p.global? name with _ | g
          · simpa [hblocks] using Denotes.unresolved (ht.findSome?_eq_none_iff.1 hblocks)
              (ht.parameters.lookup_eq_none_iff.1 hparameters)
              (ht.locals.lookup_eq_none_iff.1 hlocals) (Program.global?_eq_none_iff.1 hglobal)
          · obtain ⟨a, ha⟩ := Option.isSome_iff_exists.1 (hfilled.global hglobal)
            obtain ⟨i, hi, hg⟩ := Program.global?_eq_some_iff.1 hglobal
            simpa [hblocks, ha] using Denotes.global (ht.findSome?_eq_none_iff.1 hblocks)
              (ht.parameters.lookup_eq_none_iff.1 hparameters)
              (ht.locals.lookup_eq_none_iff.1 hlocals) hi hg ha
        · obtain ⟨i, hi, ha⟩ := ht.locals_lookup_iff.1 hlocals
          simpa [hblocks] using Denotes.outerLocal (ht.findSome?_eq_none_iff.1 hblocks)
            (ht.parameters.lookup_eq_none_iff.1 hparameters) hi ha
      · obtain ⟨i, hi, ha⟩ := ht.parameters_lookup_iff.1 hparameters
        simpa [hblocks] using Denotes.parameter (ht.findSome?_eq_none_iff.1 hblocks) hi ha
    · obtain ⟨j, i, hj, hi, ha⟩ := ht.findSome?_eq_some_iff.1 hblocks
      simpa [hblocks] using Denotes.blockLocal hj hi ha
  · rintro (⟨hblock, hlast, ha⟩ | ⟨hblocks, hlast, ha⟩ | ⟨hblocks, hparameters, hlast, ha⟩ |
      ⟨hblocks, hparameters, hlocals, hlast, hg, ha⟩ | ⟨hblocks, hparameters, hlocals, hglobals⟩)
    · simp [ht.findSome?_eq_some_iff.2 ⟨_, _, hblock, hlast, ha⟩]
    · simp [ht.findSome?_eq_none_iff.2 hblocks, ht.parameters_lookup_iff.2 ⟨_, hlast, ha⟩]
    · simp [ht.findSome?_eq_none_iff.2 hblocks, ht.parameters.lookup_eq_none_iff.2 hparameters,
        ht.locals_lookup_iff.2 ⟨_, hlast, ha⟩]
    · simp [ht.findSome?_eq_none_iff.2 hblocks, ht.parameters.lookup_eq_none_iff.2 hparameters,
        ht.locals.lookup_eq_none_iff.2 hlocals, Program.global?_eq_some_iff.2 ⟨_, hlast, hg⟩, ha]
    · simp [ht.findSome?_eq_none_iff.2 hblocks, ht.parameters.lookup_eq_none_iff.2 hparameters,
        ht.locals.lookup_eq_none_iff.2 hlocals, Program.global?_eq_none_iff.2 hglobals]

namespace Sample

/-- A name is declared in and outside of blocks; a block is closed where none is open, and of two nested
blocks the inner one is closed. -/
def nestedSteps : List ScopeStep :=
  [.addLocal "x" ⟨"0", ⟨1⟩⟩, .closeBlock, .addParameter "x" ⟨"0", ⟨2⟩⟩, .openBlock,
    .addLocal "x" ⟨"0", ⟨3⟩⟩, .addLocal "x" ⟨"0", ⟨4⟩⟩, .openBlock, .addLocal "x" ⟨"0", ⟨5⟩⟩,
    .closeBlock]

end Sample

/-- In the block that is still open, its second local is meant; behind this block, the parameter. Global
variables are seen from everywhere, and what is declared nowhere is not resolved. -/
theorem LexicalScope.resolve_iff_denotes_sample :
    Denotes Sample.nestedSteps Sample.writtenNumbered.1 "x" (.ok (.variable ⟨"0", ⟨4⟩⟩)) ∧
      Denotes (Sample.nestedSteps ++ [ScopeStep.closeBlock]) Sample.writtenNumbered.1 "x"
        (.ok (.parameter ⟨"0", ⟨2⟩⟩)) ∧
      Denotes Sample.nestedSteps Sample.writtenNumbered.1 "n"
        (.ok (.variable ⟨"0", ⟨0x10000002⟩⟩)) ∧
      Denotes Sample.nestedSteps Sample.writtenNumbered.1 "y" (.error (.unresolved "y")) := by
  have hp : (({} : Allocator).run (Allocate.program Sample.written)).start.1 =
      .ok Sample.writtenNumbered := eq_ok_get _
  exact ⟨(resolve_iff_denotes hp _ _ _).1 (by decide +kernel),
    (resolve_iff_denotes hp _ _ _).1 (by decide +kernel),
    (resolve_iff_denotes hp _ _ _).1 (by decide +kernel),
    (resolve_iff_denotes hp _ _ _).1 (by decide +kernel)⟩

end TriggerScript
