import TriggerScript.Proofs.Document.Contents
import TriggerScript.Proofs.Lowering.Orderly
import TriggerScript.Proofs.Lowering.Progress

/-!
# Default values that lead to one another

The default value of an imported parameter may contain calls that leave out the same parameter, or
others whose default values lead back to it. To make a default value is to make those that are left out
in it, unless they have been begun (`Lower.defaultStep`). This recursion is bounded by an allowance.

Each default value that is begun leaves one less that has not been begun. So the recursion comes to an
end before the allowance is used up, and what it computes does not depend on the allowance: the
recursion without an allowance has one solution. All of this holds whatever stands in the slots of a
program and a catalog. The main result is `Document.default_recursion_ends`.
-/

namespace TriggerScript

namespace Lower

variable {α β : Type} {p : Program} {omitted omitted' : Omitted}

/-! ## What has been begun -/

/-- Nothing that has been begun is forgotten. -/
def Retains (x : Lower α) : Prop :=
  ∀ s, s.done ⊆ (after x s).done

namespace Retains

lemma bind {x : Lower α} {f : α → Lower β} (hx : Retains x) (hf : ∀ a, Retains (f a)) :
    Retains (x >>= f) :=
  Moves.bind (R := fun s s' => s.done ⊆ s'.done) (fun h h' => List.Subset.trans h h') hx hf

lemma rescoped {enter : LexicalScope → LexicalScope}
    {leave : LexicalScope → LexicalScope → LexicalScope} {run : Lower α} (hrun : Retains run) :
    Retains (rescoped enter leave run) := by
  intro s
  have hdone := hrun { s with scope := enter s.scope }
  rcases hx : run { s with scope := enter s.scope } with ⟨a, s₁⟩ | ⟨e, s₁⟩
  · rw [after_of_ok hx] at hdone
    rw [after_of_ok (rescoped_of_ok hx)]
    exact hdone
  · rw [after_of_error hx] at hdone
    rw [after_of_error (rescoped_of_error hx)]
    exact hdone

lemma reserve (library : String) : Retains (reserve library) := by
  intro s
  rw [after_of_ok (reserve_eq_ok library s)]
  exact List.Subset.refl _

lemma fill (library : String) (place : Nat) (n : Node) : Retains (fill library place n) := by
  intro s
  rcases fill_cases library place n s with h | h
  · rw [after_of_ok h]
    exact List.Subset.refl _
  · rw [after_of_error h]
    exact List.Subset.refl _

end Retains

lemma Orderly.retains {symbols : Symbols} {run : Omitted → Lower α} (h : Orderly symbols run)
    (homitted : ∀ formal v, Retains (omitted formal v)) : Retains (run omitted) := by
  induction h with
  | quiet hx => exact hx.done
  | append library elements => exact fun s => List.Subset.refl _
  | omitted formal hv => exact homitted formal _
  | bind _ _ ihrun ihnext => exact ihrun.bind ihnext
  | rescoped enter leave _ ihrun => exact ihrun.rescoped
  | placed library element _ ihrun =>
    exact (Retains.reserve library).bind fun place => ihrun.bind fun a =>
      (Retains.fill library place (element a)).bind fun _ => (Quiet.pure a).done

lemma omittedDefault_retains (symbols : Symbols) (budget : Nat) (formal : Formal) (v : Value) :
    Retains (omittedDefault symbols budget formal v) := by
  induction budget generalizing formal v with
  | zero =>
    rw [omittedDefault]
    refine .bind (Quiet.allocated v.allocation).done fun a => .bind (Quiet.begin a).done fun fresh => ?_
    cases fresh
    · exact (Quiet.pure a).done
    · exact fun s => List.Subset.refl _
  | succ budget ih =>
    rw [omittedDefault_succ]
    exact (defaultStep_orderly formal v).retains ih

/-! ## Computations that agree -/

/-- Where at most `n` default values have not been begun, two computations come to the same, and it is
not that default values lead to one another without end. -/
def Agree (p : Program) (n : Nat) (x y : Lower α) : Prop :=
  ∀ s, (undone p s.done).length ≤ n → x s = y s ∧ ∀ s', x s ≠ .error .endlessDefaults s'

namespace Agree

variable {n : Nat}

lemma refl {x : Lower α} (hx : ∀ s s', x s ≠ .error .endlessDefaults s') : Agree p n x x :=
  fun s _ => ⟨rfl, hx s⟩

lemma quiet {x : Lower α} (hx : Quiet x) : Agree p n x x :=
  refl fun s s' h => hx.input s _ s' h trivial

lemma bind {x y : Lower α} {f g : α → Lower β} (hx : Agree p n x y) (hretains : Retains x)
    (hf : ∀ a, Agree p n (f a) (g a)) : Agree p n (x >>= f) (y >>= g) := by
  intro s hs
  obtain ⟨heq, hends⟩ := hx s hs
  rcases hrun : x s with ⟨a, s₁⟩ | ⟨e, s₁⟩
  -- behind the first step no more is left to be begun than before it
  · have hle : (undone p s₁.done).length ≤ n := by
      have hdone := hretains s
      rw [after_of_ok hrun] at hdone
      exact (length_undone_le hdone).trans hs
    rw [bind_of_ok hrun, bind_of_ok (heq ▸ hrun)]
    exact hf a s₁ hle
  · rw [bind_of_error hrun, bind_of_error (heq ▸ hrun)]
    refine ⟨rfl, fun s' h => ?_⟩
    obtain ⟨rfl, -⟩ := EStateM.Result.error.inj h
    exact hends s₁ hrun

lemma rescoped {enter : LexicalScope → LexicalScope}
    {leave : LexicalScope → LexicalScope → LexicalScope} {x y : Lower α} (h : Agree p n x y) :
    Agree p n (rescoped enter leave x) (rescoped enter leave y) := by
  intro s hs
  obtain ⟨heq, hends⟩ := h { s with scope := enter s.scope } hs
  rcases hrun : x { s with scope := enter s.scope } with ⟨a, s₁⟩ | ⟨e, s₁⟩
  · rw [rescoped_of_ok hrun, rescoped_of_ok (heq ▸ hrun)]
    exact ⟨rfl, fun s' h => by cases h⟩
  · rw [rescoped_of_error hrun, rescoped_of_error (heq ▸ hrun)]
    refine ⟨rfl, fun s' h => ?_⟩
    obtain ⟨rfl, -⟩ := EStateM.Result.error.inj h
    exact hends s₁ hrun

end Agree

/-- What is done in good order comes to the same if what makes default values does. -/
lemma Orderly.agree {run : Omitted → Lower α} (h : Orderly (Symbols.ofProgram p).1 run) {n : Nat}
    (homitted : ∀ formal, ∀ v ∈ (Symbols.ofProgram p).1.externalDefaults,
      Agree p n (omitted formal v) (omitted' formal v))
    (hretains : ∀ formal v, Retains (omitted formal v)) :
    Agree p n (run omitted) (run omitted') := by
  induction h with
  | quiet hx => exact .quiet hx
  | append library elements => exact .refl fun s s' h => by cases h
  | omitted formal hv => exact homitted formal _ hv
  | bind hrun _ ihrun ihnext => exact ihrun.bind (hrun.retains hretains) ihnext
  | rescoped enter leave _ ihrun => exact ihrun.rescoped
  | placed library element hrun ihrun =>
    refine .bind (.refl fun s s' h => ?_) (.reserve library) fun place =>
      ihrun.bind (hrun.retains hretains) fun a =>
        .bind (.refl fun s s' h => ?_) (.fill library place (element a)) fun _ => .quiet (.pure a)
    · rw [reserve_eq_ok] at h
      cases h
    · rcases fill_cases library place (element a) s with hs | hs <;> rw [hs] at h <;> cases h

/-! ## One step of the recursion -/

section

variable {symbols : Symbols} {formal : Formal} {v : Value} {s : LowerState} {a : Allocation}

lemma defaultStep_of_none (ha : v.allocation = none) :
    defaultStep symbols omitted formal v s = .error notAllocated s := by
  rw [defaultStep, ha]
  rfl

lemma defaultStep_of_mem (ha : v.allocation = some a) (hdone : a ∈ s.done) :
    defaultStep symbols omitted formal v s = .ok a s := by
  rw [defaultStep, bind_of_ok (allocated_ok_iff.2 ⟨ha, rfl⟩),
    bind_of_ok (begin_ok_iff.2 (.inl ⟨hdone, rfl, rfl⟩))]
  rfl

lemma defaultStep_of_not_mem (ha : v.allocation = some a) (hdone : a ∉ s.done) :
    defaultStep symbols omitted formal v s =
      (do
        let _ ← inScope {} (value ⟨symbols, omitted⟩ formal.allocation 0 v)
        return a : Lower Allocation) { s with done := a :: s.done } := by
  rw [defaultStep, bind_of_ok (allocated_ok_iff.2 ⟨ha, rfl⟩),
    bind_of_ok (begin_ok_iff.2 (.inr ⟨hdone, rfl, rfl⟩))]
  rfl

end

variable {formal : Formal} {v : Value} {n : Nat}

/-- A step agrees further than what it depends on: where a default value is begun, one less is left. -/
lemma defaultStep_agree (hv : v ∈ (Symbols.ofProgram p).1.externalDefaults)
    (homitted : ∀ m < n, ∀ formal, ∀ v ∈ (Symbols.ofProgram p).1.externalDefaults,
      Agree p m (omitted formal v) (omitted' formal v))
    (hretains : ∀ formal v, Retains (omitted formal v)) :
    Agree p n (defaultStep (Symbols.ofProgram p).1 omitted formal v)
      (defaultStep (Symbols.ofProgram p).1 omitted' formal v) := by
  intro s hs
  rcases ha : v.allocation with _ | a
  · rw [defaultStep_of_none ha, defaultStep_of_none ha]
    exact ⟨rfl, fun s' h => by cases h⟩
  · by_cases hdone : a ∈ s.done
    · rw [defaultStep_of_mem ha hdone, defaultStep_of_mem ha hdone]
      exact ⟨rfl, fun s' h => by cases h⟩
    · have hlt := length_undone_cons_lt hv ha hdone
      have horderly : Orderly (Symbols.ofProgram p).1 fun omitted => (do
          let _ ← inScope {} (value ⟨(Symbols.ofProgram p).1, omitted⟩ formal.allocation 0 v)
          return a) := ((value_orderly v).inScope {}).bind fun _ => .pure a
      rw [defaultStep_of_not_mem ha hdone, defaultStep_of_not_mem ha hdone]
      exact horderly.agree (homitted _ (Nat.lt_of_lt_of_le hlt hs)) hretains _ (Nat.le_refl _)

/-- An allowance that is enough is as good as a step. -/
lemma omittedDefault_eq_defaultStep (hv : v ∈ (Symbols.ofProgram p).1.externalDefaults) {budget : Nat}
    {s : LowerState} (hs : (undone p s.done).length ≤ budget) :
    omittedDefault (Symbols.ofProgram p).1 budget formal v s =
      defaultStep (Symbols.ofProgram p).1 (omittedDefault (Symbols.ofProgram p).1 (budget - 1))
        formal v s := by
  rcases budget with _ | budget
  -- if nothing is left that has not been begun then no allowance is needed
  · rcases ha : v.allocation with _ | a
    · rw [defaultStep_of_none ha, omittedDefault, ha]
      rfl
    · have hdone : a ∈ s.done := by
        by_contra hdone
        have hlt := length_undone_cons_lt hv ha hdone
        omega
      rw [defaultStep_of_mem ha hdone, omittedDefault, bind_of_ok (allocated_ok_iff.2 ⟨ha, rfl⟩),
        bind_of_ok (begin_ok_iff.2 (.inl ⟨hdone, rfl, rfl⟩))]
      rfl
  · rw [omittedDefault_succ]
    rfl

/-- More of an allowance that is enough changes nothing. -/
lemma omittedDefault_agree_succ (hv : v ∈ (Symbols.ofProgram p).1.externalDefaults) {budget : Nat}
    (hn : n ≤ budget) :
    Agree p n (omittedDefault (Symbols.ofProgram p).1 budget formal v)
      (omittedDefault (Symbols.ofProgram p).1 (budget + 1) formal v) := by
  induction n using Nat.strong_induction_on generalizing budget formal v with
  | _ n ih =>
    intro s hs
    rw [omittedDefault_eq_defaultStep hv (hs.trans hn), omittedDefault_succ]
    refine defaultStep_agree hv (fun m hm formal' v' hv' => ?_) (omittedDefault_retains _ _) s hs
    obtain ⟨budget, rfl⟩ := Nat.exists_eq_add_one.2 (Nat.lt_of_lt_of_le (Nat.zero_lt_of_lt hm) hn)
    exact ih m hm hv' (Nat.le_of_lt_succ (Nat.lt_of_lt_of_le hm hn))

/-- Default values are made by the recursion without an allowance. -/
def Solves (symbols : Symbols) (omitted : Omitted) : Prop :=
  ∀ formal, ∀ v ∈ symbols.externalDefaults, omitted formal v = defaultStep symbols omitted formal v

/-- The allowance for the default values of a program is enough for the recursion. -/
lemma solves_ofSymbols (p : Program) :
    Solves (Symbols.ofProgram p).1 (Context.ofSymbols (Symbols.ofProgram p).1).omitted := by
  intro formal v hv
  funext s
  refine (omittedDefault_agree_succ hv (Nat.le_refl _) s (List.length_filter_le _ _)).1.trans ?_
  rw [omittedDefault_succ]
  rfl

/-- Each solution of the recursion comes to the same. -/
lemma Solves.agree (h : Solves (Symbols.ofProgram p).1 omitted)
    (hv : v ∈ (Symbols.ofProgram p).1.externalDefaults) :
    Agree p n ((Context.ofSymbols (Symbols.ofProgram p).1).omitted formal v) (omitted formal v) := by
  induction n using Nat.strong_induction_on generalizing formal v with
  | _ n ih =>
    rw [solves_ofSymbols p formal v hv, h formal v hv]
    exact defaultStep_agree hv (fun m hm formal' v' hv' => ih m hm hv') (omittedDefault_retains _ _)

end Lower

namespace Document

/-- Lowering comes to an end. Whatever the slots of a program and a catalog hold, and however the default
values of imported parameters lead to one another, no document is refused because they do so without
end. The default values are made by the recursion without an allowance, and whatever solves this
recursion gives the same result. -/
theorem default_recursion_ends (p : Program) (c : Catalog) :
    (build p c).start.1 ≠ .error .endlessDefaults ∧
      Lower.Solves (Symbols.ofProgram p).1
        (Lower.Context.ofSymbols (Symbols.ofProgram p).1).omitted ∧
      ∀ omitted, Lower.Solves (Symbols.ofProgram p).1 omitted →
        Lower.all ⟨(Symbols.ofProgram p).1, omitted⟩ p c {} =
          Lower.all (.ofSymbols (Symbols.ofProgram p).1) p c {} := by
  have hall : ∀ omitted, Lower.Solves (Symbols.ofProgram p).1 omitted →
      Lower.Agree p (Symbols.ofProgram p).1.externalDefaults.length
        (Lower.all (.ofSymbols (Symbols.ofProgram p).1) p c)
        (Lower.all ⟨(Symbols.ofProgram p).1, omitted⟩ p c) :=
    fun omitted homitted => (Lower.all_orderly p c).agree
      (fun formal v hv => homitted.agree hv) (Lower.omittedDefault_retains _ _)
  have hsolves := Lower.solves_ofSymbols p
  refine ⟨fun h => ?_, hsolves, fun omitted homitted => ?_⟩
  · obtain ⟨s, hs⟩ := build_error_iff.1 h
    exact (hall _ hsolves {} (List.length_filter_le _ _)).2 s hs
  · exact (hall omitted homitted {} (List.length_filter_le _ _)).1.symm

end Document

/-- An imported function whose parameter can be left out. Its default value is a call of the function
that leaves it out again. -/
def Sample.selfReferring : Program where
  scopes :=
    [.import_ ⟨"Base",
      [.function ⟨.function, [], "Pick", ⟨1⟩,
        [⟨[], "other", ⟨"int", []⟩, ⟨2⟩,
          some ⟨.call ⟨"Pick", [], some ⟨"0", ⟨2⟩⟩⟩, some ⟨"0", ⟨1⟩⟩⟩, some ⟨"Base", ⟨2⟩⟩⟩],
        ⟨"int", []⟩, some ⟨"Base", ⟨1⟩⟩⟩]⟩,
    .library ⟨"Main",
      [.variable ⟨[], ⟨"int", []⟩, "picked",
        ⟨.call ⟨"Pick", [], some ⟨"Main", ⟨3⟩⟩⟩, some ⟨"Main", ⟨2⟩⟩⟩, some ⟨"Main", ⟨1⟩⟩⟩]⟩]

-- the default value is made once, and the call in it refers to it
example : ((Document.build Sample.selfReferring ⟨[]⟩).start.1.toOption.map fun tree =>
    ((tree.sectionElements "0").length, (tree.sectionElements "Main").length)) = some (2, 3) := by
  decide +kernel

end TriggerScript
