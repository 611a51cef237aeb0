import Mathlib.Data.List.Forall2
import Mathlib.Tactic.Lemma
import TriggerScript.Event

/-!
# Computations that succeed

A computation over a state fails, or it yields a result together with the state behind it. What a
successful computation did is read off by taking it apart at its steps: each step has one lemma that
says when it succeeds and with what, and `bind_ok_iff` joins them.
-/

namespace TriggerScript

variable {ε σ α β : Type} {s s' : σ} {xs : List α} {ys : List β}

/-- Two steps succeed if the first one does and the second one does from where it has left off. -/
lemma bind_ok_iff {x : EStateM ε σ α} {f : α → EStateM ε σ β} {b : β} :
    (x >>= f) s = .ok b s' ↔ ∃ a s₁, x s = .ok a s₁ ∧ f a s₁ = .ok b s' := by
  constructor
  · intro h
    rcases hx : x s with ⟨a, s₁⟩ | ⟨e, s₁⟩
    · exact ⟨a, s₁, rfl, by simpa [bind, EStateM.bind, hx] using h⟩
    · simp [bind, EStateM.bind, hx] at h
  · rintro ⟨a, s₁, hx, hf⟩
    simp [bind, EStateM.bind, hx, hf]

lemma bind_of_ok {x : EStateM ε σ α} {f : α → EStateM ε σ β} {s₁ : σ} {a : α} (h : x s = .ok a s₁) :
    (x >>= f) s = f a s₁ := by
  simp [bind, EStateM.bind, h]

lemma bind_of_error {x : EStateM ε σ α} {f : α → EStateM ε σ β} {s₁ : σ} {e : ε}
    (h : x s = .error e s₁) :
    (x >>= f) s = .error e s₁ := by
  simp [bind, EStateM.bind, h]

lemma pure_ok_iff {a b : α} : (pure a : EStateM ε σ α) s = .ok b s' ↔ a = b ∧ s = s' := by
  simp [pure, EStateM.pure]

lemma throw_ok_iff {e : ε} {b : α} : (throw e : EStateM ε σ α) s = .ok b s' ↔ False := by
  refine ⟨fun h => ?_, False.elim⟩
  have h' : EStateM.Result.error e s = .ok b s' := h
  cases h'

lemma get_ok_iff {b : σ} : (get : EStateM ε σ σ) s = .ok b s' ↔ s = b ∧ s = s' := by
  change EStateM.Result.ok s s = .ok b s' ↔ _
  rw [EStateM.Result.ok.injEq]

lemma set_ok_iff {t : σ} {u : PUnit} : (set t : EStateM ε σ PUnit) s = .ok u s' ↔ t = s' := by
  change EStateM.Result.ok ⟨⟩ t = .ok u s' ↔ _
  simp

lemma modify_ok_iff {f : σ → σ} {u : PUnit} :
    (modify f : EStateM ε σ PUnit) s = .ok u s' ↔ f s = s' := by
  change EStateM.Result.ok ⟨⟩ (f s) = .ok u s' ↔ _
  simp

lemma mapM_nil_ok_iff {f : α → EStateM ε σ β} :
    ([] : List α).mapM f s = .ok ys s' ↔ [] = ys ∧ s = s' := by
  simp [List.mapM_nil, pure_ok_iff]

lemma mapM_cons_ok_iff {f : α → EStateM ε σ β} {x : α} :
    (x :: xs).mapM f s = .ok ys s' ↔
      ∃ y s₁, f x s = .ok y s₁ ∧ ∃ zs, xs.mapM f s₁ = .ok zs s' ∧ y :: zs = ys := by
  simp only [List.mapM_cons, bind_ok_iff, pure_ok_iff]
  constructor
  · rintro ⟨y, s₁, hy, zs, s₂, hzs, rfl, rfl⟩
    exact ⟨y, s₁, hy, zs, hzs, rfl⟩
  · rintro ⟨y, s₁, hy, zs, hzs, rfl⟩
    exact ⟨y, s₁, hy, zs, s', hzs, rfl, rfl⟩

/-- What each step guarantees of its result holds of all results. -/
lemma forall_of_mapM_ok {f : α → EStateM ε σ β} {P : β → Prop}
    (hf : ∀ x y s s', f x s = .ok y s' → P y) :
    ∀ {xs : List α} {ys : List β} {s s' : σ}, xs.mapM f s = .ok ys s' → ∀ y ∈ ys, P y := by
  intro xs
  induction xs with
  | nil =>
    intro ys s s' h
    obtain ⟨rfl, rfl⟩ := mapM_nil_ok_iff.1 h
    simp
  | cons x xs ih =>
    intro ys s s' h
    obtain ⟨y, s₁, hy, zs, hzs, rfl⟩ := mapM_cons_ok_iff.1 h
    simp only [List.mem_cons, forall_eq_or_imp]
    exact ⟨hf x y s s₁ hy, ih hzs⟩

/-- What each step keeps of its argument is kept of all of them. -/
lemma map_eq_of_mapM_ok {γ : Type} {f : α → EStateM ε σ α} {k : α → γ}
    (hf : ∀ x y s s', f x s = .ok y s' → k y = k x) :
    ∀ {xs ys : List α} {s s' : σ}, xs.mapM f s = .ok ys s' → ys.map k = xs.map k := by
  intro xs
  induction xs with
  | nil =>
    intro ys s s' h
    obtain ⟨rfl, rfl⟩ := mapM_nil_ok_iff.1 h
    rfl
  | cons x xs ih =>
    intro ys s s' h
    obtain ⟨y, s₁, hy, zs, hzs, rfl⟩ := mapM_cons_ok_iff.1 h
    rw [List.map_cons, List.map_cons, hf x y s s₁ hy, ih hzs]

/-- A run from the start succeeds if the computation does. -/
lemma Run.start_ok_iff {run : Run ε α} {a : α} :
    run.start.1 = .ok a ↔ ∃ log, run [] = .ok a log := by
  unfold Run.start
  rcases run [] with ⟨b, log⟩ | ⟨e, log⟩ <;> simp

/-- The same for computations without a state. -/
lemma except_bind_ok_iff {x : Except ε α} {f : α → Except ε β} {b : β} :
    (x >>= f) = .ok b ↔ ∃ a, x = .ok a ∧ f a = .ok b := by
  rcases x with e | a <;> simp [bind, Except.bind]

lemma except_map_ok_iff {x : Except ε α} {f : α → β} {b : β} :
    f <$> x = .ok b ↔ ∃ a, x = .ok a ∧ f a = b := by
  cases x <;> simp [Functor.map, Except.map]

/-- A step for each member of a list succeeds if all steps do. -/
lemma except_mapM_ok_iff {f : α → Except ε β} :
    xs.mapM f = .ok ys ↔ List.Forall₂ (fun x y => f x = .ok y) xs ys := by
  induction xs generalizing ys with
  | nil => simp [pure, Except.pure, eq_comm]
  | cons x xs ih =>
    simp only [List.mapM_cons, except_bind_ok_iff, List.forall₂_cons_left_iff]
    constructor
    · rintro ⟨y, hy, zs, hzs, h⟩
      exact ⟨y, zs, hy, ih.1 hzs, (Except.ok.inj h).symm⟩
    · rintro ⟨y, zs, hy, hzs, rfl⟩
      exact ⟨y, hy, zs, ih.2 hzs, rfl⟩

/-- A step that takes apart what another function has put together. -/
lemma except_mapM_ok_iff_eq_map {f : α → Except ε β} {k : β → α} (h : ∀ {x y}, f x = .ok y ↔ x = k y) :
    xs.mapM f = .ok ys ↔ xs = ys.map k := by
  rw [except_mapM_ok_iff]
  simp only [h]
  rw [← List.forall₂_map_right_iff (R := Eq), List.forall₂_eq_eq_eq]

lemma except_bind_error_iff {x : Except ε α} {f : α → Except ε β} {e : ε} :
    (x >>= f) = .error e ↔ x = .error e ∨ ∃ a, x = .ok a ∧ f a = .error e := by
  rcases x with e | a <;> simp [bind, Except.bind]

/-- If a step for each member of a list fails, one of the steps has done so. -/
lemma exists_of_except_mapM_error {f : α → Except ε β} {e : ε} (h : xs.mapM f = .error e) :
    ∃ x ∈ xs, f x = .error e := by
  induction xs with
  | nil => cases h
  | cons x xs ih =>
    rw [List.mapM_cons] at h
    rcases except_bind_error_iff.1 h with hx | ⟨y, -, h⟩
    · exact ⟨x, List.mem_cons_self, hx⟩
    · rcases except_bind_error_iff.1 h with hxs | ⟨ys, -, h⟩
      · obtain ⟨x', hx', hfails⟩ := ih hxs
        exact ⟨x', List.mem_cons_of_mem x hx', hfails⟩
      · cases h

/-- In two lists that belong together, each member of the first belongs to one of the second. -/
lemma exists_of_mem_left {R : α → β → Prop} (h : List.Forall₂ R xs ys) {x : α} (hx : x ∈ xs) :
    ∃ y ∈ ys, R x y := by
  induction h with
  | nil => cases hx
  | cons hxy _ ih =>
    rcases List.mem_cons.1 hx with rfl | hx
    · exact ⟨_, List.mem_cons_self, hxy⟩
    · obtain ⟨y, hy, hR⟩ := ih hx
      exact ⟨y, List.mem_cons_of_mem _ hy, hR⟩

/-- Two lists belong together if a third one belongs to both. -/
lemma forall₂_comp {γ : Type} {R : α → β → Prop} {S : β → γ → Prop} {zs : List γ}
    (h : List.Forall₂ R xs ys) (h' : List.Forall₂ S ys zs) :
    List.Forall₂ (fun x z => ∃ y, R x y ∧ S y z) xs zs := by
  induction h generalizing zs with
  | nil =>
    cases h'
    exact .nil
  | cons hR _ ih =>
    cases h' with
    | cons hS hrest => exact .cons ⟨_, hR, hS⟩ (ih hrest)

/-- What a computation yields that has been seen to succeed. -/
lemma eq_ok_get {x : Except ε α} (h : x.toOption.isSome) : x = .ok (x.toOption.get h) := by
  rcases x with e | a
  · simp [Except.toOption] at h
  · rfl

end TriggerScript
