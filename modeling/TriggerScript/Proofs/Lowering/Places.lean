import Mathlib.Data.List.Nodup
import TriggerScript.Proofs.Document.Contents
import TriggerScript.Proofs.Lowering.Orderly

/-!
# Places that are reserved and filled

An account of a computation lists the places that it reserves and fills, in order
(`Lower.Takes`). Since lowering is done in good order, such accounts are nested like brackets: what is
filled is the place that was reserved last of those that are still open. So each place is filled at most
once, and it is there and open when it is filled. If lowering succeeds then no place is left open.

None of this depends on what stands in the slots of a program or a catalog. The main result is
`Document.places_filled_once`.
-/

namespace TriggerScript

/-- Something that is done with a place of a library. -/
inductive PlaceStep where
  | reserve (library : String) (place : Nat)
  | fill (library : String) (place : Nat)
deriving Repr, DecidableEq

namespace PlaceStep

/-- The places that are open behind a step, the latest first. Only the latest can be filled. -/
def next? (opened : List (String × Nat)) : PlaceStep → Option (List (String × Nat))
  | .reserve library place => some ((library, place) :: opened)
  | .fill library place =>
    match opened with
    | [] => none
    | latest :: outer => if latest = (library, place) then some outer else none

/-- The place that a step reserves. -/
def reserved? : PlaceStep → Option (String × Nat)
  | .reserve library place => some (library, place)
  | .fill _ _ => none

/-- The place that a step fills. -/
def filled? : PlaceStep → Option (String × Nat)
  | .reserve _ _ => none
  | .fill library place => some (library, place)

/-- What is reserved by steps in front of which a place is reserved and behind which it is filled. -/
lemma filterMap_reserved?_around (library : String) (place : Nat) (steps : List PlaceStep) :
    ([reserve library place] ++ (steps ++ ([fill library place] ++ []))).filterMap reserved? =
      (library, place) :: steps.filterMap reserved? := by
  rw [List.filterMap_append, List.filterMap_append]
  exact congrArg _ (List.append_nil _)

/-- In a nested account, what is filled or still open is what has been reserved. -/
lemma perm_of_nested {steps : List PlaceStep} {opened left : List (String × Nat)}
    (h : steps.foldlM next? opened = some left) :
    (steps.filterMap filled? ++ left).Perm (steps.filterMap reserved? ++ opened) := by
  induction steps generalizing opened with
  | nil =>
    obtain ⟨rfl⟩ := h
    exact .refl _
  | cons step rest ih =>
    rw [List.foldlM_cons, Option.bind_eq_bind, Option.bind_eq_some_iff] at h
    obtain ⟨opened', hstep, hrest⟩ := h
    cases step with
    | reserve library place =>
      obtain ⟨rfl⟩ := hstep
      exact (ih hrest).trans List.perm_middle
    | fill library place =>
      rcases opened with _ | ⟨latest, outer⟩
      · cases hstep
      · rw [next?] at hstep
        split_ifs at hstep with hlatest
        obtain ⟨rfl⟩ := hstep
        subst hlatest
        exact ((ih hrest).cons _).trans List.perm_middle.symm

/-- In a nested account no place is filled twice if none is reserved twice. -/
lemma nodup_filled_of_nested {steps : List PlaceStep} {left : List (String × Nat)}
    (h : steps.foldlM next? [] = some left) (hreserved : (steps.filterMap reserved?).Nodup) :
    (steps.filterMap filled?).Nodup := by
  have hperm := perm_of_nested h
  rw [List.append_nil] at hperm
  exact (hperm.nodup_iff.2 hreserved).of_append_left

end PlaceStep

namespace Lower

variable {α β : Type} {steps : List PlaceStep} {left : List (String × Nat)} {library : String}

/-- The run of a computation from a state does this with places, one after the other. A place that is
filled is open. Elements that are added at the end of a library at once have no places before. -/
inductive Takes : {α : Type} → Lower α → LowerState → List PlaceStep → Prop
  | quiet {α : Type} {x : Lower α} {s : LowerState}
      (hplaces : ∀ l, (after x s).pools.places l = s.pools.places l) : Takes x s []
  | append (library : String) (elements : List Node) (s : LowerState) :
      Takes (append library elements) s []
  | reserve (library : String) (s : LowerState) :
      Takes (reserve library) s [.reserve library (s.pools.nextPlace library)]
  | fill {library : String} {place : Nat} (element : Node) {s : LowerState}
      (hopen : s.pools.isOpen library place) :
      Takes (fill library place element) s [.fill library place]
  | bind {α β : Type} {x : Lower α} {f : α → Lower β} {s s₁ : LowerState} {a : α}
      {steps steps' : List PlaceStep} (hx : Takes x s steps) (ha : x s = .ok a s₁)
      (hf : Takes (f a) s₁ steps') : Takes (x >>= f) s (steps ++ steps')
  | stop {α β : Type} {x : Lower α} {f : α → Lower β} {s s₁ : LowerState} {e : LoweringError}
      {steps : List PlaceStep} (hx : Takes x s steps) (he : x s = .error e s₁) :
      Takes (x >>= f) s steps
  | rescoped {α : Type} {enter : LexicalScope → LexicalScope}
      {leave : LexicalScope → LexicalScope → LexicalScope} {run : Lower α} {s : LowerState}
      {steps : List PlaceStep} (hrun : Takes run { s with scope := enter s.scope } steps) :
      Takes (rescoped enter leave run) s steps

/-- An account of a computation that is in order. Its steps are nested, and `left` are the places that
are still open behind them. What it reserves is new, and the places before it stay as they were. If the
computation succeeds then nothing is left open and all new places are filled. If it fails then not
because a place is not open. -/
structure Account (x : Lower α) (s : LowerState) (steps : List PlaceStep)
    (left : List (String × Nat)) : Prop where
  takes : Takes x s steps
  nested : ∀ opened, steps.foldlM PlaceStep.next? opened = some (left ++ opened)
  fresh : ∀ place ∈ steps.filterMap PlaceStep.reserved?,
    (s.pools.places place.1).length ≤ place.2 ∧
      place.2 < ((after x s).pools.places place.1).length
  nodup : (steps.filterMap PlaceStep.reserved?).Nodup
  grows : ∀ l, s.pools.places l <+: (after x s).pools.places l
  ok : ∀ a s', x s = .ok a s' → left = [] ∧
    ∀ l, ∃ elements : List Node, s'.pools.places l = s.pools.places l ++ elements.map some
  error : ∀ e s', x s = .error e s' → ∀ library place, e ≠ .placeTaken library place

/-- An account is one of any computation that takes the same steps with the same outcome. -/
lemma Account.of_takes {x : Lower α} {y : Lower β} {s t : LowerState} (h : Account x s steps left)
    (htakes : Takes y t steps) (hbefore : t.pools = s.pools)
    (hafter : (after y t).pools = (after x s).pools)
    (hok : ∀ b t', y t = .ok b t' → ∃ a s', x s = .ok a s')
    (herror : ∀ e t', y t = .error e t' → ∃ s', x s = .error e s') : Account y t steps left where
  takes := htakes
  nested := h.nested
  fresh := by
    rw [hbefore, hafter]
    exact h.fresh
  nodup := h.nodup
  grows := by
    rw [hbefore, hafter]
    exact h.grows
  ok b t' hb := by
    obtain ⟨a, s', ha⟩ := hok b t' hb
    rw [after_of_ok hb, after_of_ok ha] at hafter
    rw [hbefore, hafter]
    exact h.ok a s' ha
  error e t' he := by
    obtain ⟨s', hs'⟩ := herror e t' he
    exact h.error e s' hs'

/-- A computation of which there is an account from each state. -/
def Accounted (x : Lower α) : Prop :=
  ∀ s, ∃ steps left, Account x s steps left

namespace Accounted

/-- A step that leaves places alone. -/
lemma of_places {x : Lower α} (hplaces : ∀ s l, (after x s).pools.places l = s.pools.places l)
    (herror : ∀ s e s', x s = .error e s' → ∀ library place, e ≠ .placeTaken library place) :
    Accounted x := by
  intro s
  refine ⟨[], [], .quiet (hplaces s), fun _ => rfl, by simp, by simp, fun l => ?_, ?_, herror s⟩
  · exact (hplaces s l).symm ▸ List.prefix_rfl
  · intro a s' h
    refine ⟨rfl, fun l => ⟨[], ?_⟩⟩
    rw [← after_of_ok h, hplaces, List.map_nil, List.append_nil]

lemma quiet {x : Lower α} (hx : Quiet x) : Accounted x := by
  refine of_places hx.places fun s e s' h library place he => ?_
  exact hx.input s e s' h (he ▸ trivial)

lemma append (library : String) (elements : List Node) : Accounted (append library elements) := by
  intro s
  have hplaces : ∀ l, ∃ more : List Node,
      (s.pools.append library elements).places l = s.pools.places l ++ more.map some := by
    intro l
    rw [Pools.places_append]
    split_ifs
    · exact ⟨elements, rfl⟩
    · exact ⟨[], by simp⟩
  refine ⟨[], [], .append library elements s, fun _ => rfl, by simp, by simp, fun l => ?_, ?_, ?_⟩
  · obtain ⟨more, hmore⟩ := hplaces l
    exact ⟨_, hmore.symm⟩
  · rintro a s' h
    rw [append_ok_iff] at h
    subst h
    exact ⟨rfl, hplaces⟩
  · intro e s' h
    cases h

lemma bind {x : Lower α} {f : α → Lower β} (hx : Accounted x) (hf : ∀ a, Accounted (f a)) :
    Accounted (x >>= f) := by
  intro s
  obtain ⟨steps, left, h⟩ := hx s
  rcases hrun : x s with ⟨a, s₁⟩ | ⟨e, s₁⟩
  · obtain ⟨rfl, helements⟩ := h.ok a s₁ hrun
    obtain ⟨steps', left', h'⟩ := hf a s₁
    have hafter : after x s = s₁ := after_of_ok hrun
    have hafter' : after (x >>= f) s = after (f a) s₁ := after_bind_of_ok hrun
    have hfresh := h.fresh
    have hgrows := h.grows
    rw [hafter] at hfresh hgrows
    refine ⟨steps ++ steps', left', .bind h.takes hrun h'.takes, fun opened => ?_, ?_, ?_, ?_, ?_, ?_⟩
    · rw [List.foldlM_append, h.nested, Option.bind_eq_bind, Option.bind_some, h'.nested,
        List.nil_append]
    · rw [List.filterMap_append, List.forall_mem_append, hafter']
      constructor
      · intro place hplace
        have hlength := (h'.grows place.1).length_le
        have hplace := hfresh place hplace
        omega
      · intro place hplace
        have hlength := (hgrows place.1).length_le
        have hplace := h'.fresh place hplace
        omega
    · rw [List.filterMap_append, List.nodup_append]
      refine ⟨h.nodup, h'.nodup, ?_⟩
      rintro place hplace _ hplace' rfl
      have hlt := (hfresh place hplace).2
      have hle := (h'.fresh place hplace').1
      omega
    · rw [hafter']
      exact fun l => (hgrows l).trans (h'.grows l)
    · intro b s' hb
      rw [bind_of_ok hrun] at hb
      obtain ⟨hleft, helements'⟩ := h'.ok b s' hb
      refine ⟨hleft, fun l => ?_⟩
      obtain ⟨elements, hl⟩ := helements l
      obtain ⟨elements', hl'⟩ := helements' l
      exact ⟨elements ++ elements', by rw [hl', hl, List.map_append, List.append_assoc]⟩
    · intro e s' he
      rw [bind_of_ok hrun] at he
      exact h'.error e s' he
  · have hresult : (x >>= f) s = .error e s₁ := bind_of_error hrun
    refine ⟨steps, left, h.of_takes (.stop h.takes hrun) rfl ?_ (fun b s' hb => ?_) fun e' s' he => ?_⟩
    · rw [after_of_error hresult, after_of_error hrun]
    · rw [hresult] at hb
      cases hb
    · rw [hresult] at he
      obtain ⟨rfl, -⟩ := EStateM.Result.error.inj he
      exact ⟨s₁, hrun⟩

lemma rescoped {enter : LexicalScope → LexicalScope}
    {leave : LexicalScope → LexicalScope → LexicalScope} {run : Lower α} (hrun : Accounted run) :
    Accounted (rescoped enter leave run) := by
  intro s
  obtain ⟨steps, left, h⟩ := hrun { s with scope := enter s.scope }
  refine ⟨steps, left, h.of_takes (.rescoped h.takes) rfl ?_ (fun b s' hb => ?_) fun e s' he => ?_⟩ <;>
    rcases hx : run { s with scope := enter s.scope } with ⟨a, s₁⟩ | ⟨e₁, s₁⟩
  · rw [after_of_ok (rescoped_of_ok hx), after_of_ok hx]
  · rw [after_of_error (rescoped_of_error hx), after_of_error hx]
  · exact ⟨a, s₁, rfl⟩
  · rw [rescoped_of_error hx] at hb
    cases hb
  · rw [rescoped_of_ok hx] at he
    cases he
  · rw [rescoped_of_error hx] at he
    obtain ⟨rfl, -⟩ := EStateM.Result.error.inj he
    exact ⟨s₁, rfl⟩

end Accounted

/-- What is reserved in front of a computation is new, like what the computation reserves itself. -/
lemma Account.fresh_cons {run : Lower α} {s : LowerState}
    (h : Account run (reserving library s) steps left) :
    (∀ place ∈ (library, s.pools.nextPlace library) :: steps.filterMap PlaceStep.reserved?,
      (s.pools.places place.1).length ≤ place.2 ∧
        place.2 < ((after run (reserving library s)).pools.places place.1).length) ∧
      ((library, s.pools.nextPlace library) :: steps.filterMap PlaceStep.reserved?).Nodup ∧
      ∀ l, s.pools.places l <+: (after run (reserving library s)).pools.places l := by
  have hgrows : ∀ l, s.pools.places l <+: (reserving library s).pools.places l := by
    intro l
    rw [reserving, Pools.places_reserve]
    split_ifs
    · exact List.prefix_append _ _
    · exact List.prefix_rfl
  have hlength : ((reserving library s).pools.places library).length =
      s.pools.nextPlace library + 1 := by
    rw [reserving, Pools.places_reserve, if_pos rfl, Pools.nextPlace_eq]
    simp
  refine ⟨List.forall_mem_cons.2 ⟨⟨?_, ?_⟩, fun place hplace => ?_⟩,
    List.nodup_cons.2 ⟨fun hmem => ?_, h.nodup⟩, fun l => (hgrows l).trans (h.grows l)⟩
  · exact (Pools.nextPlace_eq _ _).ge
  · have hle := (h.grows library).length_le
    rw [hlength] at hle
    exact hle
  · have hle := (hgrows place.1).length_le
    have hfresh := h.fresh place hplace
    omega
  · have hle := (h.fresh _ hmem).1
    rw [hlength] at hle
    exact Nat.not_succ_le_self _ hle

/-- A place that is reserved in front of a computation is open behind it. If it is filled then it stands
in front of what has been added. -/
lemma isOpen_and_places_fill {s s₁ : LowerState} (h : ∀ l, ∃ elements : List Node,
      s₁.pools.places l = (reserving library s).pools.places l ++ elements.map some) (n : Node) :
    s₁.pools.isOpen library (s.pools.nextPlace library) ∧
      ∀ l, ∃ elements : List Node,
        (s₁.pools.fill library (s.pools.nextPlace library) n).places l =
          s.pools.places l ++ elements.map some := by
  constructor
  · obtain ⟨elements, helements⟩ := h library
    rw [Pools.isOpen_iff, helements, reserving, Pools.places_reserve, if_pos rfl, Pools.nextPlace_eq]
    simp
  · intro l
    obtain ⟨elements, helements⟩ := h l
    rw [Pools.places_fill, helements, reserving, Pools.places_reserve]
    by_cases hl : l = library
    · subst hl
      refine ⟨n :: elements, ?_⟩
      simp [Pools.nextPlace_eq]
    · exact ⟨elements, by rw [if_neg hl, if_neg hl]⟩

lemma Accounted.placed (library : String) (element : α → Node) {run : Lower α}
    (hrun : Accounted run) : Accounted (placed library element run) := by
  intro s
  have hreserve := reserve_eq_ok library s
  obtain ⟨steps, left, h⟩ := hrun (reserving library s)
  obtain ⟨hfresh, hnodup, hgrows⟩ := h.fresh_cons
  rcases hx : run (reserving library s) with ⟨a, s₁⟩ | ⟨e, s₁⟩
  -- the place is filled behind the computation
  · obtain ⟨rfl, helements⟩ := h.ok a s₁ hx
    obtain ⟨hopen, hfilled⟩ := isOpen_and_places_fill helements (element a)
    have hresult := placed_of_ok element hx hopen
    have hlength : ∀ l, ((after (Lower.placed library element run) s).pools.places l).length =
        ((after run (reserving library s)).pools.places l).length := by
      intro l
      rw [after_of_ok hresult, after_of_ok hx, Pools.places_fill]
      split_ifs
      · rw [List.length_set]
      · rfl
    refine ⟨_, [], .bind (.reserve library s) hreserve (.bind h.takes hx
      (.bind (a := ()) (.fill (element a) hopen) (fill_ok_iff.2 ⟨hopen, rfl⟩) (.quiet fun _ => rfl))),
      fun opened => ?_, ?_, ?_, fun l => ?_, fun b s' hb => ?_, fun e s' he => ?_⟩
    · simp [List.foldlM_append, h.nested, PlaceStep.next?]
    · simp only [PlaceStep.filterMap_reserved?_around, hlength]
      exact hfresh
    · rw [PlaceStep.filterMap_reserved?_around]
      exact hnodup
    · obtain ⟨elements, hplaces⟩ := hfilled l
      rw [after_of_ok hresult, hplaces]
      exact List.prefix_append _ _
    · rw [hresult] at hb
      obtain ⟨-, rfl⟩ := EStateM.Result.ok.inj hb
      exact ⟨rfl, hfilled⟩
    · rw [hresult] at he
      cases he
  -- the place is left open
  · have hresult := placed_of_error element hx
    have hafter : after (Lower.placed library element run) s = after run (reserving library s) := by
      rw [after_of_error hresult, after_of_error hx]
    refine ⟨_, left ++ [(library, s.pools.nextPlace library)],
      .bind (.reserve library s) hreserve (.stop h.takes hx), fun opened => ?_, ?_, ?_, ?_,
      fun b s' hb => ?_, fun e' s' he => ?_⟩
    · simp [h.nested, PlaceStep.next?]
    · rw [hafter]
      exact hfresh
    · exact hnodup
    · rw [hafter]
      exact hgrows
    · rw [hresult] at hb
      cases hb
    · rw [hresult] at he
      obtain ⟨rfl, -⟩ := EStateM.Result.error.inj he
      exact h.error e s₁ hx

/-- There is an account of what is done in good order if there is one of what makes the default values
that are left out. -/
lemma Orderly.accounted {symbols : Symbols} {run : Omitted → Lower α} (h : Orderly symbols run)
    {omitted : Omitted} (homitted : ∀ formal v, Accounted (omitted formal v)) :
    Accounted (run omitted) := by
  induction h with
  | quiet hx => exact .quiet hx
  | append library elements => exact .append library elements
  | omitted formal hv => exact homitted formal _
  | bind _ _ ihrun ihnext => exact ihrun.bind ihnext
  | rescoped enter leave _ ihrun => exact ihrun.rescoped
  | placed library element _ ihrun => exact ihrun.placed library element

lemma omittedDefault_accounted (symbols : Symbols) (budget : Nat) (formal : Formal) (v : Value) :
    Accounted (omittedDefault symbols budget formal v) := by
  induction budget generalizing formal v with
  | zero =>
    rw [omittedDefault]
    refine .bind (.quiet (.allocated v.allocation)) fun a => .bind (.quiet (.begin a)) fun fresh => ?_
    cases fresh
    · exact .quiet (.pure a)
    · refine .of_places (fun _ _ => rfl) fun s e s' h library place => ?_
      obtain ⟨rfl, -⟩ := EStateM.Result.error.inj h
      exact LoweringError.noConfusion
  | succ budget ih =>
    rw [omittedDefault_succ]
    exact (defaultStep_orderly formal v).accounted ih

end Lower

namespace Document

/-- Places are filled once. Whatever the slots of a program and a catalog hold, lowering them takes
steps with places that are nested: what is filled is the latest place that has been reserved and is
still open. Each place that is filled is there and open, no place is filled twice, and lowering never
fails because a place is not open. If the document is built then nothing is left open: each place of
each library holds an element. -/
theorem places_filled_once (p : Program) (c : Catalog) :
    ∃ steps left,
      Lower.Takes (Lower.all (.ofSymbols (Symbols.ofProgram p).1) p c) {} steps ∧
      steps.foldlM PlaceStep.next? [] = some left ∧
      (steps.filterMap PlaceStep.filled?).Nodup ∧
      (∀ library place, (build p c).start.1 ≠ .error (.placeTaken library place)) ∧
      ∀ tree, (build p c).start.1 = .ok tree → left = [] ∧
        ∃ s, Lower.all (.ofSymbols (Symbols.ofProgram p).1) p c {} = .ok () s ∧
          tree = ofPools s.pools ∧ ∀ library, none ∉ s.pools.places library := by
  obtain ⟨steps, left, h⟩ := (Lower.all_orderly p c).accounted
    (Lower.omittedDefault_accounted (Symbols.ofProgram p).1 _) {}
  have hnested := h.nested []
  rw [List.append_nil] at hnested
  refine ⟨steps, left, h.takes, hnested, PlaceStep.nodup_filled_of_nested hnested h.nodup, ?_, ?_⟩
  · intro library place hbuild
    obtain ⟨s, hs⟩ := build_error_iff.1 hbuild
    exact h.error _ s hs library place rfl
  · intro tree hbuild
    obtain ⟨u, s, hs, rfl⟩ := build_ok_iff.1 hbuild
    obtain ⟨hleft, hplaces⟩ := h.ok u s hs
    refine ⟨hleft, s, hs, rfl, fun library => ?_⟩
    obtain ⟨elements, helements⟩ := hplaces library
    rw [helements]
    simp [Pools.places, Pools.pool, Pools.get?]

end Document

end TriggerScript
