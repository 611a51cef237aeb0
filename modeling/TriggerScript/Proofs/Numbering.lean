import Mathlib.Tactic.Common
import TriggerScript.Compilation
import TriggerScript.Proofs.Names
import TriggerScript.Proofs.Walk.Tours

/-!
# Numbered trees

An allocator fills the slots of a tree one after the other, each with the next id of a library. So
no allocation stands in two slots, and the ids that stand in the slots of a library are those that
its counter has passed.

The main definition is `Allocated`: a program and a catalog whose slots one fresh allocator has
filled. The main result is `Allocated.numbered`, which says what their slots hold.
-/

namespace TriggerScript

namespace Counters

/-- How far a library has counted. -/
def count (c : Counters) (library : String) : Nat :=
  ((c.get? library).getD base).toNat

/-- Whether an id has been handed out in a library. -/
def Issued (c : Counters) (library : String) (id : ElementId) : Prop :=
  base.toNat < id.val.toNat ∧ id.val.toNat ≤ c.count library

lemma lookup_setEntry (library l : String) (n : UInt32) (entries : List (String × UInt32)) :
    (setEntry library n entries).lookup l = if l = library then some n else entries.lookup l := by
  induction entries with
  | nil =>
    rw [setEntry, List.lookup_cons]
    by_cases hl : l = library
    · simp [hl]
    · rw [beq_false_of_ne hl, if_neg hl]
  | cons entry rest ih =>
    obtain ⟨k, m⟩ := entry
    rw [setEntry]
    by_cases hlt : library < k
    · rw [if_pos hlt, List.lookup_cons]
      by_cases hl : l = library
      · simp [hl]
      · rw [beq_false_of_ne hl, if_neg hl]
    · rw [if_neg hlt]
      by_cases heq : library = k
      · rw [if_pos heq, List.lookup_cons, List.lookup_cons, heq]
        by_cases hl : l = k
        · simp [hl]
        · rw [beq_false_of_ne hl, if_neg hl]
      · rw [if_neg heq, List.lookup_cons, List.lookup_cons, ih]
        by_cases hl : l = library
        · rw [if_pos hl, if_pos hl, hl, beq_false_of_ne heq]
        · rw [if_neg hl, if_neg hl]

lemma get?_set (c : Counters) (library l : String) (n : UInt32) :
    (c.set library n).get? l = if l = library then some n else c.get? l :=
  lookup_setEntry library l n c.entries

/-- The next id is one more than the counter, which moves on to it. -/
lemma next_ok {c c' : Counters} {library : String} {id : ElementId}
    (h : c.next library = .ok (id, c')) :
    id.val.toNat = c.count library + 1 ∧
      ∀ l, c'.count l = if l = library then c.count library + 1 else c.count l := by
  rw [next] at h
  split_ifs at h with hlt
  · simp only [Except.ok.injEq, Prod.mk.injEq] at h
    obtain ⟨rfl, rfl⟩ := h
    have hval : ((c.get? library).getD base + 1).toNat = c.count library + 1 := by
      rw [UInt32.toNat_add, count]
      exact Nat.mod_eq_of_lt hlt
    refine ⟨hval, fun l => ?_⟩
    rw [count, get?_set]
    split_ifs with hl
    · exact hval
    · rfl

lemma count_empty (library : String) : count .empty library = base.toNat :=
  rfl

end Counters

/-- The slots hold, in order, ids that counters hand out one after the other. -/
inductive Issues : Counters → List Slot → Counters → Prop
  | nil (c : Counters) : Issues c [] c
  | cons {c c₁ c₂ : Counters} {slot : Slot} {rest : List Slot} {a : Allocation}
      (hslot : slot.allocation = some a) (hnext : c.next a.library = .ok (a.id, c₁))
      (hrest : Issues c₁ rest c₂) : Issues c (slot :: rest) c₂

namespace Issues

variable {c c₁ c₂ : Counters} {slots slots' : List Slot}

lemma append (h : Issues c slots c₁) (h' : Issues c₁ slots' c₂) : Issues c (slots ++ slots') c₂ := by
  induction h with
  | nil => exact h'
  | cons hslot hnext _ ih => exact .cons hslot hnext (ih h')

lemma count_le (h : Issues c slots c₁) (library : String) : c.count library ≤ c₁.count library := by
  induction h with
  | nil => exact Nat.le_refl _
  | cons hslot hnext hrest ih =>
    have hcount := (Counters.next_ok hnext).2 library
    split_ifs at hcount with hl
    · subst hl
      omega
    · omega

/-- The ids in the slots of a library are those that its counter passes. -/
lemma mem_iff (h : Issues c slots c₁) (a : Allocation) :
    some a ∈ slots.map Slot.allocation ↔
      c.count a.library < a.id.val.toNat ∧ a.id.val.toNat ≤ c₁.count a.library := by
  induction h with
  | nil c =>
    simp only [List.map_nil, List.not_mem_nil, false_iff]
    omega
  | @cons c c₁ c₂ slot rest b hslot hnext hrest ih =>
    obtain ⟨hid, hcount⟩ := Counters.next_ok hnext
    have hle := hrest.count_le a.library
    rw [List.map_cons, List.mem_cons, ih, hslot, Option.some.injEq]
    by_cases hl : a.library = b.library
    · have hc := hcount a.library
      rw [if_pos hl] at hc
      rw [hl] at hc hle ⊢
      have heq : a = b ↔ a.id.val.toNat = b.id.val.toNat := by
        constructor
        · rintro rfl
          rfl
        · intro hval
          obtain ⟨la, ⟨ia⟩⟩ := a
          obtain ⟨lb, ⟨ib⟩⟩ := b
          simp only at hl hval
          rw [hl, UInt32.toNat_inj.1 hval]
      rw [heq]
      omega
    · have hc := hcount a.library
      rw [if_neg hl] at hc
      have hne : a ≠ b := fun hab => hl (by rw [hab])
      simp only [hne, false_or, hc]

/-- No allocation stands in two slots. -/
lemma nodup (h : Issues c slots c₁) : (slots.map Slot.allocation).Nodup := by
  induction h with
  | nil => exact List.nodup_nil
  | @cons c c₁ c₂ slot rest a hslot hnext hrest ih =>
    rw [List.map_cons, List.nodup_cons]
    refine ⟨?_, ih⟩
    rw [hslot, hrest.mem_iff]
    obtain ⟨hid, hcount⟩ := Counters.next_ok hnext
    have hc := hcount a.library
    rw [if_pos rfl] at hc
    omega

end Issues

/-- The slots are filled, with ids of one library. -/
def Within (library : String) (slots : List Slot) : Prop :=
  ∀ slot ∈ slots, ∃ a, slot.allocation = some a ∧ a.library = library

/-- Along its way an allocator hands out ids one after the other. -/
lemma Walks.issues {s s' : Allocating} {stops : List Stop} (h : Walks s stops s') :
    Issues s.ids ((sitesOf stops).map Site.slot) s'.ids := by
  induction h with
  | nil s => exact .nil s.ids
  | node hnext hsite _ ih => exact .cons hsite hnext ih
  | heading _ ih => exact ih

/-- Nodes that have been visited have been given ids of the library. -/
lemma Walks.within {s s' : Allocating} {stops : List Stop} (h : Walks s stops s') {library : String}
    {sites : List Site} (hsites : sites.map (.node library) ⊆ stops) :
    Within library (sites.map Site.slot) := by
  intro slot hslot
  obtain ⟨site, hsite, rfl⟩ := List.mem_map.1 hslot
  obtain ⟨id, hid⟩ := h.allocation_of_mem (hsites (List.mem_map_of_mem hsite))
  exact ⟨_, hid, rfl⟩

/-! ## Programs -/

/-- An imported entity is bound to the ids that the program gives, in the library that it is imported
from. -/
def ExternalDefinition.BoundTo (library : String) : ExternalDefinition → Prop
  | .preset d => ∀ m ∈ d.members, m.allocation = some ⟨library, m.id⟩
  | .function d =>
    d.allocation = some ⟨library, d.id⟩ ∧ ∀ q ∈ d.params, q.allocation = some ⟨library, q.id⟩
  | .variable d => d.allocation = some ⟨library, d.id⟩

/-- The slots of a section are filled: imported entities are bound, with default values in the default
library, and definitions are in the library of the section. -/
def Scope.Filled : Scope → Prop
  | .import_ s =>
    ∀ e ∈ s.definitions, e.BoundTo s.library ∧ Within defaultLibrary (e.jobs.flatMap Job.slots)
  | .library s => ∀ d ∈ s.definitions, Within s.library d.slots

namespace Allocate

variable {library : String} {s s' : Allocating}

lemma external_boundTo {e e' : ExternalDefinition} (h : external library e s = .ok e' s') :
    e'.BoundTo library := by
  rcases e with d | d | d
  · obtain ⟨rfl, rfl⟩ := pure_ok_iff.1 h
    intro m hm
    obtain ⟨m₀, -, rfl⟩ := List.mem_map.1 hm
    rfl
  · simp only [external, bind_ok_iff, pure_ok_iff] at h
    obtain ⟨params, s₁, hparams, rfl, rfl⟩ := h
    refine ⟨rfl, forall_of_mapM_ok (fun q q' s s' hq => ?_) hparams⟩
    simp only [externalParam, bind_ok_iff, pure_ok_iff] at hq
    obtain ⟨v, s₁, hv, rfl, rfl⟩ := hq
    rfl
  · obtain ⟨rfl, rfl⟩ := pure_ok_iff.1 h
    rfl

/-- The slots of a section are filled by walking over it. -/
lemma scope_filled {sc sc' : Scope} (h : scope sc s = .ok sc' s') : sc'.Filled := by
  have hwalks := (scope_tours h).walks
  rcases sc with i | l <;> simp only [scope, bind_ok_iff, pure_ok_iff] at h
  · obtain ⟨definitions, s₁, hdefinitions, rfl, rfl⟩ := h
    intro x hx
    refine ⟨forall_of_mapM_ok (fun _ _ _ _ => external_boundTo) hdefinitions x hx, ?_⟩
    rw [List.flatMap_congr fun job _ => job.slots_eq, ← List.map_flatMap, x.jobs_sites]
    exact hwalks.within fun stop hstop => List.mem_flatMap.2 ⟨x, hx, hstop⟩
  · obtain ⟨definitions, s₁, hdefinitions, rfl, rfl⟩ := h
    intro d hd
    rw [d.slots_eq]
    exact hwalks.within fun stop hstop => List.mem_flatMap.2 ⟨d, hd, hstop⟩

lemma program_ok {p p' : Program} (h : program p s = .ok p' s') :
    Issues s.ids p'.slots s'.ids ∧ ∀ sc ∈ p'.scopes, sc.Filled := by
  obtain ⟨s₁, m, n, htours, -, -, rfl⟩ := program_numbers h
  simp only [program, scopes, bind_ok_iff, pure_ok_iff] at h
  obtain ⟨_, _, -, _, _, ⟨scopes', _, hscopes, rfl, -⟩, _, _, -, rfl, -⟩ := h
  rw [Program.slots_eq]
  exact ⟨htours.walks.issues, forall_of_mapM_ok (fun _ _ _ _ => scope_filled) hscopes⟩

lemma catalog_ok {c c' : Catalog} (h : catalog c s = .ok c' s') :
    Issues s.ids c'.slots s'.ids ∧ ∀ l ∈ c'.libraries, Within l.name (itemsSlots l.items) := by
  obtain ⟨s₁, m, n, htours, -, -, rfl⟩ := catalog_numbers h
  rw [Catalog.slots_eq]
  refine ⟨htours.walks.issues, fun l hl => ?_⟩
  rw [itemsSlots_eq]
  exact htours.walks.within fun stop hstop =>
    List.mem_flatMap.2 ⟨l, hl, List.mem_append_right _ hstop⟩

end Allocate

/-- `p` and `c` are a program and a catalog whose slots one fresh allocator has filled, those of the
program first, and `final` is the state of the allocator behind them. -/
def Allocated (p : Program) (c : Catalog) (final : Allocator) : Prop :=
  ∃ p₀ c₀ a, (({} : Allocator).run (Allocate.program p₀)).start.1 = .ok (p, a) ∧
    (a.run (Allocate.catalog c₀)).start.1 = .ok (c, final)

lemma Allocated.of_runs {p₀ : Program} {c₀ : Catalog} {x : Program × Allocator}
    {y : Catalog × Allocator}
    (hx : (({} : Allocator).run (Allocate.program p₀)).start.1 = .ok x)
    (hy : (x.2.run (Allocate.catalog c₀)).start.1 = .ok y) : Allocated x.1 y.1 y.2 :=
  ⟨p₀, c₀, x.2, hx, hy⟩

/-- What the slots of a program and a catalog hold when counters that end at `ids` have filled
them. -/
structure Numbered (p : Program) (c : Catalog) (ids : Counters) : Prop where
  scopes : ∀ sc ∈ p.scopes, sc.Filled
  folders : ∀ l ∈ c.libraries, Within l.name (itemsSlots l.items)
  issues : Issues .empty (p.slots ++ c.slots) ids

lemma Allocator.run_start_ok {α : Type} {a a' : Allocator} {work : Allocate α} {x : α}
    (h : (a.run work).start.1 = .ok (x, a')) :
    ∃ s, work { a with } = .ok x s ∧ s.toAllocator = a' := by
  obtain ⟨log, hlog⟩ := Run.start_ok_iff.1 h
  rw [Allocator.run] at hlog
  rcases hwork : work { a with } with ⟨y, s⟩ | ⟨e, s⟩
  · simp only [hwork, bind_ok_iff, pure_ok_iff, Prod.mk.injEq] at hlog
    obtain ⟨_, _, _, ⟨rfl, rfl⟩, rfl⟩ := hlog
    exact ⟨s, rfl, rfl⟩
  · simp [hwork, bind_ok_iff, throw_ok_iff] at hlog

theorem Allocated.numbered {p : Program} {c : Catalog} {final : Allocator}
    (h : Allocated p c final) : Numbered p c final.ids := by
  obtain ⟨p₀, c₀, a, hp, hc⟩ := h
  obtain ⟨s, hs, rfl⟩ := Allocator.run_start_ok hp
  obtain ⟨s', hs', rfl⟩ := Allocator.run_start_ok hc
  obtain ⟨hissues, hscopes⟩ := Allocate.program_ok hs
  obtain ⟨hissues', hfolders⟩ := Allocate.catalog_ok hs'
  exact ⟨hscopes, hfolders, hissues.append hissues'⟩

/-! ## What is declared has an allocation -/

/-- Slots that all hold something. -/
def Full (slots : List Slot) : Prop :=
  ∀ slot ∈ slots, slot.allocation.isSome

lemma Within.full {library : String} {slots : List Slot} (h : Within library slots) :
    Full slots := by
  intro slot hslot
  obtain ⟨a, ha, -⟩ := h slot hslot
  rw [ha]
  rfl

lemma Issues.full {c c₁ : Counters} {slots : List Slot} (h : Issues c slots c₁) : Full slots := by
  induction h with
  | nil => exact List.forall_mem_nil _
  | cons hslot _ _ ih =>
    refine List.forall_mem_cons.2 ⟨?_, ih⟩
    rw [hslot]
    rfl

/-- What the names of a program mean has allocations. -/
structure Program.Filled (p : Program) : Prop where
  callable : ∀ {name : String} {f : Callable}, p.callable? name = some f → f.allocation.isSome
  formal : ∀ {name : String} {f : Callable}, p.callable? name = some f →
    ∀ formal ∈ f.formals, formal.allocation.isSome
  default : ∀ {name : String} {f : Callable}, p.callable? name = some f →
    ∀ formal ∈ f.formals, ∀ v, formal.externalDefault = some v → Full v.slots
  global : ∀ {name : String} {g : Global}, p.global? name = some g → g.allocation.isSome

/-- The slots of all sections of a program are filled. -/
def Program.SlotsFilled (p : Program) : Prop :=
  ∀ sc ∈ p.scopes, sc.Filled

namespace Program.SlotsFilled

variable {p : Program}

lemma boundTo (h : p.SlotsFilled) {s : ImportScope} (hs : s ∈ p.imports)
    {x : ExternalDefinition} (hx : x ∈ s.definitions) : x.BoundTo s.library :=
  (h _ (Program.mem_imports.1 hs) x hx).1

lemma definition_within (h : p.SlotsFilled) {s : LibraryScope} (hs : s ∈ p.libraries)
    {d : Definition} (hd : d ∈ s.definitions) : Within s.library d.slots :=
  h _ (Program.mem_libraries.1 hs) d hd

lemma definition_allocation (h : p.SlotsFilled) {s : LibraryScope} (hs : s ∈ p.libraries)
    {d : Definition} (hd : d ∈ s.definitions) :
    ∃ a, d.allocation = some a ∧ a.library = s.library := by
  obtain ⟨slot, rest, hslots, hslot⟩ := (Job.definition d).slots_head
  obtain ⟨a, ha, hlibrary⟩ := h.definition_within hs hd slot (by
    rw [show d.slots = slot :: rest from hslots]
    exact List.mem_cons_self)
  exact ⟨a, hslot.symm.trans ha, hlibrary⟩

/-- What a program imports is bound to ids, and what it defines has been numbered. -/
lemma filled (h : p.SlotsFilled) : p.Filled where
  callable {name f} hf := by
    rcases Program.callable?_cases hf with ⟨s, hs, d, hd, rfl⟩ | ⟨s, hs, d, hd, rfl⟩
    · rw [Callable.allocation, (h.boundTo hs hd).1]
      rfl
    · obtain ⟨a, ha, -⟩ := h.definition_allocation hs hd
      rw [Callable.allocation, show d.allocation = some a from ha]
      rfl
  formal {name f} hf formal hformal := by
    rcases Program.callable?_cases hf with ⟨s, hs, d, hd, rfl⟩ | ⟨s, hs, d, hd, rfl⟩
    · obtain ⟨q, hq, rfl⟩ := List.mem_map.1 hformal
      simp only [(h.boundTo hs hd).2 q hq, Option.isSome_some]
    · obtain ⟨q, hq, rfl⟩ := List.mem_map.1 hformal
      refine (h.definition_within hs hd).full ⟨some .paramDef, q.allocation⟩ ?_
      exact List.mem_cons_of_mem _ (List.mem_append_left _
        (List.mem_flatMap.2 ⟨q, hq, List.mem_cons_self⟩))
  default {name f} hf formal hformal v hv := by
    rcases Program.callable?_cases hf with ⟨s, hs, d, hd, rfl⟩ | ⟨s, hs, d, hd, rfl⟩
    · have hwithin := (h _ (Program.mem_imports.1 hs) _ hd).2
      have hjob : .default formal v ∈ (ExternalDefinition.function d).jobs :=
        List.mem_filterMap.2 ⟨formal, hformal, by rw [hv]; rfl⟩
      exact fun slot hslot => hwithin.full slot (List.mem_flatMap.2 ⟨_, hjob, hslot⟩)
    · obtain ⟨q, -, rfl⟩ := List.mem_map.1 hformal
      simp at hv
  global {name g} hg := by
    rcases Program.global?_cases hg with ⟨s, hs, d, hd, rfl⟩ | ⟨s, hs, d, hd, rfl⟩
    · rw [Global.allocation, show d.allocation = _ from h.boundTo hs hd]
      rfl
    · obtain ⟨a, ha, -⟩ := h.definition_allocation hs hd
      rw [Global.allocation, show d.allocation = some a from ha]
      rfl

end Program.SlotsFilled

namespace Numbered

variable {p : Program} {c : Catalog} {ids : Counters}

lemma slotsFilled (h : Numbered p c ids) : p.SlotsFilled :=
  h.scopes

lemma boundTo (h : Numbered p c ids) {s : ImportScope} (hs : s ∈ p.imports)
    {x : ExternalDefinition} (hx : x ∈ s.definitions) : x.BoundTo s.library :=
  h.slotsFilled.boundTo hs hx

lemma definition_within (h : Numbered p c ids) {s : LibraryScope} (hs : s ∈ p.libraries)
    {d : Definition} (hd : d ∈ s.definitions) : Within s.library d.slots :=
  h.slotsFilled.definition_within hs hd

lemma definition_allocation (h : Numbered p c ids) {s : LibraryScope} (hs : s ∈ p.libraries)
    {d : Definition} (hd : d ∈ s.definitions) :
    ∃ a, d.allocation = some a ∧ a.library = s.library :=
  h.slotsFilled.definition_allocation hs hd

lemma filled (h : Numbered p c ids) : p.Filled :=
  h.slotsFilled.filled

end Numbered

end TriggerScript
