import TriggerScript.Proofs.Numbering
import TriggerScript.Proofs.Sorted

/-!
# Ids without gaps

A fresh allocator walks over a program and then over a catalog. In each library the nodes on its way get
the ids behind the base, one after the other and without a gap, however the libraries alternate. The
counters tell how many nodes there were.

The main result is `Allocate.ids_contiguous`.
-/

namespace TriggerScript

/-! ## Counters that move on -/

namespace Counters

variable {library : String} {entries : List (String × UInt32)}

/-- No counter is below the base. -/
def Sound (c : Counters) : Prop :=
  ∀ entry ∈ c.entries, base ≤ entry.2

lemma sound_empty : Sound .empty :=
  List.forall_mem_nil _

lemma lookup_eq_none_of_lt (h : ∀ l ∈ entries.map Prod.fst, library < l) :
    entries.lookup library = none := by
  rw [List.lookup_eq_none_iff]
  intro entry hentry
  have hlt := h entry.1 (List.mem_map_of_mem hentry)
  rw [bne_iff_ne]
  rintro rfl
  exact String.lt_irrefl _ hlt

lemma eq_or_mem_of_mem_setEntry {n : UInt32} {entry : String × UInt32}
    (h : entry ∈ setEntry library n entries) : entry.2 = n ∨ entry ∈ entries := by
  induction entries with
  | nil =>
    rw [setEntry, List.mem_singleton] at h
    exact .inl (congrArg Prod.snd h)
  | cons first rest ih =>
    rw [setEntry] at h
    split_ifs at h with hlt heq
    · rcases List.mem_cons.1 h with h | h
      · exact .inl (congrArg Prod.snd h)
      · exact .inr h
    · rcases List.mem_cons.1 h with h | h
      · exact .inl (congrArg Prod.snd h)
      · exact .inr (List.mem_cons_of_mem _ h)
    · rcases List.mem_cons.1 h with h | h
      · exact .inr (h ▸ List.mem_cons_self)
      · exact (ih h).imp_right (List.mem_cons_of_mem _)

/-- A counter that moves on by one adds one to the number of ids. -/
lemma total_setEntry {n : UInt32} (hsorted : (entries.map Prod.fst).Pairwise (· < ·))
    (hbase : ∀ entry ∈ entries, base ≤ entry.2)
    (hn : n.toNat = ((entries.lookup library).getD base).toNat + 1) :
    totalOf (setEntry library n entries) = totalOf entries + 1 := by
  have hcons : ∀ (l : String) (m : UInt32) (rest : List (String × UInt32)),
      totalOf ((l, m) :: rest) = (m.toNat - base.toNat) + totalOf rest := fun _ _ _ => rfl
  induction entries with
  | nil =>
    rw [List.lookup_nil, Option.getD_none] at hn
    rw [setEntry, hcons]
    omega
  | cons entry rest ih =>
    obtain ⟨l, m⟩ := entry
    obtain ⟨hl, hsorted⟩ := List.pairwise_cons.1 hsorted
    obtain ⟨hm, hbase⟩ := List.forall_mem_cons.1 hbase
    have hm : base.toNat ≤ m.toNat := UInt32.le_iff_toNat_le.1 hm
    rw [setEntry]
    split_ifs with hlt heq
    -- the library has no counter yet
    · have hnone : List.lookup library ((l, m) :: rest) = none := by
        refine lookup_eq_none_of_lt fun l' hl' => ?_
        rcases List.mem_cons.1 hl' with rfl | hl'
        · exact hlt
        · exact String.lt_trans hlt (hl l' hl')
      rw [hnone, Option.getD_none] at hn
      rw [hcons]
      omega
    · subst heq
      rw [List.lookup_cons_self, Option.getD_some] at hn
      rw [hcons, hcons]
      omega
    · rw [List.lookup_cons, beq_false_of_ne heq] at hn
      rw [hcons, hcons, ih hsorted hbase hn]
      omega

lemma Sound.base_le_count {c : Counters} (h : c.Sound) (library : String) :
    base.toNat ≤ c.count library := by
  rw [count, get?]
  rcases hlookup : c.entries.lookup library with _ | n
  · exact Nat.le_refl _
  · obtain ⟨before, after, hentries, -⟩ := List.lookup_eq_some_iff.1 hlookup
    have hmem : (library, n) ∈ c.entries := by
      rw [hentries]
      exact List.mem_append_right _ List.mem_cons_self
    exact UInt32.le_iff_toNat_le.1 (h _ hmem)

lemma Sound.next {c c' : Counters} (h : c.Sound) {id : ElementId}
    (hnext : c.next library = .ok (id, c')) : c'.Sound ∧ c'.total = c.total + 1 := by
  obtain ⟨hid, -⟩ := next_ok hnext
  have hbase := h.base_le_count library
  rw [Counters.next] at hnext
  split_ifs at hnext with hlt
  · simp only [Except.ok.injEq, Prod.mk.injEq] at hnext
    obtain ⟨rfl, rfl⟩ := hnext
    refine ⟨fun entry hentry => ?_, total_setEntry c.sorted h hid⟩
    rcases eq_or_mem_of_mem_setEntry hentry with heq | hmem
    · have hval : ((c.get? library).getD base + 1).toNat = c.count library + 1 := hid
      rw [heq, UInt32.le_iff_toNat_le, hval]
      omega
    · exact h entry hmem

lemma issued_eq_total {c : Counters} {n : Nat} (h : c.issued = .ok n) : n = c.total := by
  rw [issued] at h
  split_ifs at h
  · exact (Except.ok.inj h).symm

end Counters

/-! ## Ids on the way -/

/-- The number of stops at which a library hands out an id. -/
def countIn (library : String) (stops : List Stop) : Nat :=
  stops.countP (·.library? = some library)

/-- What stands in the slots of the nodes that get their ids in a library. -/
def numbersIn (library : String) (stops : List Stop) : List (Option (String × Nat)) :=
  (stops.filter (·.library? = some library)).map fun stop =>
    stop.allocation?.map fun a => (a.library, a.id.val.toNat)

/-- What the slots hold does not matter for the number of ids. -/
lemma countIn_eq_of_same {stops stops' : List Stop}
    (h : stops.map Stop.blank = stops'.map Stop.blank) (library : String) :
    countIn library stops = countIn library stops' := by
  have hblank : ∀ stops, countIn library (stops.map Stop.blank) = countIn library stops := by
    intro stops
    rw [countIn, List.countP_map]
    refine List.countP_congr fun stop _ => ?_
    cases stop <;> rfl
  rw [← hblank, h, hblank]

lemma length_sitesOf_eq_of_same {stops stops' : List Stop}
    (h : stops.map Stop.blank = stops'.map Stop.blank) :
    (sitesOf stops).length = (sitesOf stops').length := by
  have hblank : ∀ stops, sitesOf (stops.map Stop.blank) = (sitesOf stops).map Site.blank := by
    intro stops
    rw [sitesOf, sitesOf, List.filterMap_map, List.map_filterMap]
    refine List.filterMap_congr fun stop _ => ?_
    cases stop <;> rfl
  rw [← List.length_map Site.blank, ← hblank, h, hblank, List.length_map]

namespace Walks

variable {s s' : Allocating} {stops : List Stop}

/-- Whatever has been reported before, an allocator takes the same way. -/
lemma exists_of_events (h : Walks s stops s') (events : List Event) :
    ∃ events', Walks { s with events } stops { s' with events := events' } := by
  induction h generalizing events with
  | nil s => exact ⟨events, .nil _⟩
  | node hnext hsite _ ih =>
    obtain ⟨events', hrest⟩ := ih _
    exact ⟨events', .node hnext hsite hrest⟩
  | heading _ ih =>
    obtain ⟨events', hrest⟩ := ih _
    exact ⟨events', .heading hrest⟩

/-- In each library the counter moves on by one at each stop of the library, and it stands in the slot
there. -/
lemma numbersIn_eq (h : Walks s stops s') (library : String) :
    numbersIn library stops = (List.range' (s.ids.count library + 1) (countIn library stops)).map
        (fun n => some (library, n)) ∧
      s'.ids.count library = s.ids.count library + countIn library stops := by
  induction h with
  | nil => exact ⟨rfl, rfl⟩
  | @node s s' l site rest id ids hnext hsite _ ih =>
    obtain ⟨hid, hcount⟩ := Counters.next_ok hnext
    have hids := hcount library
    obtain ⟨hnumbers, hfinal⟩ := ih
    by_cases hl : library = l
    · subst hl
      have hcountIn : countIn library (.node library site :: rest) = countIn library rest + 1 := by
        simp [countIn, Stop.library?]
      have hnumbersIn : numbersIn library (.node library site :: rest) =
          some (library, id.val.toNat) :: numbersIn library rest := by
        simp [numbersIn, Stop.library?, Stop.allocation?, Stop.site?, hsite]
      rw [if_pos rfl] at hids
      refine ⟨?_, ?_⟩
      · rw [hnumbersIn, hcountIn, List.range'_succ, List.map_cons, hnumbers, hid]
        exact congrArg (fun n => _ :: (List.range' (n + 1) _).map _) hids
      · rw [hfinal, hcountIn, Nat.add_comm (countIn library rest), ← Nat.add_assoc]
        exact congrArg (· + countIn library rest) hids
    · have hcountIn : countIn library (.node l site :: rest) = countIn library rest := by
        simp [countIn, Stop.library?, Ne.symm hl]
      have hnumbersIn : numbersIn library (.node l site :: rest) = numbersIn library rest := by
        simp [numbersIn, Stop.library?, Ne.symm hl]
      rw [if_neg hl] at hids
      rw [hnumbersIn, hcountIn, ← hids]
      exact ⟨hnumbers, hfinal⟩
  | heading _ ih => exact ih

/-- The number of ids goes up by one at each node. -/
lemma total_eq (h : Walks s stops s') (hs : s.ids.Sound) :
    s'.ids.Sound ∧ s'.ids.total = s.ids.total + (sitesOf stops).length := by
  induction h with
  | nil => exact ⟨hs, rfl⟩
  | @node s s' l site rest id ids hnext _ _ ih =>
    obtain ⟨hsound, htotal⟩ := hs.next hnext
    obtain ⟨hsound', htotal'⟩ := ih hsound
    refine ⟨hsound', ?_⟩
    have hlength : (sitesOf (.node l site :: rest)).length = (sitesOf rest).length + 1 := rfl
    have hids : (Allocating.write { s with ids } site.labelRow?.toList
      site.valueRow?.toList).ids.total = s.ids.total + 1 := htotal
    omega
  | heading _ ih => exact ih hs

end Walks

/-- A program and a catalog have been numbered one after the other by a fresh allocator, which has made
its way along the stops of both. -/
lemma Allocate.exists_tours {p₀ p : Program} {c₀ c : Catalog} {a final : Allocator}
    (hp : (({} : Allocator).run (Allocate.program p₀)).start.1 = .ok (p, a))
    (hc : (a.run (Allocate.catalog c₀)).start.1 = .ok (c, final)) :
    ∃ s, Tours {} (p₀.walk ++ c₀.walk) (p.walk ++ c.walk) s ∧ s.toAllocator = final ∧
      ∃ n, final.ids.issued = .ok n := by
  obtain ⟨s, hs, rfl⟩ := Allocator.run_start_ok hp
  obtain ⟨s', hs', rfl⟩ := Allocator.run_start_ok hc
  obtain ⟨s₁, _, _, htours, -, -, rfl⟩ := program_numbers hs
  obtain ⟨s₂, _, n, htours', -, hissued, rfl⟩ := catalog_numbers hs'
  obtain ⟨events, hwalks⟩ := htours'.walks.exists_of_events s₁.events
  exact ⟨{ s₂ with events }, htours.append ⟨hwalks, htours'.same⟩, rfl, n, hissued⟩

/-- Ids are handed out without gaps. Let a fresh allocator number a program and then a catalog. Its stops
are those of the two, with their slots filled. In each library the nodes that belong there, read on the
way, hold the ids behind the base one after the other, and the counter ends at the last of them. All
libraries together have handed out as many ids as there are nodes. -/
theorem Allocate.ids_contiguous {p₀ p : Program} {c₀ c : Catalog} {a final : Allocator}
    (hp : (({} : Allocator).run (Allocate.program p₀)).start.1 = .ok (p, a))
    (hc : (a.run (Allocate.catalog c₀)).start.1 = .ok (c, final)) :
    (p.walk ++ c.walk).map Stop.blank = (p₀.walk ++ c₀.walk).map Stop.blank ∧
      (∀ library,
        numbersIn library (p.walk ++ c.walk) =
            (List.range' 0x10000001 (countIn library (p₀.walk ++ c₀.walk))).map
              (fun n => some (library, n)) ∧
          final.ids.count library = 0x10000000 + countIn library (p₀.walk ++ c₀.walk)) ∧
      final.ids.issued = .ok (sitesOf (p₀.walk ++ c₀.walk)).length := by
  obtain ⟨s, htours, rfl, n, hissued⟩ := exists_tours hp hc
  refine ⟨htours.same, fun library => ?_, ?_⟩
  · rw [← countIn_eq_of_same htours.same]
    exact htours.walks.numbersIn_eq library
  · obtain ⟨-, htotal⟩ := htours.walks.total_eq Counters.sound_empty
    have hlength : s.ids.total = (sitesOf (p.walk ++ c.walk)).length := by
      rw [htotal]
      exact Nat.zero_add _
    rw [hissued, Counters.issued_eq_total hissued, hlength, length_sitesOf_eq_of_same htours.same]

/-! ## Libraries in turn -/

namespace Sample

/-- A program that opens a library twice; in between stand the default library and an import with a
default value. -/
def turns : Program where
  scopes :=
    [.library ⟨"Tools", [.preset ⟨[], "Pace", "Pace", [⟨"slow", none⟩, ⟨"fast", none⟩], none⟩]⟩,
      .import_ ⟨"Base",
        [.function ⟨.action, [], "Say", ⟨1⟩,
          [⟨[], "what", ⟨"text", []⟩, ⟨2⟩, some ⟨.literal (.text "hello"), none⟩, none⟩], .void, none⟩]⟩,
      .library ⟨"0",
        [.variable ⟨[], ⟨"text", []⟩, "greeting", ⟨.literal (.text "hi"), none⟩, none⟩]⟩,
      .library ⟨"Tools",
        [.function ⟨.action, [], "Greet", "Greet", [⟨[], "name", ⟨"text", []⟩, none, none⟩], .void,
          ⟨[], [⟨"Say", [⟨.variable "name", none⟩], none⟩]⟩, none⟩]⟩]

/-- A catalog that opens the library twice, with the default library in between. -/
def turnsListing : Catalog :=
  ⟨[⟨"Tools", "First", [.folder ⟨"Actions", [.leaf "Greet"], none⟩]⟩,
    ⟨"0", "Main", [.folder ⟨"All", [], none⟩]⟩, ⟨"Tools", "Second", []⟩]⟩

/-- The program with its slots filled. -/
def turnsNumbered : Program × Allocator :=
  (({} : Allocator).run (Allocate.program turns)).start.1.toOption.get (by decide +kernel)

/-- The catalog with its slots filled. -/
def turnsListed : Catalog × Allocator :=
  (turnsNumbered.2.run (Allocate.catalog turnsListing)).start.1.toOption.get (by decide +kernel)

lemma turnsNumbered_ok :
    (({} : Allocator).run (Allocate.program turns)).start.1 =
      .ok (turnsNumbered.1, turnsNumbered.2) := by
  rw [Prod.eta]
  exact eq_ok_get _

lemma turnsListed_ok :
    (turnsNumbered.2.run (Allocate.catalog turnsListing)).start.1 =
      .ok (turnsListed.1, turnsListed.2) := by
  rw [Prod.eta]
  exact eq_ok_get _

end Sample

/-- A library that both trees open twice numbers its eight nodes in a row. Of the four ids of the default
library, the first is in the import. -/
theorem Allocate.ids_contiguous_sample :
    numbersIn "Tools" (Sample.turnsNumbered.1.walk ++ Sample.turnsListed.1.walk) =
        (List.range' 0x10000001 8).map (fun n => some ("Tools", n)) ∧
      Sample.turnsListed.2.ids.count "Tools" = 0x10000008 ∧
      numbersIn "0" (Sample.turnsNumbered.1.walk ++ Sample.turnsListed.1.walk) =
        (List.range' 0x10000001 4).map (fun n => some ("0", n)) ∧
      Sample.turnsListed.2.ids.issued = .ok 12 := by
  obtain ⟨-, hids, hissued⟩ := ids_contiguous Sample.turnsNumbered_ok Sample.turnsListed_ok
  have htools : countIn "Tools" (Sample.turns.walk ++ Sample.turnsListing.walk) = 8 := by
    decide +kernel
  have hdefault : countIn "0" (Sample.turns.walk ++ Sample.turnsListing.walk) = 4 := by
    decide +kernel
  have hall : (sitesOf (Sample.turns.walk ++ Sample.turnsListing.walk)).length = 12 := by
    decide +kernel
  obtain ⟨hnumbers, hcount⟩ := hids "Tools"
  obtain ⟨hnumbers', -⟩ := hids "0"
  rw [htools] at hnumbers hcount
  rw [hdefault] at hnumbers'
  rw [hall] at hissued
  exact ⟨hnumbers, hcount, hnumbers', hissued⟩

end TriggerScript
