import Mathlib.Algebra.Order.Ring.Nat
import Mathlib.Tactic.Common
import TriggerScript.Proofs.Numbering.Contiguous

/-!
# Counters at the end of their range

What an allocator does with its counters depends on the stops of the tree alone: at each node it
takes the next id of the library, whatever it may write on the way (`Allocate.Counts`). So there is
an exact condition for a tree to be numbered, from any counters whatever: none of them is below the
base, their ids together can be counted in a word, and no library has more nodes than its counter
has room for. Then each counter moves on by the number of nodes of its library and all others stay
as they are; otherwise the allocation fails.

The main result is `Allocate.counters_raised`.
-/

namespace TriggerScript

namespace Counters

/-- The counters behind the stops, if the counters have room for their nodes. -/
def pass (c : Counters) : List Stop → Except CounterFault Counters
  | [] => .ok c
  | .node library _ :: rest => do
    let (_, c) ← c.next library
    c.pass rest
  | .heading _ _ :: rest => c.pass rest

/-- A library has more nodes than its counter has room for. -/
def Exceeds (c : Counters) (stops : List Stop) : Prop :=
  ∃ library, 2 ^ 32 - 1 < c.count library + countIn library stops

/-- The stops cannot be accounted for: a counter is below the base, the ids handed out so far are
too many to be counted in a word, or a library has more nodes than its counter has room for. -/
def Overruns (c : Counters) (stops : List Stop) : Prop :=
  (∃ entry ∈ c.entries, entry.2.toNat < 0x10000000) ∨
    2 ^ 32 - 1 < (c.entries.map fun entry => entry.2.toNat - 0x10000000).sum ∨ c.Exceeds stops

/-- The counters of the libraries with nodes are raised by their number, and the others stay as they
are. -/
def Raised (c : Counters) (stops : List Stop) (c' : Counters) : Prop :=
  ∀ library, if countIn library stops = 0 then c'.get? library = c.get? library
    else ∃ n, c'.get? library = some n ∧ n.toNat = c.count library + countIn library stops

variable {c c₁ c' : Counters} {library : String} {site : Site} {stops rest : List Stop}

lemma pass_append (c : Counters) (stops rest : List Stop) :
    c.pass (stops ++ rest) = c.pass stops >>= fun c' => c'.pass rest := by
  induction stops generalizing c with
  | nil => rfl
  | cons stop stops ih =>
    cases stop with
    | heading name description => exact ih c
    | node library site =>
      rw [List.cons_append, pass, pass]
      cases c.next library with
      | error e => rfl
      | ok entry => exact ih entry.2

lemma countIn_node (l : String) : countIn l (.node library site :: rest) =
    countIn l rest + if l = library then 1 else 0 := by
  by_cases hl : l = library
  · simp [countIn, Stop.library?, hl]
  · simp [countIn, Stop.library?, hl, Ne.symm hl]

lemma count_lt (c : Counters) (library : String) : c.count library < 2 ^ 32 :=
  UInt32.toNat_lt _

/-- A step leaves as much room for each library as there was with the node to come. -/
lemma count_add_countIn {id : ElementId} (h : c.next library = .ok (id, c₁)) (l : String) (site : Site)
    (rest : List Stop) :
    c₁.count l + countIn l rest = c.count l + countIn l (.node library site :: rest) := by
  have hcount := (next_ok h).2 l
  rw [countIn_node, hcount]
  split_ifs with hl
  · rw [hl]
    omega
  · omega

lemma next_eq_ok (h : c.count library + 1 < 2 ^ 32) :
    ∃ n, c.next library = .ok (⟨n⟩, c.set library n) := by
  rw [next]
  exact ⟨_, if_pos h⟩

lemma next_eq_error (h : 2 ^ 32 ≤ c.count library + 1) : c.next library = .error {} := by
  rw [next]
  exact if_neg (Nat.not_lt.2 h)

lemma Raised.node {id : ElementId} {n : UInt32} (hnext : c.next library = .ok (id, c.set library n))
    (h : Raised (c.set library n) rest c') : Raised c (.node library site :: rest) c' := by
  intro l
  have hl := h l
  rw [count_add_countIn hnext l site rest, get?_set] at hl
  by_cases heq : l = library
  · -- the counter has been raised by the node, and by all others of the library behind it
    have hne : countIn l (.node library site :: rest) ≠ 0 := by
      rw [countIn_node, if_pos heq]
      omega
    rw [if_neg hne]
    split_ifs at hl with hzero
    · refine ⟨n, hl, ?_⟩
      rw [← count_add_countIn hnext l site rest, hzero, count, get?_set, if_pos heq]
      rfl
    · exact hl
  · have hsame : countIn l (.node library site :: rest) = countIn l rest := by
      rw [countIn_node, if_neg heq, Nat.add_zero]
    rw [if_neg heq] at hl
    rwa [← hsame] at hl

/-- The stops can be passed exactly if no library has too many nodes. -/
lemma pass_cases (c : Counters) (stops : List Stop) :
    (Exceeds c stops ∧ c.pass stops = .error {}) ∨
      (¬Exceeds c stops ∧ ∃ c', c.pass stops = .ok c' ∧ Raised c stops c') := by
  induction stops generalizing c with
  | nil =>
    refine .inr ⟨?_, c, rfl, fun library => ?_⟩
    · rintro ⟨library, hlt⟩
      have hcount := c.count_lt library
      rw [show countIn library [] = 0 from rfl] at hlt
      omega
    · rfl
  | cons stop rest ih =>
    cases stop with
    | heading name description => exact ih c
    | node library site =>
      rw [pass]
      by_cases hroom : c.count library + 1 < 2 ^ 32
      · obtain ⟨n, hnext⟩ := next_eq_ok hroom
        have hsame : Exceeds c (.node library site :: rest) ↔ Exceeds (c.set library n) rest := by
          refine exists_congr fun l => ?_
          rw [count_add_countIn hnext l site rest]
        rw [hsame, hnext]
        rcases ih (c.set library n) with hfail | ⟨hfits, c', hpass, hraised⟩
        · exact .inl hfail
        · exact .inr ⟨hfits, c', hpass, hraised.node hnext⟩
      · refine .inl ⟨⟨library, ?_⟩, ?_⟩
        · rw [countIn_node, if_pos rfl]
          omega
        · rw [next_eq_error (Nat.not_lt.1 hroom)]
          rfl

lemma total_eq_sum (c : Counters) :
    c.total = (c.entries.map fun entry => entry.2.toNat - 0x10000000).sum := by
  rw [total, totalOf]
  induction c.entries with
  | nil => rfl
  | cons entry rest ih =>
    rw [List.foldr_cons, List.map_cons, List.sum_cons, ih]
    rfl

/-- The ids can be counted unless a counter is below the base or there are too many of them. -/
lemma issued_cases (c : Counters) (stops : List Stop) :
    (c.issued = .error {} ∧ c.Overruns stops) ∨
      (c.issued = .ok c.total ∧ (c.Overruns stops ↔ c.Exceeds stops)) := by
  have hsize : UInt32.size = 2 ^ 32 := rfl
  have hcond : ((c.entries.all fun entry => base ≤ entry.2) && c.total < UInt32.size) ↔
      (¬∃ entry ∈ c.entries, entry.2.toNat < 0x10000000) ∧ c.total < UInt32.size := by
    simp only [Bool.and_eq_true, List.all_eq_true, decide_eq_true_eq, not_exists, not_and, Nat.not_lt]
    rfl
  rw [issued, Overruns, ← total_eq_sum]
  by_cases hbase : ∃ entry ∈ c.entries, entry.2.toNat < 0x10000000
  · exact .inl ⟨if_neg fun h => (hcond.1 h).1 hbase, .inl hbase⟩
  by_cases htotal : c.total < UInt32.size
  · refine .inr ⟨if_pos (hcond.2 ⟨hbase, htotal⟩), ?_, fun h => .inr (.inr h)⟩
    rintro (h | h | h)
    · exact absurd h hbase
    · omega
    · exact h
  · exact .inl ⟨if_neg fun h => htotal (hcond.1 h).2, .inr (.inl (by omega))⟩

end Counters

namespace Allocate

variable {α β : Type} {library : String} {stops stops' : List Stop} {s : Allocating}

/-! ## What an allocator does with its counters -/

/-- The counters behind a computation, or its fault. -/
def outcome : EStateM.Result CounterFault Allocating α → Except CounterFault Counters
  | .ok _ s => .ok s.ids
  | .error e _ => .error e

/-- The computation does with the counters what the stops ask for, and nothing else. -/
def Counts (f : Allocate α) (stops : List Stop) : Prop :=
  ∀ s, outcome (f s) = s.ids.pass stops

/-- A node takes the next id of the library. -/
lemma next_counts (library : String) (site : Site) : Counts (next library) [.node library site] := by
  intro s
  have hget : (get : Allocate Allocating) s = .ok s s := rfl
  rw [next, bind_of_ok hget, Counters.pass]
  cases s.ids.next library with
  | error e => rfl
  | ok entry => rfl

namespace Counts

variable {f : Allocate α} {k : α → Allocate β}

lemma bind (hf : Counts f stops) (hk : ∀ x, Counts (k x) stops') :
    Counts (f >>= k) (stops ++ stops') := by
  intro s
  rw [Counters.pass_append, ← hf s]
  rcases hs : f s with ⟨x, s₁⟩ | ⟨e, s₁⟩
  · rw [bind_of_ok hs]
    exact hk x s₁
  · rw [bind_of_error hs]
    rfl

lemma pure (x : α) : Counts (Pure.pure x) [] := fun _ => rfl

/-- What is made of the result does not matter. -/
lemma map (hf : Counts f stops) (g : α → β) : Counts (f >>= fun x => Pure.pure (g x)) stops := by
  have hbind := hf.bind fun x => pure (g x)
  rwa [List.append_nil] at hbind

/-- Behind a step that leaves the counters alone. -/
lemma modify_bind {g : Allocating → Allocating} (hg : ∀ s, (g s).ids = s.ids) {k : Unit → Allocate β}
    (hk : Counts (k ()) stops) : Counts (modify g >>= k) stops := by
  intro s
  have hs := hk (g s)
  rwa [hg] at hs

lemma putLabel_bind {key text : String} {k : Unit → Allocate β} (hk : Counts (k ()) stops) :
    Counts (putLabel key text >>= k) stops := by
  rw [putLabel]
  refine modify_bind (fun s => ?_) hk
  rfl

lemma label_bind {type : ElementType} {a : Allocation} {text : String} {k : Unit → Allocate β}
    (hk : Counts (k ()) stops) : Counts (label type a text >>= k) stops :=
  putLabel_bind hk

/-- A heading takes no id. -/
lemma heading (hf : Counts f stops) (name description : String) :
    Counts f (.heading name description :: stops) :=
  hf

lemma next_bind {k : Allocation → Allocate β} (site : Site) (hk : ∀ a, Counts (k a) stops) :
    Counts (next library >>= k) (.node library site :: stops) :=
  (next_counts library site).bind hk

lemma mapM {f : α → Allocate β} {stops : α → List Stop} (xs : List α)
    (hf : ∀ x ∈ xs, Counts (f x) (stops x)) : Counts (xs.mapM f) (xs.flatMap stops) := by
  induction xs with
  | nil => exact pure []
  | cons x xs ih =>
    obtain ⟨hx, hxs⟩ := List.forall_mem_cons.1 hf
    rw [List.mapM_cons, List.flatMap_cons]
    exact hx.bind fun y => (ih hxs).map fun ys => y :: ys

end Counts

/-! ## Values, calls, blocks and variables -/

mutual

lemma value_counts : ∀ v : Value, Counts (value library v) (v.sites.map (.node library))
  | ⟨kind, _⟩ => by
    rw [value, Value.sites, List.map_cons]
    exact .next_bind _ fun a => (valueKind_counts a kind).map _

lemma valueKind_counts (a : Allocation) : ∀ kind : ValueKind,
    Counts (valueKind library a kind) (kind.sites.map (.node library))
  | .literal (.text text) => by
    rw [valueKind, literalText, ValueKind.sites]
    refine .modify_bind (fun s => ?_) (.pure _)
    rfl
  | .literal (.string _) => by
    rw [ValueKind.sites]
    exact .pure _
  | .literal (.int _) => by
    rw [ValueKind.sites]
    exact .pure _
  | .literal (.bool _) => by
    rw [ValueKind.sites]
    exact .pure _
  | .presetMember _ _ => by
    rw [ValueKind.sites]
    exact .pure _
  | .variable _ => by
    rw [ValueKind.sites]
    exact .pure _
  | .arrayElement name indices => by
    rw [valueKind, ValueKind.sites]
    exact (values_counts indices).map _
  | .call c => by
    rw [valueKind, ValueKind.sites]
    exact (call_counts c).map _
  | .block b => by
    rw [valueKind, ValueKind.sites]
    exact (block_counts b).map _

lemma call_counts : ∀ c : Call, Counts (call library c) (c.sites.map (.node library))
  | ⟨callee, args, _⟩ => by
    rw [call, Call.sites, List.map_cons]
    exact .next_bind _ fun a => (values_counts args).map _

lemma block_counts : ∀ b : Block, Counts (block library b) (b.sites.map (.node library))
  | ⟨locals, statements⟩ => by
    rw [block, Block.sites, List.map_append]
    exact (variableDefs_counts locals).bind fun _ => (calls_counts statements).map _

lemma variableDef_counts : ∀ d : VariableDef,
    Counts (variableDef library d) (d.sites.map (.node library))
  | ⟨attributes, ty, name, v, _⟩ => by
    rw [variableDef, VariableDef.sites, List.map_cons]
    exact .next_bind _ fun a => .label_bind ((value_counts v).map _)

lemma values_counts : ∀ vs : List Value,
    Counts (values library vs) ((valuesSites vs).map (.node library))
  | [] => by
    rw [values, valuesSites]
    exact .pure _
  | v :: rest => by
    rw [values, valuesSites, List.map_append]
    exact (value_counts v).bind fun _ => (values_counts rest).map _

lemma calls_counts : ∀ cs : List Call,
    Counts (calls library cs) ((callsSites cs).map (.node library))
  | [] => by
    rw [calls, callsSites]
    exact .pure _
  | c :: rest => by
    rw [calls, callsSites, List.map_append]
    exact (call_counts c).bind fun _ => (calls_counts rest).map _

lemma variableDefs_counts : ∀ ds : List VariableDef,
    Counts (variableDefs library ds) ((variablesSites ds).map (.node library))
  | [] => by
    rw [variableDefs, variablesSites]
    exact .pure _
  | d :: rest => by
    rw [variableDefs, variablesSites, List.map_append]
    exact (variableDef_counts d).bind fun _ => (variableDefs_counts rest).map _

end

/-! ## Definitions, sections and entries -/

lemma default_counts (v : Option Value) :
    Counts (default library v) ((defaultSites v).map (.node library)) := by
  cases v with
  | none => exact .pure _
  | some v =>
    have hsites : defaultSites (some v) = v.sites := List.append_nil _
    rw [default, hsites]
    exact (value_counts v).map _

lemma param_counts (d : ParamDef) : Counts (param library d) (d.sites.map (.node library)) := by
  rw [param, ParamDef.sites, List.map_cons]
  exact .next_bind _ fun a => .label_bind ((default_counts d.default).map _)

lemma member_counts (m : PresetMember) : Counts (member library m) [.node library m.site] := by
  rw [member]
  exact .next_bind _ fun a => .label_bind (.pure _)

lemma definition_counts (d : Definition) :
    Counts (definition library d) (d.sites.map (.node library)) := by
  rcases d with d | d | d | d
  · rw [definition, Definition.sites, List.map_cons, List.map_map, List.map_eq_flatMap]
    exact .next_bind _ fun a => .label_bind ((Counts.mapM _ fun m _ => member_counts m).map _)
  · exact (variableDef_counts d).map _
  · rw [definition, Definition.sites, List.map_cons, List.map_append, List.map_flatMap]
    exact .next_bind _ fun a => .label_bind ((Counts.mapM _ fun q _ => param_counts q).bind fun _ =>
      (block_counts d.body).map _)
  · rw [definition, Definition.sites, List.map_cons, List.map_append]
    exact .next_bind _ fun a => .label_bind ((call_counts d.event).bind fun _ =>
      (block_counts d.body).map _)

/-- The ids of imported entities are given; only their default values are counted. -/
lemma external_counts (e : ExternalDefinition) :
    Counts (external library e) (e.sites.map (.node defaultLibrary)) := by
  rcases e with d | d | d
  · exact .pure _
  · rw [external, ExternalDefinition.sites, List.map_flatMap]
    exact (Counts.mapM _ fun q _ => (default_counts q.default).map _).map _
  · exact .pure _

lemma scope_counts (sc : Scope) : Counts (scope sc) sc.walk := by
  cases sc with
  | import_ i => exact (Counts.mapM _ fun e _ => external_counts e).map _
  | library l => exact (Counts.mapM _ fun d _ => definition_counts d).map _

mutual

lemma item_counts : ∀ i : CatalogItem, Counts (item library i) (i.sites.map (.node library))
  | .leaf name => by
    rw [CatalogItem.sites]
    exact .pure _
  | .folder f => by
    rw [item, CatalogItem.sites]
    exact (folder_counts f).map _

lemma folder_counts : ∀ f : Folder, Counts (folder library f) (f.sites.map (.node library))
  | ⟨description, entries, _⟩ => by
    rw [folder, Folder.sites, List.map_cons]
    exact .next_bind _ fun a => .label_bind ((items_counts entries).map _)

lemma items_counts : ∀ is : List CatalogItem,
    Counts (items library is) ((itemsSites is).map (.node library))
  | [] => by
    rw [items, itemsSites]
    exact .pure _
  | i :: rest => by
    rw [items, itemsSites, List.map_append]
    exact (item_counts i).bind fun _ => (items_counts rest).map _

end

lemma catalogLibrary_counts (l : CatalogLibrary) : Counts (catalogLibrary l) l.walk := by
  have hitems : Counts (do return { l with items := ← items l.name l.items })
      ((itemsSites l.items).map (.node l.name)) := (items_counts l.items).map _
  rw [CatalogLibrary.walk, CatalogLibrary.headings, catalogLibrary]
  by_cases hl : l.name = defaultLibrary
  · rw [if_pos hl, if_neg (not_not.2 hl)]
    exact hitems
  · rw [if_neg hl, if_pos hl]
    exact .heading (.putLabel_bind hitems) l.name l.description

lemma scopes_counts (p : Program) : Counts (scopes p) p.walk :=
  (Counts.mapM _ fun sc _ => scope_counts sc).map _

lemma libraries_counts (c : Catalog) : Counts (libraries c) c.walk :=
  (Counts.mapM _ fun l _ => catalogLibrary_counts l).map _

/-! ## The whole allocation -/

/-- What becomes of the counters along the stops. If they overrun, the work fails. Otherwise all
stops are passed and the counters are raised, and what is left of the work is to count the ids for
the report. The report leaves the counters as they are. -/
structure Accounts (message : String) (work : Allocate α) (stops : List Stop) (s : Allocating) :
    Prop where
  fails : s.ids.Overruns stops → ∃ s', work s = .error {} s'
  raises : ¬s.ids.Overruns stops → ∃ x s₁, s.ids.Raised stops s₁.ids ∧
    work s = (do reportSince message s.ids.total; return x : Allocate α) s₁
  ends : ∀ x s', work s = .ok x s' → s.ids.Raised stops s'.ids

/-- The third part of an account follows from the others. -/
lemma Accounts.of_cases {message : String} {work : Allocate α}
    (hfails : s.ids.Overruns stops → ∃ s', work s = .error {} s')
    (hraises : ¬s.ids.Overruns stops → ∃ x s₁, s.ids.Raised stops s₁.ids ∧
      work s = (do reportSince message s.ids.total; return x : Allocate α) s₁) :
    Accounts message work stops s := by
  refine ⟨hfails, hraises, fun y s' hwork => ?_⟩
  by_cases hoverruns : s.ids.Overruns stops
  · obtain ⟨s₁, hfail⟩ := hfails hoverruns
    cases hfail.symm.trans hwork
  · obtain ⟨x, s₁, hraised, heq⟩ := hraises hoverruns
    obtain ⟨_, s₂, hreport, hpure⟩ := bind_ok_iff.1 (heq.symm.trans hwork)
    obtain ⟨n, -, rfl⟩ := reportSince_ok hreport
    obtain ⟨-, rfl⟩ := pure_ok_iff.1 hpure
    exact hraised

/-- Whoever counts the ids before and behind some work on the stops accounts for them. -/
lemma Counts.accounts {f : Allocate α} (hf : Counts f stops) (message : String) (s : Allocating) :
    Accounts message (do
      let before ← issued
      let x ← f
      reportSince message before
      return x) stops s := by
  have hget : (get : Allocate Allocating) s = .ok s s := rfl
  rcases s.ids.issued_cases stops with ⟨hcount, hoverruns⟩ | ⟨hcount, hoverruns⟩
  · have hissued : issued s = .error {} s := by
      rw [issued, bind_of_ok hget, hcount]
      rfl
    exact .of_cases (fun _ => ⟨s, bind_of_error hissued⟩) fun hfits => absurd hoverruns hfits
  · have hissued : issued s = .ok s.ids.total s := by
      rw [issued, bind_of_ok hget, hcount]
      rfl
    have hpass := hf s
    rcases s.ids.pass_cases stops with ⟨hexceeds, hfail⟩ | ⟨hroom, c', hok, hraised⟩
    · refine .of_cases (fun _ => ?_) fun hfits => absurd (hoverruns.2 hexceeds) hfits
      rcases hs : f s with ⟨x, s₁⟩ | ⟨e, s₁⟩ <;> rw [hs, hfail] at hpass
      · cases hpass
      · obtain rfl : e = {} := Except.error.inj hpass
        exact ⟨s₁, (bind_of_ok hissued).trans (bind_of_error hs)⟩
    · refine .of_cases (fun h => absurd (hoverruns.1 h) hroom) fun _ => ?_
      rcases hs : f s with ⟨x, s₁⟩ | ⟨e, s₁⟩ <;> rw [hs, hok] at hpass
      · obtain rfl : s₁.ids = c' := Except.ok.inj hpass
        exact ⟨x, s₁, hraised, (bind_of_ok hissued).trans (bind_of_ok hs)⟩
      · cases hpass

/-- Counters never wrap around. From any counters whatever, a program and a catalog are numbered
exactly if no counter is below the base, the ids handed out before can be counted in a word, and no
library has more nodes than its counter has room for. Then each library with nodes has its counter
raised by their number, and no other counter changes. Only the count for the report can still fail.
-/
theorem counters_raised (s : Allocating) :
    (∀ p, Accounts "allocated program" (program p) p.walk s) ∧
      ∀ c, Accounts "allocated catalog" (catalog c) c.walk s :=
  ⟨fun p => (scopes_counts p).accounts _ s, fun c => (libraries_counts c).accounts _ s⟩

end Allocate

end TriggerScript
