import TriggerScript.Allocator
import TriggerScript.Proofs.Computation
import TriggerScript.Proofs.Walk

/-!
# The way of an allocator

What an allocator does at a stop of the walk over a tree is said here once, by `Walks`: at a node it
hands out the next id and writes the label or the text of the node, and at a library of a catalog it
writes the label of the library. It does so at all stops of a tree, one after the other, and it does
nothing else but report in the end how many ids that took.

The main results are `Allocate.program_numbers` and `Allocate.catalog_numbers`.
-/

namespace TriggerScript

/-- Writes rows into both tables and reports keys that are written again. -/
def Allocating.write (s : Allocating) (labelRows valueRows : List (String × String)) : Allocating :=
  { s with
    labels := s.labels.putAll labelRows
    values := s.values.putAll valueRows
    events := s.events ++ (s.labels.putAllEvents labelRows ++ s.values.putAllEvents valueRows) }

lemma Allocating.write_nil (s : Allocating) : s.write [] [] = s := by
  simp [write, StringTable.putAll, StringTable.putAllEvents]

/-- An allocator makes its way from one state to the other along the stops: at each node it hands out
the next id of the library and writes the label or the text of the node, and at each heading it writes
the label of the library. -/
inductive Walks : Allocating → List Stop → Allocating → Prop
  | nil (s : Allocating) : Walks s [] s
  | node {s s' : Allocating} {library : String} {site : Site} {rest : List Stop} {id : ElementId}
      {ids : Counters} (hnext : s.ids.next library = .ok (id, ids))
      (hsite : site.allocation = some ⟨library, id⟩)
      (hrest : Walks (Allocating.write { s with ids } site.labelRow?.toList site.valueRow?.toList)
        rest s') :
      Walks s (.node library site :: rest) s'
  | heading {s s' : Allocating} {name description : String} {rest : List Stop}
      (hrest : Walks (s.write [(CatalogLibrary.labelKey name, description)] []) rest s') :
      Walks s (.heading name description :: rest) s'

namespace Walks

variable {s s₁ s₂ : Allocating} {stops stops' : List Stop}

lemma append (h : Walks s stops s₁) (h' : Walks s₁ stops' s₂) : Walks s (stops ++ stops') s₂ := by
  induction h with
  | nil => exact h'
  | node hnext hsite _ ih => exact .node hnext hsite (ih h')
  | heading _ ih => exact .heading (ih h')

/-- Each node on the way has been given an id of the library. -/
lemma allocation_of_mem (h : Walks s stops s₁) {library : String} {site : Site}
    (hsite : .node library site ∈ stops) : ∃ id, site.allocation = some ⟨library, id⟩ := by
  induction h with
  | nil => cases hsite
  | node _ hallocation _ ih =>
    rcases List.mem_cons.1 hsite with hsite | hsite
    · cases hsite
      exact ⟨_, hallocation⟩
    · exact ih hsite
  | heading _ ih =>
    rcases List.mem_cons.1 hsite with hsite | hsite
    · cases hsite
    · exact ih hsite

end Walks

/-- An allocator has made its way along stops. They are the stops that it was given, with the slots
filled. -/
structure Tours (s : Allocating) (before after : List Stop) (s' : Allocating) : Prop where
  walks : Walks s after s'
  same : after.map Stop.blank = before.map Stop.blank

namespace Tours

variable {s s₁ s₂ : Allocating} {before before' after after' : List Stop}

lemma nil (s : Allocating) : Tours s [] [] s :=
  ⟨.nil s, rfl⟩

lemma append (h : Tours s before after s₁) (h' : Tours s₁ before' after' s₂) :
    Tours s (before ++ before') (after ++ after') s₂ :=
  ⟨h.walks.append h'.walks, by rw [List.map_append, List.map_append, h.same, h'.same]⟩

/-- What is visited one after the other. -/
lemma mapM {α : Type} {f : α → Allocate α} {stops : α → List Stop}
    (hf : ∀ x y s s', f x s = .ok y s' → Tours s (stops x) (stops y) s') :
    ∀ {xs ys : List α} {s s' : Allocating}, xs.mapM f s = .ok ys s' →
      Tours s (xs.flatMap stops) (ys.flatMap stops) s' := by
  intro xs
  induction xs with
  | nil =>
    intro ys s s' h
    obtain ⟨rfl, rfl⟩ := mapM_nil_ok_iff.1 h
    exact .nil _
  | cons x xs ih =>
    intro ys s s' h
    obtain ⟨y, s₁, hy, zs, hzs, rfl⟩ := mapM_cons_ok_iff.1 h
    rw [List.flatMap_cons, List.flatMap_cons]
    exact (hf x y s s₁ hy).append (ih hzs)

end Tours

/-- An allocator has made its way over nodes of one library. -/
def Visits (library : String) (s : Allocating) (before after : List Site) (s' : Allocating) : Prop :=
  Tours s (before.map (.node library)) (after.map (.node library)) s'

namespace Visits

variable {library : String} {s s₁ s₂ : Allocating} {before before' after after' : List Site}

lemma nil (library : String) (s : Allocating) : Visits library s [] [] s :=
  Tours.nil s

lemma cons {site₀ site : Site} {id : ElementId} {ids : Counters}
    (hnext : s.ids.next library = .ok (id, ids)) (hsite : site.allocation = some ⟨library, id⟩)
    (hsame : site.blank = site₀.blank)
    (hrest : Visits library
      (Allocating.write { s with ids } site.labelRow?.toList site.valueRow?.toList) before after s₁) :
    Visits library s (site₀ :: before) (site :: after) s₁ := by
  refine ⟨.node hnext hsite hrest.walks, ?_⟩
  have hstop : (Stop.node library site).blank = (Stop.node library site₀).blank :=
    congrArg (Stop.node library) hsame
  rw [List.map_cons, List.map_cons, List.map_cons, List.map_cons, hstop, hrest.same]

lemma append (h : Visits library s before after s₁) (h' : Visits library s₁ before' after' s₂) :
    Visits library s (before ++ before') (after ++ after') s₂ := by
  rw [Visits, List.map_append, List.map_append]
  exact Tours.append h h'

lemma mapM {α : Type} {f : α → Allocate α} {sites : α → List Site}
    (hf : ∀ x y s s', f x s = .ok y s' → Visits library s (sites x) (sites y) s') {xs ys : List α}
    (h : xs.mapM f s = .ok ys s₁) : Visits library s (xs.flatMap sites) (ys.flatMap sites) s₁ := by
  rw [Visits, List.map_flatMap, List.map_flatMap]
  exact Tours.mapM hf h

end Visits

namespace Allocate

variable {library : String} {s s' : Allocating}

/-! ## The steps of an allocator -/

lemma next_ok {a : Allocation} (h : next library s = .ok a s') :
    ∃ id ids, a = ⟨library, id⟩ ∧ s.ids.next library = .ok (id, ids) ∧ s' = { s with ids } := by
  simp only [next, bind_ok_iff, get_ok_iff] at h
  obtain ⟨_, _, ⟨rfl, rfl⟩, h⟩ := h
  rcases hnext : s.ids.next library with e | ⟨id, ids⟩
  · simp [hnext, throw_ok_iff] at h
  · simp only [hnext, bind_ok_iff, set_ok_iff, pure_ok_iff] at h
    obtain ⟨_, _, rfl, rfl, rfl⟩ := h
    exact ⟨id, ids, rfl, rfl, rfl⟩

lemma putLabel_ok {key text : String} {u : Unit} (h : putLabel key text s = .ok u s') :
    s' = s.write [(key, text)] [] := by
  rw [putLabel, modify_ok_iff] at h
  rw [← h]
  simp [Allocating.write, StringTable.putAll, StringTable.putAllEvents]

lemma label_ok {type : ElementType} {a : Allocation} {text : String} {u : Unit}
    (h : label type a text s = .ok u s') : s' = s.write [(a.labelKey type, text)] [] :=
  putLabel_ok h

lemma literalText_ok {a : Allocation} {text : String} {u : Unit}
    (h : literalText a text s = .ok u s') : s' = s.write [] [(a.valueKey, text)] := by
  rw [literalText, modify_ok_iff] at h
  rw [← h]
  simp [Allocating.write, StringTable.putAll, StringTable.putAllEvents, Allocation.valueKey]

/-- An allocator that hands out an id and writes a label has visited a node. -/
lemma visits_labelled {type : ElementType} {a : Allocation} {text : String} {u : Unit}
    {allocation : Option Allocation} {s₁ s₂ : Allocating} {before after : List Site}
    (hnext : next library s = .ok a s₁) (hlabel : label type a text s₁ = .ok u s₂)
    (hrest : Visits library s₂ before after s') :
    Visits library s ({ type := some type, allocation, label := some text } :: before)
      ({ type := some type, allocation := some a, label := some text } :: after) s' := by
  obtain ⟨id, ids, rfl, hid, rfl⟩ := next_ok hnext
  obtain rfl := label_ok hlabel
  exact .cons hid rfl rfl hrest

/-! ## Values, calls, blocks and variables -/

mutual

lemma value_visits {s s' : Allocating} : ∀ (v : Value) {v' : Value}, value library v s = .ok v' s' →
    Visits library s v.sites v'.sites s'
  | ⟨kind, _⟩, v', h => by
    simp only [value, bind_ok_iff, pure_ok_iff] at h
    obtain ⟨a, s₁, hnext, kind', s₂, hkind, rfl, rfl⟩ := h
    obtain ⟨id, ids, rfl, hid, rfl⟩ := next_ok hnext
    obtain ⟨hsame, hvisits⟩ := valueKind_visits kind hkind
    rw [Value.sites, Value.sites]
    exact .cons hid rfl hsame hvisits
termination_by structural v => v

/-- The text of a literal is written as soon as the literal has its id. -/
lemma valueKind_visits {s s' : Allocating} {a : Allocation} : ∀ (kind : ValueKind) {kind' : ValueKind},
    valueKind library a kind s = .ok kind' s' →
      kind'.site none = kind.site none ∧
        Visits library (s.write [] (kind'.site (some a)).valueRow?.toList) kind.sites kind'.sites s'
  | .literal (.text text), kind', h => by
    simp only [valueKind, bind_ok_iff, pure_ok_iff] at h
    obtain ⟨_, s₁, htext, rfl, rfl⟩ := h
    obtain rfl := literalText_ok htext
    rw [ValueKind.sites]
    exact ⟨rfl, .nil library _⟩
  | .literal (.string _), kind', h => by
    obtain ⟨rfl, rfl⟩ := pure_ok_iff.1 h
    rw [ValueKind.sites]
    exact ⟨rfl, s.write_nil.symm ▸ .nil library _⟩
  | .literal (.int _), kind', h => by
    obtain ⟨rfl, rfl⟩ := pure_ok_iff.1 h
    rw [ValueKind.sites]
    exact ⟨rfl, s.write_nil.symm ▸ .nil library _⟩
  | .literal (.bool _), kind', h => by
    obtain ⟨rfl, rfl⟩ := pure_ok_iff.1 h
    rw [ValueKind.sites]
    exact ⟨rfl, s.write_nil.symm ▸ .nil library _⟩
  | .presetMember _ _, kind', h => by
    obtain ⟨rfl, rfl⟩ := pure_ok_iff.1 h
    rw [ValueKind.sites]
    exact ⟨rfl, s.write_nil.symm ▸ .nil library _⟩
  | .variable _, kind', h => by
    obtain ⟨rfl, rfl⟩ := pure_ok_iff.1 h
    rw [ValueKind.sites]
    exact ⟨rfl, s.write_nil.symm ▸ .nil library _⟩
  | .arrayElement name indices, kind', h => by
    simp only [valueKind, bind_ok_iff, pure_ok_iff] at h
    obtain ⟨indices', s₁, hindices, rfl, rfl⟩ := h
    rw [ValueKind.sites, ValueKind.sites]
    exact ⟨rfl, s.write_nil.symm ▸ values_visits indices hindices⟩
  | .call c, kind', h => by
    simp only [valueKind, bind_ok_iff, pure_ok_iff] at h
    obtain ⟨c', s₁, hc, rfl, rfl⟩ := h
    rw [ValueKind.sites, ValueKind.sites]
    exact ⟨rfl, s.write_nil.symm ▸ call_visits c hc⟩
  | .block b, kind', h => by
    simp only [valueKind, bind_ok_iff, pure_ok_iff] at h
    obtain ⟨b', s₁, hb, rfl, rfl⟩ := h
    rw [ValueKind.sites, ValueKind.sites]
    exact ⟨rfl, s.write_nil.symm ▸ block_visits b hb⟩
termination_by structural kind => kind

lemma call_visits {s s' : Allocating} : ∀ (c : Call) {c' : Call}, call library c s = .ok c' s' →
    Visits library s c.sites c'.sites s'
  | ⟨callee, args, _⟩, c', h => by
    simp only [call, bind_ok_iff, pure_ok_iff] at h
    obtain ⟨a, s₁, hnext, args', s₂, hargs, rfl, rfl⟩ := h
    obtain ⟨id, ids, rfl, hid, rfl⟩ := next_ok hnext
    rw [Call.sites, Call.sites]
    exact .cons hid rfl rfl ((Allocating.write_nil _).symm ▸ values_visits args hargs)
termination_by structural c => c

lemma block_visits {s s' : Allocating} : ∀ (b : Block) {b' : Block}, block library b s = .ok b' s' →
    Visits library s b.sites b'.sites s'
  | ⟨locals, statements⟩, b', h => by
    simp only [block, bind_ok_iff, pure_ok_iff] at h
    obtain ⟨locals', s₁, hlocals, statements', s₂, hstatements, rfl, rfl⟩ := h
    rw [Block.sites, Block.sites]
    exact (variableDefs_visits locals hlocals).append (calls_visits statements hstatements)
termination_by structural b => b

lemma variableDef_visits {s s' : Allocating} : ∀ (d : VariableDef) {d' : VariableDef},
    variableDef library d s = .ok d' s' → Visits library s d.sites d'.sites s'
  | ⟨attributes, ty, name, v, _⟩, d', h => by
    simp only [variableDef, bind_ok_iff, pure_ok_iff] at h
    obtain ⟨a, s₁, hnext, _, s₂, hlabel, v', s₃, hv, rfl, rfl⟩ := h
    rw [VariableDef.sites, VariableDef.sites]
    exact visits_labelled hnext hlabel (value_visits v hv)
termination_by structural d => d

lemma values_visits {s s' : Allocating} : ∀ (vs : List Value) {vs' : List Value},
    values library vs s = .ok vs' s' → Visits library s (valuesSites vs) (valuesSites vs') s'
  | [], vs', h => by
    obtain ⟨rfl, rfl⟩ := pure_ok_iff.1 h
    rw [valuesSites]
    exact .nil library _
  | v :: rest, vs', h => by
    simp only [values, bind_ok_iff, pure_ok_iff] at h
    obtain ⟨v', s₁, hv, rest', s₂, hrest, rfl, rfl⟩ := h
    rw [valuesSites, valuesSites]
    exact (value_visits v hv).append (values_visits rest hrest)
termination_by structural vs => vs

lemma calls_visits {s s' : Allocating} : ∀ (cs : List Call) {cs' : List Call},
    calls library cs s = .ok cs' s' → Visits library s (callsSites cs) (callsSites cs') s'
  | [], cs', h => by
    obtain ⟨rfl, rfl⟩ := pure_ok_iff.1 h
    rw [callsSites]
    exact .nil library _
  | c :: rest, cs', h => by
    simp only [calls, bind_ok_iff, pure_ok_iff] at h
    obtain ⟨c', s₁, hc, rest', s₂, hrest, rfl, rfl⟩ := h
    rw [callsSites, callsSites]
    exact (call_visits c hc).append (calls_visits rest hrest)
termination_by structural cs => cs

lemma variableDefs_visits {s s' : Allocating} : ∀ (ds : List VariableDef) {ds' : List VariableDef},
    variableDefs library ds s = .ok ds' s' →
      Visits library s (variablesSites ds) (variablesSites ds') s'
  | [], ds', h => by
    obtain ⟨rfl, rfl⟩ := pure_ok_iff.1 h
    rw [variablesSites]
    exact .nil library _
  | d :: rest, ds', h => by
    simp only [variableDefs, bind_ok_iff, pure_ok_iff] at h
    obtain ⟨d', s₁, hd, rest', s₂, hrest, rfl, rfl⟩ := h
    rw [variablesSites, variablesSites]
    exact (variableDef_visits d hd).append (variableDefs_visits rest hrest)

end

/-! ## Definitions and imported entities -/

lemma default_visits {v v' : Option Value} (h : default library v s = .ok v' s') :
    Visits library s (defaultSites v) (defaultSites v') s' := by
  cases v with
  | none =>
    obtain ⟨rfl, rfl⟩ := pure_ok_iff.1 h
    exact .nil library _
  | some v =>
    simp only [default, bind_ok_iff, pure_ok_iff] at h
    obtain ⟨v', s₁, hv, rfl, rfl⟩ := h
    simpa [defaultSites] using value_visits v hv

lemma param_visits {d d' : ParamDef} (h : param library d s = .ok d' s') :
    Visits library s d.sites d'.sites s' := by
  simp only [param, bind_ok_iff, pure_ok_iff] at h
  obtain ⟨a, s₁, hnext, _, s₂, hlabel, v, s₃, hv, rfl, rfl⟩ := h
  exact visits_labelled hnext hlabel (default_visits hv)

lemma member_visits {m m' : PresetMember} (h : member library m s = .ok m' s') :
    Visits library s [m.site] [m'.site] s' := by
  simp only [member, bind_ok_iff, pure_ok_iff] at h
  obtain ⟨a, s₁, hnext, _, s₂, hlabel, rfl, rfl⟩ := h
  exact visits_labelled hnext hlabel (.nil library _)

lemma definition_visits {d d' : Definition} (h : definition library d s = .ok d' s') :
    Visits library s d.sites d'.sites s' := by
  rcases d with d | d | d | d <;> simp only [definition, bind_ok_iff, pure_ok_iff] at h
  · obtain ⟨a, s₁, hnext, _, s₂, hlabel, members, s₃, hmembers, rfl, rfl⟩ := h
    have hvisits := Visits.mapM (fun _ _ _ _ => member_visits) hmembers
    rw [← List.map_eq_flatMap, ← List.map_eq_flatMap] at hvisits
    exact visits_labelled hnext hlabel hvisits
  · obtain ⟨d', s₁, hd, rfl, rfl⟩ := h
    exact variableDef_visits d hd
  · obtain ⟨a, s₁, hnext, _, s₂, hlabel, params, s₃, hparams, body, s₄, hbody, rfl, rfl⟩ := h
    have hvisits := Visits.mapM (fun _ _ _ _ => param_visits) hparams
    exact visits_labelled hnext hlabel (hvisits.append (block_visits _ hbody))
  · obtain ⟨a, s₁, hnext, _, s₂, hlabel, event, s₃, hevent, body, s₄, hbody, rfl, rfl⟩ := h
    exact visits_labelled hnext hlabel ((call_visits _ hevent).append (block_visits _ hbody))

lemma externalParam_visits {q q' : ExternalParam} (h : externalParam library q s = .ok q' s') :
    Visits defaultLibrary s (defaultSites q.default) (defaultSites q'.default) s' := by
  simp only [externalParam, bind_ok_iff, pure_ok_iff] at h
  obtain ⟨v, s₁, hv, rfl, rfl⟩ := h
  exact default_visits hv

lemma external_visits {e e' : ExternalDefinition} (h : external library e s = .ok e' s') :
    Visits defaultLibrary s e.sites e'.sites s' := by
  rcases e with d | d | d
  · obtain ⟨rfl, rfl⟩ := pure_ok_iff.1 h
    exact .nil _ _
  · simp only [external, bind_ok_iff, pure_ok_iff] at h
    obtain ⟨params, s₁, hparams, rfl, rfl⟩ := h
    exact .mapM (fun _ _ _ _ => externalParam_visits) hparams
  · obtain ⟨rfl, rfl⟩ := pure_ok_iff.1 h
    exact .nil _ _

mutual

lemma item_visits {s s' : Allocating} : ∀ (i : CatalogItem) {i' : CatalogItem},
    item library i s = .ok i' s' → Visits library s i.sites i'.sites s'
  | .leaf name, i', h => by
    obtain ⟨rfl, rfl⟩ := pure_ok_iff.1 h
    rw [CatalogItem.sites]
    exact .nil library _
  | .folder f, i', h => by
    simp only [item, bind_ok_iff, pure_ok_iff] at h
    obtain ⟨f', s₁, hf, rfl, rfl⟩ := h
    rw [CatalogItem.sites, CatalogItem.sites]
    exact folder_visits f hf

lemma folder_visits {s s' : Allocating} : ∀ (f : Folder) {f' : Folder},
    folder library f s = .ok f' s' → Visits library s f.sites f'.sites s'
  | ⟨description, entries, _⟩, f', h => by
    simp only [folder, bind_ok_iff, pure_ok_iff] at h
    obtain ⟨a, s₁, hnext, _, s₂, hlabel, entries', s₃, hentries, rfl, rfl⟩ := h
    rw [Folder.sites, Folder.sites]
    exact visits_labelled hnext hlabel (items_visits entries hentries)

lemma items_visits {s s' : Allocating} : ∀ (is : List CatalogItem) {is' : List CatalogItem},
    items library is s = .ok is' s' → Visits library s (itemsSites is) (itemsSites is') s'
  | [], is', h => by
    obtain ⟨rfl, rfl⟩ := pure_ok_iff.1 h
    rw [itemsSites]
    exact .nil library _
  | i :: rest, is', h => by
    simp only [items, bind_ok_iff, pure_ok_iff] at h
    obtain ⟨i', s₁, hi, rest', s₂, hrest, rfl, rfl⟩ := h
    rw [itemsSites, itemsSites]
    exact (item_visits i hi).append (items_visits rest hrest)

end

/-! ## Programs and catalogs -/

lemma scope_tours {sc sc' : Scope} (h : scope sc s = .ok sc' s') : Tours s sc.walk sc'.walk s' := by
  rcases sc with i | l <;> simp only [scope, bind_ok_iff, pure_ok_iff] at h
  · obtain ⟨definitions, s₁, hdefinitions, rfl, rfl⟩ := h
    exact .mapM (fun _ _ _ _ => external_visits) hdefinitions
  · obtain ⟨definitions, s₁, hdefinitions, rfl, rfl⟩ := h
    exact .mapM (fun _ _ _ _ => definition_visits) hdefinitions

/-- A library has its own label written, if it gets one, and then its items are gone through. -/
lemma catalogLibrary_ok {l l' : CatalogLibrary} (h : catalogLibrary l s = .ok l' s') :
    ∃ s₁ items', Tours s l.headings l.headings s₁ ∧ items l.name l.items s₁ = .ok items' s' ∧
      { l with items := items' } = l' := by
  unfold catalogLibrary at h
  split_ifs at h with hl
  · simp only [bind_ok_iff, pure_ok_iff] at h
    obtain ⟨_, s₁, hlabel, items', s₂, hitems, rfl, rfl⟩ := h
    obtain rfl := putLabel_ok hlabel
    refine ⟨_, items', ?_, hitems, rfl⟩
    rw [CatalogLibrary.headings, if_neg hl]
    exact ⟨.heading (.nil _), rfl⟩
  · simp only [bind_ok_iff, pure_ok_iff] at h
    obtain ⟨items', s₂, hitems, rfl, rfl⟩ := h
    refine ⟨s, items', ?_, hitems, rfl⟩
    rw [CatalogLibrary.headings, if_pos (not_not.1 hl)]
    exact .nil s

lemma catalogLibrary_tours {l l' : CatalogLibrary} (h : catalogLibrary l s = .ok l' s') :
    Tours s l.walk l'.walk s' := by
  obtain ⟨s₁, items', hheadings, hitems, rfl⟩ := catalogLibrary_ok h
  exact hheadings.append (items_visits _ hitems)

lemma scopes_tours {p p' : Program} (h : scopes p s = .ok p' s') : Tours s p.walk p'.walk s' := by
  simp only [scopes, bind_ok_iff, pure_ok_iff] at h
  obtain ⟨scopes', _, hscopes, rfl, rfl⟩ := h
  exact .mapM (fun _ _ _ _ => scope_tours) hscopes

lemma libraries_tours {c c' : Catalog} (h : libraries c s = .ok c' s') :
    Tours s c.walk c'.walk s' := by
  simp only [libraries, bind_ok_iff, pure_ok_iff] at h
  obtain ⟨libraries', _, hlibraries, rfl, rfl⟩ := h
  exact .mapM (fun _ _ _ _ => catalogLibrary_tours) hlibraries

lemma issued_ok {n : Nat} (h : issued s = .ok n s') : s.ids.issued = .ok n ∧ s' = s := by
  simp only [issued, bind_ok_iff, get_ok_iff] at h
  obtain ⟨_, _, ⟨rfl, rfl⟩, h⟩ := h
  rcases hissued : s.ids.issued with e | n'
  · simp [hissued, throw_ok_iff] at h
  · rw [hissued] at h
    obtain ⟨rfl, rfl⟩ := pure_ok_iff.1 h
    exact ⟨rfl, rfl⟩

/-- What is reported when ids have been handed out. -/
def countEvent (message : String) (count : Nat) : Event :=
  ⟨.debug, message, [("ids", Text.natText count)]⟩

lemma reportSince_ok {message : String} {before : Nat} {u : Unit}
    (h : reportSince message before s = .ok u s') : ∃ n, s.ids.issued = .ok n ∧
      s' = { s with events := s.events ++ [countEvent message (n - before)] } := by
  simp only [reportSince, bind_ok_iff, modify_ok_iff] at h
  obtain ⟨n, s₁, hissued, rfl⟩ := h
  obtain ⟨hn, rfl⟩ := issued_ok hissued
  exact ⟨n, hn, rfl⟩

/-- An allocator has made its way along the stops and reported how many ids that took. -/
def Numbers (message : String) (s : Allocating) (before after : List Stop) (s' : Allocating) : Prop :=
  ∃ s₁ m n, Tours s before after s₁ ∧ s.ids.issued = .ok m ∧ s₁.ids.issued = .ok n ∧
    s' = { s₁ with events := s₁.events ++ [countEvent message (n - m)] }

theorem program_numbers {p p' : Program} (h : program p s = .ok p' s') :
    Numbers "allocated program" s p.walk p'.walk s' := by
  simp only [program, bind_ok_iff, pure_ok_iff] at h
  obtain ⟨m, s₁, hissued, p₁, s₂, hscopes, _, s₃, hreport, rfl, rfl⟩ := h
  obtain ⟨hm, rfl⟩ := issued_ok hissued
  obtain ⟨n, hn, rfl⟩ := reportSince_ok hreport
  exact ⟨s₂, m, n, scopes_tours hscopes, hm, hn, rfl⟩

theorem catalog_numbers {c c' : Catalog} (h : catalog c s = .ok c' s') :
    Numbers "allocated catalog" s c.walk c'.walk s' := by
  simp only [catalog, bind_ok_iff, pure_ok_iff] at h
  obtain ⟨m, s₁, hissued, c₁, s₂, hlibraries, _, s₃, hreport, rfl, rfl⟩ := h
  obtain ⟨hm, rfl⟩ := issued_ok hissued
  obtain ⟨n, hn, rfl⟩ := reportSince_ok hreport
  exact ⟨s₂, m, n, libraries_tours hlibraries, hm, hn, rfl⟩

end Allocate

end TriggerScript
