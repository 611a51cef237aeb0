import TriggerScript.Proofs.Identifiers
import TriggerScript.Proofs.Numbering.Contiguous
import TriggerScript.Proofs.Tables

/-!
# Texts for display

What an allocator writes down on its way stays. The key of a row tells the type of the element and its
allocation, whatever the names of the libraries are, and no two nodes have the same allocation. So every
node with a label or a text has a row of its own, and the rows stand in the order of the walk. Only a
library that a catalog opens again is labelled again; the row stays at its place and gets the new
description.

The main result is `Allocate.texts_kept`.
-/

namespace TriggerScript

/-! ## Keys -/

lemma ElementType.name_injective {type type' : ElementType} (h : type.name = type'.name) :
    type = type' := by
  revert h
  cases type <;> cases type' <;> decide

lemma ElementId.length_chars (id : ElementId) : id.chars.length = 8 :=
  rfl

namespace Allocation

lemma libraryKey_injective {l l' : String} (h : libraryKey l = libraryKey l') : l = l' := by
  have hempty : ∀ name : String, "" ≠ "lib_" ++ name ++ "_" := by
    intro name hname
    simpa using congrArg String.toList hname
  unfold libraryKey at h
  split_ifs at h with hl hl' hl'
  · rw [hl, hl']
  · exact absurd h (hempty l')
  · exact absurd h.symm (hempty l)
  · have hchars : l.toList = l'.toList := by
      simpa using congrArg String.toList h
    exact String.toList_inj.1 hchars

/-- The id takes the last eight characters, so the library in front of it can be read off. -/
lemma stringKey_injective {a b : Allocation} (h : a.stringKey = b.stringKey) : a = b := by
  have hchars : (libraryKey a.library).toList ++ a.id.chars =
      (libraryKey b.library).toList ++ b.id.chars := by
    simpa [stringKey, ElementId.text] using congrArg String.toList h
  have hlength : a.id.chars.length = b.id.chars.length := by
    rw [ElementId.length_chars, ElementId.length_chars]
  obtain ⟨hlibrary, hid⟩ := List.append_inj' hchars hlength
  have hlibrary : a.library = b.library := libraryKey_injective (String.toList_inj.1 hlibrary)
  have hid : a.id = b.id := ElementId.text_injective (congrArg String.ofList hid)
  cases a
  cases b
  cases hlibrary
  cases hid
  rfl

/-- A word without a slash can be read off the front of a key. -/
lemma eq_of_key_eq {word word' rest rest' : String} (hword : '/' ∉ word.toList)
    (hword' : '/' ∉ word'.toList) (h : word ++ "/Name/" ++ rest = word' ++ "/Name/" ++ rest') :
    word = word' ∧ rest = rest' := by
  have hchars : word.toList ++ '/' :: ("Name/".toList ++ rest.toList) =
      word'.toList ++ '/' :: ("Name/".toList ++ rest'.toList) := by
    simpa using congrArg String.toList h
  have htake : ∀ front back : List Char, '/' ∉ front →
      (front ++ '/' :: back).takeWhile (· ≠ '/') = front := by
    intro front back hfront
    rw [List.takeWhile_append_of_pos]
    · simp
    · exact fun c hc => decide_eq_true fun heq => hfront (heq ▸ hc)
  have hwords : word.toList = word'.toList := by
    rw [← htake _ _ hword, hchars, htake _ _ hword']
  rw [hwords, List.append_cancel_left_eq, List.cons.injEq, List.append_cancel_left_eq] at hchars
  exact ⟨String.toList_inj.1 hwords, String.toList_inj.1 hchars.2⟩

lemma slash_not_mem_name (type : ElementType) : '/' ∉ type.name.toList := by
  cases type <;> decide

lemma labelKey_injective {type type' : ElementType} {a b : Allocation}
    (h : a.labelKey type = b.labelKey type') : type = type' ∧ a = b := by
  obtain ⟨hname, hkey⟩ := eq_of_key_eq (slash_not_mem_name type) (slash_not_mem_name type') h
  exact ⟨ElementType.name_injective hname, stringKey_injective hkey⟩

lemma valueKey_injective {a b : Allocation} (h : a.valueKey = b.valueKey) : a = b := by
  have hchars := congrArg String.toList h
  rw [valueKey, valueKey, String.toList_append, String.toList_append] at hchars
  exact stringKey_injective (String.toList_inj.1 (List.append_cancel_left hchars))

/-- No element has the key of a library. -/
lemma labelKey_ne (type : ElementType) (a : Allocation) (name : String) :
    a.labelKey type ≠ CatalogLibrary.labelKey name := by
  intro h
  have hkeys : type.name ++ "/Name/" ++ a.stringKey = "Library" ++ "/Name/" ++ name := h
  obtain ⟨hword, -⟩ := eq_of_key_eq (slash_not_mem_name type) (by decide) hkeys
  revert hword
  cases type <;> decide

end Allocation

lemma CatalogLibrary.labelKey_injective {name name' : String}
    (h : CatalogLibrary.labelKey name = CatalogLibrary.labelKey name') : name = name' := by
  have hchars := congrArg String.toList h
  rw [labelKey, labelKey, String.toList_append, String.toList_append] at hchars
  exact String.toList_inj.1 (List.append_cancel_left hchars)

/-! ## Rows of a walk -/

/-- The description that a library gets at the stop. -/
def Stop.description? (name : String) : Stop → Option String
  | node _ _ => none
  | heading n description => if n = name then some description else none

/-- The descriptions that a library gets on the way. -/
def descriptions (name : String) (stops : List Stop) : List String :=
  stops.filterMap (Stop.description? name)

/-- The rows that a walk leaves in the labels. Each node with a label has a row. A library has one where
its first label is written, unless it is among those seen before, with the last of its descriptions. -/
def tableRows (seen : List String) : List Stop → List (String × String)
  | [] => []
  | .node _ site :: rest => site.labelRow?.toList ++ tableRows seen rest
  | .heading name description :: rest =>
    if name ∈ seen then tableRows seen rest
    else
      (CatalogLibrary.labelKey name, (descriptions name rest).getLastD description) ::
        tableRows (name :: seen) rest

namespace Site

variable {site : Site} {row : String × String}

lemma labelRow?_eq_some_iff : site.labelRow? = some row ↔
    ∃ type a text, site.type = some type ∧ site.allocation = some a ∧ site.label = some text ∧
      row = (a.labelKey type, text) := by
  obtain ⟨_ | type, _ | a, _ | text, literal⟩ := site <;> simp [labelRow?, eq_comm]

lemma valueRow?_eq_some_iff : site.valueRow? = some row ↔
    ∃ a text, site.allocation = some a ∧ site.literal = some text ∧ row = (a.valueKey, text) := by
  obtain ⟨type, _ | a, label, _ | text⟩ := site <;> simp [valueRow?, eq_comm]

/-- Nodes with different allocations have different rows. -/
lemma allocation_eq_of_labelRow? {site' : Site} {row' : String × String}
    (h : site.labelRow? = some row) (h' : site'.labelRow? = some row') (hkey : row.1 = row'.1) :
    site.allocation = site'.allocation := by
  obtain ⟨type, a, text, -, ha, -, rfl⟩ := labelRow?_eq_some_iff.1 h
  obtain ⟨type', a', text', -, ha', -, rfl⟩ := labelRow?_eq_some_iff.1 h'
  rw [ha, ha', (Allocation.labelKey_injective hkey).2]

lemma allocation_eq_of_valueRow? {site' : Site} {row' : String × String}
    (h : site.valueRow? = some row) (h' : site'.valueRow? = some row') (hkey : row.1 = row'.1) :
    site.allocation = site'.allocation := by
  obtain ⟨a, text, ha, -, rfl⟩ := valueRow?_eq_some_iff.1 h
  obtain ⟨a', text', ha', -, rfl⟩ := valueRow?_eq_some_iff.1 h'
  rw [ha, ha', Allocation.valueKey_injective hkey]

end Site

/-- The nodes on the way have different allocations. -/
def Apart (stops : List Stop) : Prop :=
  ((sitesOf stops).map Site.allocation).Nodup

lemma Walks.apart {s s' : Allocating} {stops : List Stop} (h : Walks s stops s') : Apart stops := by
  have hnodup := h.issues.nodup
  rwa [List.map_map] at hnodup

lemma Apart.of_cons {stop : Stop} {stops : List Stop} (h : Apart (stop :: stops)) : Apart stops := by
  cases stop with
  | node => exact (List.nodup_cons.1 h).2
  | heading => exact h

section Keys

variable {site : Site} {row : String × String} {stops : List Stop}

/-- The label of a node that is not among the stops has a new key. -/
lemma labelKey_not_mem (hsite : site.allocation ∉ (sitesOf stops).map Site.allocation)
    (hrow : site.labelRow? = some row) : row.1 ∉ (stops.flatMap Stop.labelRows).map Prod.fst := by
  intro hmem
  obtain ⟨row', hrow', hkey⟩ := List.mem_map.1 hmem
  obtain ⟨stop, hstop, hrow'⟩ := List.mem_flatMap.1 hrow'
  cases stop with
  | node library site' =>
    have hsite' : site' ∈ sitesOf stops := List.mem_filterMap.2 ⟨_, hstop, rfl⟩
    have heq := Site.allocation_eq_of_labelRow? (Option.mem_toList.1 hrow') hrow hkey
    exact hsite (heq ▸ List.mem_map_of_mem hsite')
  | heading name description =>
    obtain rfl := List.mem_singleton.1 hrow'
    obtain ⟨type, a, text, -, -, -, rfl⟩ := Site.labelRow?_eq_some_iff.1 hrow
    exact Allocation.labelKey_ne type a name hkey.symm

/-- The text of a literal that is not among the stops has a new key. -/
lemma valueKey_not_mem (hsite : site.allocation ∉ (sitesOf stops).map Site.allocation)
    (hrow : site.valueRow? = some row) : row.1 ∉ (stops.flatMap Stop.valueRows).map Prod.fst := by
  intro hmem
  obtain ⟨row', hrow', hkey⟩ := List.mem_map.1 hmem
  obtain ⟨stop, hstop, hrow'⟩ := List.mem_flatMap.1 hrow'
  cases stop with
  | node library site' =>
    have hsite' : site' ∈ sitesOf stops := List.mem_filterMap.2 ⟨_, hstop, rfl⟩
    have heq := Site.allocation_eq_of_valueRow? (Option.mem_toList.1 hrow') hrow hkey
    exact hsite (heq ▸ List.mem_map_of_mem hsite')
  | heading name description => cases hrow'

/-- Only a library that gets a label on the way has its key there. -/
lemma descriptions_ne_nil {name : String}
    (h : CatalogLibrary.labelKey name ∈ (stops.flatMap Stop.labelRows).map Prod.fst) :
    descriptions name stops ≠ [] := by
  obtain ⟨row, hrow, hkey⟩ := List.mem_map.1 h
  obtain ⟨stop, hstop, hrow⟩ := List.mem_flatMap.1 hrow
  cases stop with
  | node library site =>
    obtain ⟨type, a, text, -, -, -, rfl⟩ := Site.labelRow?_eq_some_iff.1 (Option.mem_toList.1 hrow)
    exact absurd hkey (Allocation.labelKey_ne type a name)
  | heading n description =>
    obtain rfl := List.mem_singleton.1 hrow
    have hname : n = name := CatalogLibrary.labelKey_injective hkey
    refine List.ne_nil_of_mem (a := description) (List.mem_filterMap.2 ⟨_, hstop, ?_⟩)
    rw [Stop.description?, if_pos hname]

end Keys

/-! ## Rows that stay -/

section Rows

variable {stops : List Stop}

/-- The last text of a library is its last description. -/
lemma lastText_labelRows (name description : String) :
    StringTable.lastText (CatalogLibrary.labelKey name) description (stops.flatMap Stop.labelRows) =
      (descriptions name stops).getLastD description := by
  induction stops generalizing description with
  | nil => rfl
  | cons stop rest ih =>
    rw [List.flatMap_cons]
    cases stop with
    | node library site =>
      have hdescriptions : descriptions name (.node library site :: rest) = descriptions name rest := rfl
      rw [hdescriptions, ← ih]
      rcases hrow : site.labelRow? with _ | row
      · rw [Stop.labelRows, hrow]
        rfl
      · obtain ⟨type, a, text, -, -, -, rfl⟩ := Site.labelRow?_eq_some_iff.1 hrow
        rw [Stop.labelRows, hrow, Option.toList_some, List.singleton_append, StringTable.lastText,
          if_neg (Allocation.labelKey_ne type a name)]
    | heading n d =>
      rw [Stop.labelRows, List.singleton_append, StringTable.lastText, ih]
      by_cases hname : n = name
      · subst hname
        have hdescriptions : descriptions n (.heading n d :: rest) = d :: descriptions n rest := by
          simp [descriptions, Stop.description?]
        rw [if_pos rfl, hdescriptions, List.getLastD_cons]
      · have hkey : CatalogLibrary.labelKey n ≠ CatalogLibrary.labelKey name :=
          fun h => hname (CatalogLibrary.labelKey_injective h)
        simp [descriptions, Stop.description?, hname, hkey]

/-- Of the rows that are written on the way, those that stay are the rows of the walk. -/
lemma merged_labelRows (h : Apart stops) (seen : List String) :
    (StringTable.merged (stops.flatMap Stop.labelRows)).filter
      (·.1 ∉ seen.map CatalogLibrary.labelKey) = tableRows seen stops := by
  induction stops generalizing seen with
  | nil => rfl
  | cons stop rest ih =>
    have ih := ih h.of_cons
    rw [List.flatMap_cons]
    cases stop with
    | node library site =>
      rw [tableRows, Stop.labelRows]
      rcases hrow : site.labelRow? with _ | row
      · exact ih seen
      · have hnew : row.1 ∉ (rest.flatMap Stop.labelRows).map Prod.fst :=
          labelKey_not_mem (List.nodup_cons.1 h).1 hrow
        have hseen : row.1 ∉ seen.map CatalogLibrary.labelKey := by
          obtain ⟨type, a, text, -, -, -, rfl⟩ := Site.labelRow?_eq_some_iff.1 hrow
          intro hmem
          obtain ⟨name, -, hname⟩ := List.mem_map.1 hmem
          exact Allocation.labelKey_ne type a name hname.symm
        rw [Option.toList_some, List.singleton_append, List.singleton_append, StringTable.merged,
          StringTable.lastText_of_not_mem hnew, List.filter_cons_of_pos (by simpa using hseen),
          ← ih seen, List.filter_filter]
        refine congrArg _ (List.filter_congr fun r hr => ?_)
        have hne : r.1 ≠ row.1 := by
          intro heq
          exact hnew (heq ▸ StringTable.mem_keys_merged.1 (List.mem_map_of_mem hr))
        simp [hne]
    | heading name description =>
      rw [tableRows, Stop.labelRows, List.singleton_append, StringTable.merged]
      by_cases hname : name ∈ seen
      -- the label of a library that has been seen is not listed again
      · have hkey : CatalogLibrary.labelKey name ∈ seen.map CatalogLibrary.labelKey :=
          List.mem_map_of_mem hname
        rw [if_pos hname, List.filter_cons_of_neg (by simpa using hkey), ← ih seen, List.filter_filter]
        refine List.filter_congr fun r _ => ?_
        by_cases hr : r.1 = CatalogLibrary.labelKey name
        · simp only [hr, hkey, not_true_eq_false, decide_false, Bool.false_and]
        · simp [hr]
      · have hkey : CatalogLibrary.labelKey name ∉ seen.map CatalogLibrary.labelKey := by
          intro hmem
          obtain ⟨n, hn, hkeys⟩ := List.mem_map.1 hmem
          exact hname (CatalogLibrary.labelKey_injective hkeys ▸ hn)
        rw [if_neg hname, List.filter_cons_of_pos (by simpa using hkey), lastText_labelRows,
          ← ih (name :: seen), List.filter_filter]
        refine congrArg _ (List.filter_congr fun r _ => ?_)
        by_cases hr : r.1 = CatalogLibrary.labelKey name <;> simp [hr]

/-- A row of the labels is that of a library or of a node. -/
lemma exists_of_mem_tableRows {seen : List String} {row : String × String}
    (h : row ∈ tableRows seen stops) : (∃ name, row.1 = CatalogLibrary.labelKey name) ∨
      ∃ site ∈ sitesOf stops, site.labelRow? = some row := by
  induction stops generalizing seen with
  | nil => cases h
  | cons stop rest ih =>
    cases stop with
    | node library site =>
      rw [tableRows, List.mem_append, Option.mem_toList] at h
      rcases h with hrow | h
      · exact .inr ⟨site, List.mem_cons_self, hrow⟩
      · refine (ih h).imp_right fun ⟨site', hsite', hrow⟩ => ?_
        exact ⟨site', List.mem_cons_of_mem _ hsite', hrow⟩
    | heading name description =>
      rw [tableRows] at h
      split_ifs at h
      · exact ih h
      · rcases List.mem_cons.1 h with rfl | h
        · exact .inl ⟨name, rfl⟩
        · exact ih h

/-- The label of a node has a row. -/
lemma mem_tableRows {seen : List String} {site : Site} {row : String × String}
    (hsite : site ∈ sitesOf stops) (hrow : site.labelRow? = some row) :
    row ∈ tableRows seen stops := by
  induction stops generalizing seen with
  | nil => cases hsite
  | cons stop rest ih =>
    cases stop with
    | node library site' =>
      rw [tableRows, List.mem_append, Option.mem_toList]
      rcases List.mem_cons.1 hsite with rfl | hsite
      · exact .inl hrow
      · exact .inr (ih hsite)
    | heading name description =>
      have hrest : site ∈ sitesOf rest := hsite
      rw [tableRows]
      split_ifs
      · exact ih hrest
      · exact List.mem_cons_of_mem _ (ih hrest)

/-- The rows of the values are those of the nodes. -/
lemma mem_valueRows_iff {row : String × String} :
    row ∈ stops.flatMap Stop.valueRows ↔ ∃ site ∈ sitesOf stops, site.valueRow? = some row := by
  simp only [List.mem_flatMap, sitesOf, List.mem_filterMap]
  constructor
  · rintro ⟨stop | stop, hstop, hrow⟩
    · exact ⟨_, ⟨_, hstop, rfl⟩, Option.mem_toList.1 hrow⟩
    · cases hrow
  · rintro ⟨site, ⟨stop, hstop, hsite⟩, hrow⟩
    refine ⟨stop, hstop, ?_⟩
    cases stop with
    | node library site' =>
      obtain rfl := Option.some.inj hsite
      exact Option.mem_toList.2 hrow
    | heading => cases hsite

lemma nodup_valueKeys (h : Apart stops) : ((stops.flatMap Stop.valueRows).map Prod.fst).Nodup := by
  induction stops with
  | nil => exact List.nodup_nil
  | cons stop rest ih =>
    have ih := ih h.of_cons
    cases stop with
    | node library site =>
      rw [List.flatMap_cons, Stop.valueRows]
      rcases hrow : site.valueRow? with _ | row
      · exact ih
      · exact List.nodup_cons.2 ⟨valueKey_not_mem (List.nodup_cons.1 h).1 hrow, ih⟩
    | heading => exact ih

end Rows

/-! ## Reports -/

/-- The tables as they are behind stops that were walked over from the start. -/
structure Behind (front : List Stop) (s : Allocating) : Prop where
  labels : s.labels = .ofRows (front.flatMap Stop.labelRows)
  values : s.values = .ofRows (front.flatMap Stop.valueRows)

namespace Behind

variable {front : List Stop} {s : Allocating}

lemma write (hs : Behind front s) (stop : Stop) :
    Behind (front ++ [stop]) (s.write stop.labelRows stop.valueRows) := by
  constructor
  · rw [List.flatMap_append, List.flatMap_singleton, StringTable.ofRows, StringTable.putAll_append]
    exact congrArg (·.putAll stop.labelRows) hs.labels
  · rw [List.flatMap_append, List.flatMap_singleton, StringTable.ofRows, StringTable.putAll_append]
    exact congrArg (·.putAll stop.valueRows) hs.values

/-- Nothing is reported at a node. -/
lemma events_node (hs : Behind front s) {site : Site}
    (hsite : site.allocation ∉ (sitesOf front).map Site.allocation) :
    (s.write site.labelRow?.toList site.valueRow?.toList).events = s.events := by
  have hlabels : s.labels.putAllEvents site.labelRow?.toList = [] := by
    rcases hrow : site.labelRow? with _ | row
    · rfl
    · have hnew := labelKey_not_mem hsite hrow
      rw [Option.toList_some, StringTable.putAllEvents, hs.labels, StringTable.putEvents_ofRows hnew]
      rfl
  have hvalues : s.values.putAllEvents site.valueRow?.toList = [] := by
    rcases hrow : site.valueRow? with _ | row
    · rfl
    · have hnew := valueKey_not_mem hsite hrow
      rw [Option.toList_some, StringTable.putAllEvents, hs.values, StringTable.putEvents_ofRows hnew]
      rfl
  rw [Allocating.write, hlabels, hvalues]
  exact List.append_nil _

/-- At a library it is reported if the library has a label already. -/
lemma events_heading (hs : Behind front s) (name description : String) :
    ∀ event ∈ (s.write [(CatalogLibrary.labelKey name, description)] []).events, event ∈ s.events ∨
      event.fields.lookup "key" = some (CatalogLibrary.labelKey name) ∧
        descriptions name front ≠ [] := by
  intro event hevent
  simp only [Allocating.write, StringTable.putAllEvents, List.append_nil, List.mem_append] at hevent
  refine hevent.imp_right fun hevent => ⟨?_, descriptions_ne_nil ?_⟩
  · rw [StringTable.putEvents] at hevent
    split at hevent
    · cases hevent
    · obtain rfl := List.mem_singleton.1 hevent
      rfl
  · by_contra hnew
    rw [hs.labels, StringTable.putEvents_ofRows hnew] at hevent
    cases hevent

end Behind

namespace Walks

variable {s s' : Allocating} {stops front : List Stop}

lemma behind (h : Walks s stops s') (hs : Behind front s) : Behind (front ++ stops) s' := by
  induction h generalizing front with
  | nil =>
    rw [List.append_nil]
    exact hs
  | @node s s' library site rest id ids hnext hsite _ ih =>
    have hids : Behind front { s with ids } := ⟨hs.labels, hs.values⟩
    rw [List.append_cons]
    exact ih (hids.write (.node library site))
  | heading _ ih =>
    rw [List.append_cons]
    exact ih (hs.write (.heading _ _))

/-- Only a library that has a label already is reported. -/
lemma events (h : Walks s stops s') (hs : Behind front s) (hapart : Apart (front ++ stops)) :
    ∀ event ∈ s'.events, event ∈ s.events ∨
      ∃ name, event.fields.lookup "key" = some (CatalogLibrary.labelKey name) ∧
        2 ≤ (descriptions name (front ++ stops)).length := by
  induction h generalizing front with
  | nil => exact fun event hevent => .inl hevent
  | @node s s' library site rest id ids hnext hsite _ ih =>
    have hids : Behind front { s with ids } := ⟨hs.labels, hs.values⟩
    have hnew : site.allocation ∉ (sitesOf front).map Site.allocation := by
      rw [Apart, sitesOf_append, List.map_append, List.nodup_append] at hapart
      intro hmem
      exact hapart.2.2 _ hmem _ List.mem_cons_self rfl
    have hevents := hids.events_node hnew
    rw [List.append_cons] at hapart ⊢
    intro event hevent
    have := ih (hids.write (.node library site)) hapart event hevent
    rwa [hevents] at this
  | @heading s s' name description rest _ ih =>
    rw [List.append_cons] at hapart ⊢
    intro event hevent
    rcases ih (hs.write (.heading name description)) hapart event hevent with hold | hlater
    · refine (hs.events_heading name description event hold).imp_right fun ⟨hkey, hfront⟩ => ?_
      -- the library has a description in front, and one here
      have hlength : 0 < (descriptions name front).length := List.length_pos_iff.2 hfront
      have hdescriptions : descriptions name (front ++ [.heading name description] ++ rest) =
          descriptions name front ++ description :: descriptions name rest := by
        simp [descriptions, Stop.description?]
      refine ⟨name, hkey, ?_⟩
      rw [hdescriptions, List.length_append, List.length_cons]
      omega
    · exact .inr hlater

end Walks

/-! ## The tables of a run -/

lemma descriptions_eq_of_same {stops stops' : List Stop}
    (h : stops.map Stop.blank = stops'.map Stop.blank) (name : String) :
    descriptions name stops = descriptions name stops' := by
  have hblank : ∀ stops, descriptions name (stops.map Stop.blank) = descriptions name stops := by
    intro stops
    rw [descriptions, List.filterMap_map]
    refine List.filterMap_congr fun stop _ => ?_
    cases stop <;> rfl
  rw [← hblank, h, hblank]

/-- No library gets a label in a program. -/
lemma Program.descriptions_walk (p : Program) (name : String) : descriptions name p.walk = [] := by
  rw [descriptions, List.filterMap_eq_nil_iff]
  intro stop hstop
  obtain ⟨sc, -, hstop⟩ := List.mem_flatMap.1 hstop
  rcases sc with s | s
  · obtain ⟨d, -, hstop⟩ := List.mem_flatMap.1 hstop
    obtain ⟨site, -, rfl⟩ := List.mem_map.1 hstop
    rfl
  · obtain ⟨d, -, hstop⟩ := List.mem_flatMap.1 hstop
    obtain ⟨site, -, rfl⟩ := List.mem_map.1 hstop
    rfl

/-- What an allocator reports while it works is reported in the run. -/
lemma Allocator.run_start_log {α : Type} {a : Allocator} {work : Allocate α} {x : α} {s : Allocating}
    (h : work { a with } = .ok x s) : (a.run work).start.2 = s.events := by
  rw [Allocator.run, h]
  rfl

/-- The tables of an allocator hold the rows of the walk over a program and a catalog. -/
structure Tabulated (p : Program) (c : Catalog) (a : Allocator) : Prop where
  apart : Apart (p.walk ++ c.walk)
  labels : a.labels.rows = tableRows [] (p.walk ++ c.walk)
  values : a.values.rows = (p.walk ++ c.walk).flatMap Stop.valueRows

namespace Tabulated

variable {p : Program} {c : Catalog} {a : Allocator} {site : Site} {row : String × String}

lemma get?_label (h : Tabulated p c a) (hsite : site ∈ sitesOf (p.walk ++ c.walk))
    (hrow : site.labelRow? = some row) : a.labels.get? row.1 = some row.2 := by
  apply StringTable.get?_of_mem
  rw [h.labels]
  exact mem_tableRows hsite hrow

lemma get?_value (h : Tabulated p c a) (hsite : site ∈ sitesOf (p.walk ++ c.walk))
    (hrow : site.valueRow? = some row) : a.values.get? row.1 = some row.2 := by
  apply StringTable.get?_of_mem
  rw [h.values]
  exact mem_valueRows_iff.2 ⟨site, hsite, hrow⟩

end Tabulated

/-- A fresh allocator that numbers a program and then a catalog writes down the rows of their walk. -/
lemma Allocate.tabulated {p₀ p : Program} {c₀ c : Catalog} {a final : Allocator}
    (hp : (({} : Allocator).run (Allocate.program p₀)).start.1 = .ok (p, a))
    (hc : (a.run (Allocate.catalog c₀)).start.1 = .ok (c, final)) : Tabulated p c final := by
  obtain ⟨s, htours, rfl, -⟩ := exists_tours hp hc
  have hapart : Apart (p.walk ++ c.walk) := htours.walks.apart
  have hstart : Behind [] {} := ⟨rfl, rfl⟩
  have hbehind : Behind (p.walk ++ c.walk) s := htours.walks.behind hstart
  refine ⟨hapart, ?_, ?_⟩
  · rw [hbehind.labels, StringTable.rows_ofRows, ← merged_labelRows hapart []]
    exact (List.filter_eq_self.2 fun row _ => rfl).symm
  · rw [hbehind.values, StringTable.rows_ofRows, StringTable.merged_of_nodup (nodup_valueKeys hapart)]

/-- A warning of the two runs is about a library that gets a second label. -/
lemma Allocate.warnings {p₀ p : Program} {c₀ c : Catalog} {a final : Allocator}
    (hp : (({} : Allocator).run (Allocate.program p₀)).start.1 = .ok (p, a))
    (hc : (a.run (Allocate.catalog c₀)).start.1 = .ok (c, final)) (hapart : Apart (p.walk ++ c.walk)) :
    ∀ event ∈ (({} : Allocator).run (Allocate.program p₀)).start.2 ++
        (a.run (Allocate.catalog c₀)).start.2,
      event.level = .warn →
        ∃ name, event.fields.lookup "key" = some (CatalogLibrary.labelKey name) ∧
          2 ≤ (descriptions name (p.walk ++ c.walk)).length := by
  obtain ⟨s, hs, rfl⟩ := Allocator.run_start_ok hp
  obtain ⟨s', hs', rfl⟩ := Allocator.run_start_ok hc
  rw [Allocator.run_start_log hs, Allocator.run_start_log hs']
  obtain ⟨s₁, m, n, htours, -, -, rfl⟩ := program_numbers hs
  obtain ⟨s₂, m', n', htours', -, -, rfl⟩ := catalog_numbers hs'
  have hstart : Behind [] {} := ⟨rfl, rfl⟩
  have hbehind : Behind p.walk s₁ := htours.walks.behind hstart
  intro event hevent hlevel
  rcases List.mem_append.1 hevent with hevent | hevent
  · rcases List.mem_append.1 hevent with hevent | hevent
    · rcases htours.walks.events hstart htours.walks.apart event hevent with h | h
      · cases h
      -- a program has no libraries with labels
      · obtain ⟨name, -, hlength⟩ := h
        rw [List.nil_append, p.descriptions_walk] at hlength
        exact absurd hlength (by decide)
    · obtain rfl := List.mem_singleton.1 hevent
      cases hlevel
  · rcases List.mem_append.1 hevent with hevent | hevent
    · have hbegin : Behind p.walk { s₁.toAllocator with } := ⟨hbehind.labels, hbehind.values⟩
      rcases htours'.walks.events hbegin hapart event hevent with h | h
      · cases h
      · exact h
    · obtain rfl := List.mem_singleton.1 hevent
      cases hlevel

/-- The texts for display are kept. Let a fresh allocator number a program and then a catalog. Its stops
are those of the two, with their slots filled. Then the rows of the labels are, in the order of the walk,
one for each node with a label and one for each library of the catalog other than the default one, at
its first place and with its last description. The rows of the values are one for each literal. If a key
is reported as written twice, it is the key of a library that the catalog opens more than once. -/
theorem Allocate.texts_kept {p₀ p : Program} {c₀ c : Catalog} {a final : Allocator}
    (hp : (({} : Allocator).run (Allocate.program p₀)).start.1 = .ok (p, a))
    (hc : (a.run (Allocate.catalog c₀)).start.1 = .ok (c, final)) :
    (p.walk ++ c.walk).map Stop.blank = (p₀.walk ++ c₀.walk).map Stop.blank ∧
      (∀ library site, .node library site ∈ p.walk ++ c.walk →
        ∃ id, site.allocation = some ⟨library, id⟩) ∧
      final.labels.rows = tableRows [] (p.walk ++ c.walk) ∧
      final.values.rows = (p.walk ++ c.walk).flatMap Stop.valueRows ∧
      ∀ event ∈ (({} : Allocator).run (Allocate.program p₀)).start.2 ++
          (a.run (Allocate.catalog c₀)).start.2,
        event.level = .warn →
          ∃ name, event.fields.lookup "key" = some (CatalogLibrary.labelKey name) ∧
            2 ≤ (descriptions name c₀.walk).length := by
  obtain ⟨s, htours, -⟩ := exists_tours hp hc
  have h := tabulated hp hc
  refine ⟨htours.same, fun library site => htours.walks.allocation_of_mem, h.labels, h.values, ?_⟩
  intro event hevent hlevel
  obtain ⟨name, hkey, hlength⟩ := warnings hp hc h.apart event hevent hlevel
  have hdescriptions : descriptions name (p.walk ++ c.walk) = descriptions name c₀.walk := by
    rw [descriptions_eq_of_same htours.same, descriptions, List.filterMap_append,
      show p₀.walk.filterMap (Stop.description? name) = [] from p₀.descriptions_walk name]
    rfl
  exact ⟨name, hkey, hdescriptions ▸ hlength⟩

/-- A library that a catalog opens twice has one row, with the second description. -/
theorem Allocate.texts_kept_sample :
    Sample.turnsListed.2.labels.rows =
        [("Preset/Name/lib_Tools_10000001", "Pace"), ("PresetValue/Name/lib_Tools_10000002", "slow"),
          ("PresetValue/Name/lib_Tools_10000003", "fast"), ("Variable/Name/10000002", "greeting"),
          ("FunctionDef/Name/lib_Tools_10000004", "Greet"),
          ("ParamDef/Name/lib_Tools_10000005", "name"), ("Library/Name/Tools", "Second"),
          ("Category/Name/lib_Tools_10000008", "Actions"), ("Category/Name/10000004", "All")] ∧
      Sample.turnsListed.2.values.rows =
        [("Param/Value/10000001", "hello"), ("Param/Value/10000003", "hi")] ∧
      ∀ event ∈ (({} : Allocator).run (Allocate.program Sample.turns)).start.2 ++
          (Sample.turnsNumbered.2.run (Allocate.catalog Sample.turnsListing)).start.2,
        event.level = .warn →
          ∃ name, event.fields.lookup "key" = some (CatalogLibrary.labelKey name) ∧
            2 ≤ (descriptions name Sample.turnsListing.walk).length := by
  obtain ⟨-, -, hlabels, hvalues, hevents⟩ :=
    texts_kept Sample.turnsNumbered_ok Sample.turnsListed_ok
  rw [hlabels, hvalues]
  exact ⟨by decide +kernel, by decide +kernel, hevents⟩

end TriggerScript
