import Mathlib.Tactic.Lemma
import TriggerScript.Symbols

/-!
# The last declaration of a name

A program declares its entities one after the other, whatever sections they stand in. A name means
the entity that bears it and was declared last among the entities of its kind.

The main definitions are `Program.callable?`, `Program.preset?`, `Program.global?` and
`Program.listed?`; the dictionaries of a program yield the same entities
(`Symbols.callable_ofProgram_ok_iff` and the lemmas behind it).
-/

namespace TriggerScript

/-- The name of a preset. -/
def Preset.name : Preset → String
  | library d => d.name
  | external d => d.name

/-- The name of a global variable. -/
def Global.name : Global → String
  | library d => d.name
  | external d => d.name

namespace Entry

/-- What an imported entity declares. -/
def ofExternal : ExternalDefinition → Entry
  | .preset d => .preset (.external d)
  | .function d => .callable (.external d)
  | .variable d => .global (.external d)

/-- What a definition declares. -/
def ofDefinition : Definition → Entry
  | .preset d => .preset (.library d)
  | .function d => .callable (.library d)
  | .trigger d => .trigger d
  | .variable d => .global (.library d)

/-- A preset under its name. -/
def preset? : Entry → Option (String × Preset)
  | .preset p => some (p.name, p)
  | _ => none

/-- A callable entity under its name. -/
def callable? : Entry → Option (String × Callable)
  | .callable c => some (c.name, c)
  | _ => none

/-- A trigger under its name. -/
def trigger? : Entry → Option (String × TriggerDef)
  | .trigger d => some (d.name, d)
  | _ => none

/-- A global variable under its name. -/
def global? : Entry → Option (String × Global)
  | .global g => some (g.name, g)
  | _ => none

end Entry

/-- What a section declares, in order. -/
def Scope.entries : Scope → List Entry
  | .import_ s => s.definitions.map .ofExternal
  | .library s => s.definitions.map .ofDefinition

namespace Program

variable {p : Program} {name : String}

/-- What a program declares, in order. -/
def entries (p : Program) : List Entry :=
  p.scopes.flatMap Scope.entries

/-- The entity of a kind that was declared last under a name. -/
def last? {α : Type} (kind : Entry → Option (String × α)) (p : Program) (name : String) :
    Option α :=
  (p.entries.filterMap kind).reverse.lookup name

/-- The preset that a name means. -/
def preset? : Program → String → Option Preset :=
  last? Entry.preset?

/-- The callable entity that a name means. -/
def callable? : Program → String → Option Callable :=
  last? Entry.callable?

/-- The trigger that a name means. -/
def trigger? : Program → String → Option TriggerDef :=
  last? Entry.trigger?

/-- The global variable that a name means. -/
def global? : Program → String → Option Global :=
  last? Entry.global?

/-- What a catalog means by a name: a trigger, or else a callable entity, a preset or a global
variable. -/
def listed? (p : Program) (name : String) : Option Entry :=
  (p.trigger? name).map .trigger
    <|> (p.callable? name).map .callable
    <|> (p.preset? name).map .preset
    <|> (p.global? name).map .global

lemma mem_of_last? {α : Type} {kind : Entry → Option (String × α)} {x : α}
    (h : last? kind p name = some x) : ∃ e ∈ p.entries, kind e = some (name, x) := by
  have hmem : (name, x) ∈ (p.entries.filterMap kind).reverse := by
    rw [last?, List.lookup_eq_some_iff] at h
    obtain ⟨l₁, l₂, hl, -⟩ := h
    rw [hl]
    simp
  simpa using hmem

lemma mem_of_callable? {c : Callable} (h : p.callable? name = some c) : .callable c ∈ p.entries := by
  obtain ⟨e, he, hk⟩ := mem_of_last? h
  cases e <;> simp_all [Entry.callable?]

lemma mem_of_preset? {q : Preset} (h : p.preset? name = some q) : .preset q ∈ p.entries := by
  obtain ⟨e, he, hk⟩ := mem_of_last? h
  cases e <;> simp_all [Entry.preset?]

lemma mem_of_trigger? {d : TriggerDef} (h : p.trigger? name = some d) : .trigger d ∈ p.entries := by
  obtain ⟨e, he, hk⟩ := mem_of_last? h
  cases e <;> simp_all [Entry.trigger?]

lemma mem_of_global? {g : Global} (h : p.global? name = some g) : .global g ∈ p.entries := by
  obtain ⟨e, he, hk⟩ := mem_of_last? h
  cases e <;> simp_all [Entry.global?]

lemma mem_libraries {s : LibraryScope} : s ∈ p.libraries ↔ .library s ∈ p.scopes := by
  rw [libraries, List.mem_filterMap]
  constructor
  · rintro ⟨i | l, hl, h⟩
    · simp at h
    · simp only [Option.some.injEq] at h
      exact h ▸ hl
  · exact fun h => ⟨_, h, rfl⟩

lemma mem_imports {s : ImportScope} : s ∈ p.imports ↔ .import_ s ∈ p.scopes := by
  rw [imports, List.mem_filterMap]
  constructor
  · rintro ⟨i | l, hi, h⟩
    · simp only [Option.some.injEq] at h
      exact h ▸ hi
    · simp at h
  · exact fun h => ⟨_, h, rfl⟩

/-- What a program declares is imported or defined. -/
lemma mem_entries {e : Entry} : e ∈ p.entries ↔
    (∃ s ∈ p.imports, ∃ x ∈ s.definitions, Entry.ofExternal x = e) ∨
      ∃ s ∈ p.libraries, ∃ d ∈ s.definitions, Entry.ofDefinition d = e := by
  simp only [mem_imports, mem_libraries]
  rw [entries, List.mem_flatMap]
  constructor
  · rintro ⟨s | s, hs, he⟩
    · exact .inl ⟨s, hs, List.mem_map.1 he⟩
    · exact .inr ⟨s, hs, List.mem_map.1 he⟩
  · rintro (⟨s, hs, he⟩ | ⟨s, hs, he⟩)
    · exact ⟨_, hs, List.mem_map.2 he⟩
    · exact ⟨_, hs, List.mem_map.2 he⟩

lemma listed?_cases {e : Entry} (h : p.listed? name = some e) :
    (∃ d, p.trigger? name = some d ∧ .trigger d = e) ∨
      (∃ f, p.callable? name = some f ∧ .callable f = e) ∨
      (∃ q, p.preset? name = some q ∧ .preset q = e) ∨
      ∃ g, p.global? name = some g ∧ .global g = e := by
  simp only [listed?, Option.orElse_eq_orElse, Option.orElse_eq_or, Option.or_eq_some_iff,
    Option.map_eq_some_iff] at h
  rcases h with h | ⟨-, h | ⟨-, h | ⟨-, h⟩⟩⟩
  · exact .inl h
  · exact .inr (.inl h)
  · exact .inr (.inr (.inl h))
  · exact .inr (.inr (.inr h))

lemma mem_of_listed? {e : Entry} (h : p.listed? name = some e) : e ∈ p.entries := by
  rcases listed?_cases h with ⟨d, hd, rfl⟩ | ⟨f, hf, rfl⟩ | ⟨q, hq, rfl⟩ | ⟨g, hg, rfl⟩
  · exact mem_of_trigger? hd
  · exact mem_of_callable? hf
  · exact mem_of_preset? hq
  · exact mem_of_global? hg

/-- A callable entity is imported or defined. -/
lemma callable?_cases {f : Callable} (h : p.callable? name = some f) :
    (∃ s ∈ p.imports, ∃ d, .function d ∈ s.definitions ∧ f = .external d) ∨
      ∃ s ∈ p.libraries, ∃ d, .function d ∈ s.definitions ∧ f = .library d := by
  rcases mem_entries.1 (mem_of_callable? h) with ⟨s, hs, x, hx, hxf⟩ | ⟨s, hs, d, hd, hdf⟩
  · rcases x with x | x | x <;> simp only [Entry.ofExternal, Entry.callable.injEq, reduceCtorEq] at hxf
    exact .inl ⟨s, hs, x, hx, hxf.symm⟩
  · rcases d with d | d | d | d <;>
      simp only [Entry.ofDefinition, Entry.callable.injEq, reduceCtorEq] at hdf
    exact .inr ⟨s, hs, d, hd, hdf.symm⟩

/-- A preset is imported or defined. -/
lemma preset?_cases {q : Preset} (h : p.preset? name = some q) :
    (∃ s ∈ p.imports, ∃ d, .preset d ∈ s.definitions ∧ q = .external d) ∨
      ∃ s ∈ p.libraries, ∃ d, .preset d ∈ s.definitions ∧ q = .library d := by
  rcases mem_entries.1 (mem_of_preset? h) with ⟨s, hs, x, hx, hxq⟩ | ⟨s, hs, d, hd, hdq⟩
  · rcases x with x | x | x <;> simp only [Entry.ofExternal, Entry.preset.injEq, reduceCtorEq] at hxq
    exact .inl ⟨s, hs, x, hx, hxq.symm⟩
  · rcases d with d | d | d | d <;>
      simp only [Entry.ofDefinition, Entry.preset.injEq, reduceCtorEq] at hdq
    exact .inr ⟨s, hs, d, hd, hdq.symm⟩

/-- A global variable is imported or defined. -/
lemma global?_cases {g : Global} (h : p.global? name = some g) :
    (∃ s ∈ p.imports, ∃ d, .variable d ∈ s.definitions ∧ g = .external d) ∨
      ∃ s ∈ p.libraries, ∃ d, .variable d ∈ s.definitions ∧ g = .library d := by
  rcases mem_entries.1 (mem_of_global? h) with ⟨s, hs, x, hx, hxg⟩ | ⟨s, hs, d, hd, hdg⟩
  · rcases x with x | x | x <;> simp only [Entry.ofExternal, Entry.global.injEq, reduceCtorEq] at hxg
    exact .inl ⟨s, hs, x, hx, hxg.symm⟩
  · rcases d with d | d | d | d <;>
      simp only [Entry.ofDefinition, Entry.global.injEq, reduceCtorEq] at hdg
    exact .inr ⟨s, hs, d, hd, hdg.symm⟩

end Program

namespace Symbols

variable {p : Program} {name : String}

/-- The dictionaries with one more entity. -/
def add (s : Symbols) : Entry → Symbols
  | .preset p => { s with presets := (p.name, p) :: s.presets }
  | .callable c => { s with callables := (c.name, c) :: s.callables }
  | .trigger d => { s with triggers := (d.name, d) :: s.triggers }
  | .global g => { s with globals := (g.name, g) :: s.globals }

lemma addExternal_fst (library : String) (s : Symbols) (d : ExternalDefinition) :
    (addExternal library s d).1 = s.add (.ofExternal d) := by
  cases d <;> rfl

lemma addDefinition_fst (library : String) (s : Symbols) (d : Definition) :
    (addDefinition library s d).1 = s.add (.ofDefinition d) := by
  cases d <;> rfl

lemma addAll_fst {α : Type} (f : Symbols → α → Symbols × List Event) (s : Symbols) (l : List α) :
    (addAll f s l).1 = l.foldl (fun s d => (f s d).1) s := by
  induction l generalizing s with
  | nil => rfl
  | cons d rest ih => simp [addAll, ih]

lemma addScope_fst (s : Symbols) (scope : Scope) :
    (addScope s scope).1 = scope.entries.foldl add s := by
  cases scope <;>
    simp [addScope, Scope.entries, addAll_fst, addExternal_fst, addDefinition_fst, List.foldl_map]

/-- The dictionaries of a program come about by adding what it declares, in order. -/
lemma ofProgram_fst (p : Program) : (ofProgram p).1 = p.entries.foldl add {} := by
  simp [ofProgram, addAll_fst, addScope_fst, Program.entries, List.foldl_flatMap]

/-- A dictionary to which each entity adds itself, if it is of the right kind, lists the entities of
that kind from the last to the first. -/
lemma dictionary_ofProgram {α : Type} (dictionary : Symbols → List (String × α))
    (kind : Entry → Option (String × α)) (hnil : dictionary {} = [])
    (hadd : ∀ s e, dictionary (s.add e) = (kind e).toList ++ dictionary s) (p : Program) :
    dictionary (ofProgram p).1 = (p.entries.filterMap kind).reverse := by
  have hfold : ∀ (entries : List Entry) (s : Symbols),
      dictionary (entries.foldl add s) = (entries.filterMap kind).reverse ++ dictionary s := by
    intro entries
    induction entries with
    | nil => exact fun s => rfl
    | cons e rest ih =>
      intro s
      rw [List.foldl_cons, ih, hadd]
      rcases hk : kind e with _ | x <;> simp [hk]
  rw [ofProgram_fst, hfold, hnil, List.append_nil]

lemma callables_ofProgram (p : Program) :
    (ofProgram p).1.callables = (p.entries.filterMap Entry.callable?).reverse :=
  dictionary_ofProgram callables _ rfl (by intro s e; cases e <;> rfl) p

lemma presets_ofProgram (p : Program) :
    (ofProgram p).1.presets = (p.entries.filterMap Entry.preset?).reverse :=
  dictionary_ofProgram presets _ rfl (by intro s e; cases e <;> rfl) p

lemma triggers_ofProgram (p : Program) :
    (ofProgram p).1.triggers = (p.entries.filterMap Entry.trigger?).reverse :=
  dictionary_ofProgram triggers _ rfl (by intro s e; cases e <;> rfl) p

lemma globals_ofProgram (p : Program) :
    (ofProgram p).1.globals = (p.entries.filterMap Entry.global?).reverse :=
  dictionary_ofProgram globals _ rfl (by intro s e; cases e <;> rfl) p

/-- A call finds the callable entity that was declared last. -/
lemma callable_ofProgram_ok_iff {c : Callable} :
    (ofProgram p).1.callable name = .ok c ↔ p.callable? name = some c := by
  rw [callable, callables_ofProgram, ← Program.last?, ← Program.callable?]
  cases p.callable? name <;> simp

/-- The default values of a callable entity that a name means are among those of the program. -/
lemma mem_externalDefaults {f : Callable} {formal : Formal} {v : Value} (hf : p.callable? name = some f)
    (hformal : formal ∈ f.formals) (hv : formal.externalDefault = some v) :
    v ∈ (ofProgram p).1.externalDefaults := by
  obtain ⟨e, he, hkind⟩ := Program.mem_of_last? hf
  rw [externalDefaults, callables_ofProgram, List.mem_flatMap]
  exact ⟨(name, f), by simpa using ⟨e, he, hkind⟩, List.mem_filterMap.2 ⟨formal, hformal, hv⟩⟩

lemma preset_ofProgram_ok_iff {q : Preset} :
    (ofProgram p).1.preset name = .ok q ↔ p.preset? name = some q := by
  rw [preset, presets_ofProgram, ← Program.last?, ← Program.preset?]
  cases p.preset? name <;> simp

lemma global?_ofProgram (p : Program) (name : String) :
    (ofProgram p).1.global? name = p.global? name := by
  rw [global?, globals_ofProgram, Program.global?, Program.last?]

lemma entry?_ofProgram (p : Program) (name : String) :
    entry? (ofProgram p).1 name = p.listed? name := by
  simp only [triggers_ofProgram, entry?, callables_ofProgram, presets_ofProgram, globals_ofProgram,
    Program.listed?, Program.trigger?, Program.callable?, Program.preset?, Program.global?,
    Program.last?]

end Symbols

end TriggerScript
