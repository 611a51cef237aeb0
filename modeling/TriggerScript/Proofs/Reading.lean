import TriggerScript.Proofs.Catalog.Parsing
import TriggerScript.Proofs.Grammar.Budget
import TriggerScript.Proofs.Lexing
import TriggerScript.Proofs.Runs

/-!
# What reading a source comes to

A token list is read by taking the first of its parses, so what reading it comes to is known from
`parseAll` (`Program.ofTokens_ok_iff` and those beside it). Two results follow for both languages:

* reading always comes to an end, as the search for parses does in every grammar without left
  recursion (`search_comes_to_end`),
* the grammars are never at fault: what is read from a source is a tree, or the source is
  complained about (`reading_blames_source`).
-/

namespace TriggerScript

open Grammar

/-! ## From parses to trees -/

section Read

variable {V : Type} [Phrase V] {g : Grammar V} {tokens : List Token} {length : Nat}

/-- The value of the first parse. -/
def Grammar.firstValue (g : Grammar V) : Except Failure (List V) → Except CompileError V
  | .ok (v :: _) => .ok v
  | .ok [] => .error (.grammar (.unknownRule g.entry))
  | .error e => .error (.ofFailure e)

lemma Grammar.start_read :
    (g.read tokens length).start.1 = g.firstValue (g.parseAll tokens length) := by
  unfold Grammar.read
  -- that there are several values is reported, which changes nothing
  rcases g.parseAll tokens length with e | _ | ⟨v, _ | ⟨_, _⟩⟩ <;> rfl

/-- The tree that is read is taken out of the value of the first parse. -/
lemma Grammar.start_read_bind {α : Type} (take : V → Except String α) (name : String)
    (event : α → Event) :
    (Run.start (do
      let phrase ← g.read tokens length
      let tree ← (Run.ofExcept (take phrase)).mapError fun e => .grammar (.reduce name e)
      Run.report (event tree)
      return tree)).1 = (g.firstValue (g.parseAll tokens length)).bind fun v =>
        (take v).mapError fun e => .grammar (.reduce name e) := by
  rw [Run.start_bind fun phrase => ((Run.steady_ofExcept _).mapError _).bind fun _ =>
    (Run.steady_report _).bind fun _ => Run.steady_pure _, Grammar.start_read]
  congr 1
  funext v
  cases take v <;> rfl

end Read

variable {tokens : List Token} {length : Nat}

lemma Program.start_ofTokens : (Program.ofTokens tokens length).start.1 =
    (programGrammar.firstValue (programGrammar.parseAll tokens length)).bind fun v =>
      v.toProgram.mapError fun e => .grammar (.reduce "program" e) :=
  start_read_bind _ _ _

lemma Catalog.start_ofTokens : (Catalog.ofTokens tokens length).start.1 =
    (catalogGrammar.firstValue (catalogGrammar.parseAll tokens length)).bind fun v =>
      v.toCatalog.mapError fun e => .grammar (.reduce "catalog" e) :=
  start_read_bind _ _ _

/-- A tree is read exactly if it is in the value of the first parse. -/
lemma Grammar.firstValue_bind_ok_iff {V α : Type} {g : Grammar V} {take : V → Except String α}
    {f : α → V} (htake : ∀ {v a}, take v = .ok a ↔ v = f a) {name : String}
    {parses : Except Failure (List V)} {a : α} :
    ((g.firstValue parses).bind fun v =>
      (take v).mapError fun e => CompileError.grammar (.reduce name e)) = .ok a ↔
        ∃ others, parses = .ok (f a :: others) := by
  rcases parses with e | _ | ⟨v, others⟩
  · simp [firstValue, Except.bind]
  · simp [firstValue, Except.bind]
  · simp only [firstValue, Except.bind, Except.ok.injEq, List.cons.injEq, exists_and_left,
      exists_eq', and_true, ← htake]
    cases take v <;> simp [Except.mapError]

lemma Program.ofTokens_ok_iff {p : Program} : (Program.ofTokens tokens length).start.1 = .ok p ↔
    ∃ others, programGrammar.parseAll tokens length = .ok (.program p :: others) := by
  rw [Program.start_ofTokens]
  exact firstValue_bind_ok_iff ProgramPhrase.toProgram_ok_iff

lemma Catalog.ofTokens_ok_iff {c : Catalog} : (Catalog.ofTokens tokens length).start.1 = .ok c ↔
    ∃ others, catalogGrammar.parseAll tokens length = .ok (.catalog c :: others) := by
  rw [Catalog.start_ofTokens]
  exact firstValue_bind_ok_iff CatalogPhrase.toCatalog_ok_iff

/-! ## Reading comes to an end -/

/-- An endless rule is complained about only if the search for parses has met one. -/
lemma Grammar.firstValue_bind_ne_endless {V α : Type} {g : Grammar V} {take : V → Except String α}
    {name rule : String} {parses : Except Failure (List V)}
    (h : parses ≠ .error (.grammar (.endless rule))) :
    ((g.firstValue parses).bind fun v =>
      (take v).mapError fun e => CompileError.grammar (.reduce name e)) ≠
        .error (.grammar (.endless rule)) := by
  rcases parses with e | _ | ⟨v, others⟩
  · cases e with
    | unexpected e => exact nofun
    | grammar e =>
      intro heq
      simp only [firstValue, CompileError.ofFailure, Except.bind, Except.error.injEq,
        CompileError.grammar.injEq] at heq
      exact h (heq ▸ rfl)
  · exact nofun
  · intro heq
    simp only [firstValue, Except.bind] at heq
    cases htake : take v <;> simp [htake, Except.mapError] at heq

/-- The search for parses comes to an end on every token list in a grammar in which no rule leads back
to itself without a token; the grammars of both languages are of this kind, so that reading a token
list, whatever it is, comes to an end. -/
theorem search_comes_to_end :
    (∀ (V : Type) [Phrase V] (entry : String) (clauses : List (Clause V)) (g : Grammar V),
      ofClauses entry clauses = .ok g → g.LeftRecursionFree → ∀ tokens length,
        g.ComesToEnd (stream tokens length) ∧
          ∀ rule, g.parseAll tokens length ≠ .error (.grammar (.endless rule))) ∧
    programGrammar.LeftRecursionFree ∧ catalogGrammar.LeftRecursionFree ∧
    ∀ tokens length, programGrammar.ComesToEnd (stream tokens length) ∧
      catalogGrammar.ComesToEnd (stream tokens length) ∧
      ∀ rule, (Program.ofTokens tokens length).start.1 ≠ .error (.grammar (.endless rule)) ∧
        (Catalog.ofTokens tokens length).start.1 ≠ .error (.grammar (.endless rule)) := by
  have hprogram := leftRecursionFree_of_wellFounded ProgramGrammar.ranked.wellFounded
  have hcatalog := leftRecursionFree_of_wellFounded CatalogGrammar.ranked.wellFounded
  refine ⟨fun V _ entry clauses g hg hfree tokens length => ?_, hprogram, hcatalog,
    fun tokens length => ?_⟩
  · have hend := hfree.comesToEnd (closed_of_ofClauses hg) (stream tokens length)
    exact ⟨hend, hend.parseAll_ne⟩
  · have hprogram := hprogram.comesToEnd ProgramGrammar.closed (stream tokens length)
    have hcatalog := hcatalog.comesToEnd CatalogGrammar.closed (stream tokens length)
    refine ⟨hprogram, hcatalog, fun rule => ⟨?_, ?_⟩⟩
    · rw [Program.start_ofTokens]
      exact firstValue_bind_ne_endless (hprogram.parseAll_ne rule)
    · rw [Catalog.start_ofTokens]
      exact firstValue_bind_ne_endless (hcatalog.parseAll_ne rule)

/-! ## The grammars are not at fault -/

/-- Fitting tokens are a program, or one of them is complained about. -/
lemma Program.ofTokens_cases (htokens : ∀ t ∈ tokens, t.fits) :
    (∃ p, (Program.ofTokens tokens length).start.1 = .ok p) ∨
      ∃ e, (Program.ofTokens tokens length).start.1 = .error (.parse e) := by
  obtain ⟨found, hfound⟩ := ProgramGrammar.exists_found htokens
  rcases parseAll_cases hfound with ⟨v, others, h⟩ | ⟨e, h⟩
  · obtain ⟨p, rfl⟩ := ProgramGrammar.exists_program_of_mem htokens h List.mem_cons_self
    exact .inl ⟨p, Program.ofTokens_ok_iff.2 ⟨others, h⟩⟩
  · rw [Program.start_ofTokens, h]
    exact .inr ⟨e, rfl⟩

lemma CatalogGrammar.carriesText_of_fits {t : Token} (h : t.fits) : CarriesText t := by
  intro hname
  cases hv : t.value with
  | text s => exact ⟨s, rfl⟩
  | _ => rcases hname with hname | hname <;> simp [Token.fits, hv, hname] at h

/-- The same for catalogs, for which it suffices that strings and labels carry texts. -/
lemma Catalog.ofTokens_cases (htokens : ∀ t ∈ tokens, CatalogGrammar.CarriesText t) :
    (∃ c, (Catalog.ofTokens tokens length).start.1 = .ok c) ∨
      ∃ e, (Catalog.ofTokens tokens length).start.1 = .error (.parse e) := by
  obtain ⟨found, hfound⟩ := CatalogGrammar.exists_found htokens
  rcases parseAll_cases hfound with ⟨v, others, h⟩ | ⟨e, h⟩
  · obtain ⟨c, rfl⟩ := CatalogGrammar.exists_catalog_of_mem htokens h List.mem_cons_self
    exact .inl ⟨c, Catalog.ofTokens_ok_iff.2 ⟨others, h⟩⟩
  · rw [Catalog.start_ofTokens, h]
    exact .inr ⟨e, rfl⟩

/-- A source is split into tokens, and then these are read. -/
lemma start_read_source {α : Type} (lex : Lexicon) (source : String)
    {read : List Token → Run CompileError α} (hread : ∀ tokens, (read tokens).Steady) :
    (Run.start ((lex.read source).mapError .lex >>= read)).1 =
      ((lex.tokenize source).mapError .lex).bind fun tokens => (read tokens).start.1 := by
  rw [Run.start_bind hread, Run.start_mapError]
  unfold Lexicon.read
  cases lex.tokenize source <;> rfl

/-- Reading a source text yields a tree, or the text or one of its tokens is complained about, but
never the grammar. The same holds for token lists that come from elsewhere, as long as their values fit
their names. -/
theorem reading_blames_source :
    (∀ source, ((∃ p, (Program.ofSource source).start.1 = .ok p) ∨
        (∃ e, (Program.ofSource source).start.1 = .error (.lex e)) ∨
        ∃ e, (Program.ofSource source).start.1 = .error (.parse e)) ∧
      ((∃ c, (Catalog.ofSource source).start.1 = .ok c) ∨
        (∃ e, (Catalog.ofSource source).start.1 = .error (.lex e)) ∨
        ∃ e, (Catalog.ofSource source).start.1 = .error (.parse e))) ∧
    ∀ tokens length, (∀ t ∈ tokens, t.fits) →
      ((∃ p, (Program.ofTokens tokens length).start.1 = .ok p) ∨
        ∃ e, (Program.ofTokens tokens length).start.1 = .error (.parse e)) ∧
      ((∃ c, (Catalog.ofTokens tokens length).start.1 = .ok c) ∨
        ∃ e, (Catalog.ofTokens tokens length).start.1 = .error (.parse e)) := by
  refine ⟨fun source => ⟨?_, ?_⟩, fun tokens length htokens => ⟨Program.ofTokens_cases htokens,
    Catalog.ofTokens_cases fun t ht => CatalogGrammar.carriesText_of_fits (htokens t ht)⟩⟩
  · rw [Program.ofSource, start_read_source _ _ fun _ => Program.steady_ofTokens _ _]
    cases h : programLexicon.tokenize source with
    | error e => exact .inr (.inl ⟨e, rfl⟩)
    | ok tokens => exact (Program.ofTokens_cases (fits_of_program h)).imp_right .inr
  · rw [Catalog.ofSource, start_read_source _ _ fun _ => Catalog.steady_ofTokens _ _]
    cases h : catalogLexicon.tokenize source with
    | error e => exact .inr (.inl ⟨e, rfl⟩)
    | ok tokens =>
      have htokens := fits_of_catalog h
      exact (Catalog.ofTokens_cases fun t ht =>
        CatalogGrammar.carriesText_of_fits (htokens t ht)).imp_right .inr

end TriggerScript
