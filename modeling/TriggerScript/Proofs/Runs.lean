import Mathlib.Tactic.Common
import TriggerScript.Compilation
import TriggerScript.Program.Equality
import TriggerScript.Proofs.Computation

/-!
# Runs and what they report

A run puts the events it reports behind those that are there already, and it never looks at them. So
its result does not depend on what has been reported before (`Run.Steady`), and the result of a run
that is made of steps is made of the results of its steps, each taken from the start
(`Run.start_bind`).

The main results take a compilation apart in this way: `Compilation.start_ofSources` and
`Compilation.start_assemble`. A program and two catalogs in the namespace `Sample` are at hand as texts
for the results that build on them.
-/

namespace TriggerScript

namespace Run

variable {ε ε' α β : Type}

/-- The result of a run when `log` has been reported before. -/
def result (run : Run ε α) (log : List Event) : Except ε α :=
  match run log with
  | .ok a _ => .ok a
  | .error e _ => .error e

lemma result_nil (run : Run ε α) : run.result [] = run.start.1 := by
  unfold result start
  rcases run [] with ⟨a, log⟩ | ⟨e, log⟩ <;> rfl

/-- The result of a run does not depend on what has been reported before. -/
def Steady (run : Run ε α) : Prop :=
  ∀ log, run.result log = run.start.1

/-- The result of two steps is that of the second one, if the first one succeeds. -/
lemma result_bind {x : Run ε α} {f : α → Run ε β} (hf : ∀ a, (f a).Steady) (log : List Event) :
    Run.result (x >>= f) log = (x.result log).bind fun a => (f a).start.1 := by
  rcases hx : x log with ⟨a, log'⟩ | ⟨e, log'⟩
  · have hbind : (x >>= f) log = f a log' := by simp [bind, EStateM.bind, hx]
    have hresult : Run.result (x >>= f) log = (f a).result log' := by rw [result, hbind, result]
    rw [hresult, hf a log', result, hx]
    rfl
  · have hbind : (x >>= f) log = .error e log' := by simp [bind, EStateM.bind, hx]
    rw [result, hbind, result, hx]
    rfl

lemma start_bind {x : Run ε α} {f : α → Run ε β} (hf : ∀ a, (f a).Steady) :
    (Run.start (x >>= f)).1 = x.start.1.bind fun a => (f a).start.1 := by
  rw [← result_nil, result_bind hf, result_nil]

/-! ## Steady runs -/

lemma Steady.bind {x : Run ε α} {f : α → Run ε β} (hx : x.Steady) (hf : ∀ a, (f a).Steady) :
    Run.Steady (x >>= f) := by
  intro log
  rw [result_bind hf, hx, start_bind hf]

lemma steady_pure (a : α) : Run.Steady (pure a : Run ε α) :=
  fun _ => rfl

lemma steady_throw (e : ε) : Run.Steady (throw e : Run ε α) :=
  fun _ => rfl

lemma steady_reportAll (events : List Event) : (reportAll events : Run ε Unit).Steady :=
  fun _ => rfl

lemma steady_report (e : Event) : (report e : Run ε Unit).Steady :=
  fun _ => rfl

lemma steady_ofExcept (x : Except ε α) : (ofExcept x).Steady := by
  rcases x with e | a
  · exact steady_throw e
  · exact steady_pure a

lemma result_mapError (f : ε → ε') (x : Run ε α) (log : List Event) :
    (x.mapError f).result log = (x.result log).mapError f := by
  unfold result mapError
  rcases x log with ⟨a, log'⟩ | ⟨e, log'⟩ <;> rfl

lemma start_mapError (f : ε → ε') (x : Run ε α) : (x.mapError f).start.1 = x.start.1.mapError f := by
  rw [← result_nil, result_mapError, result_nil]

lemma Steady.mapError {x : Run ε α} (hx : x.Steady) (f : ε → ε') : (x.mapError f).Steady := by
  intro log
  rw [result_mapError, hx, start_mapError]

end Run

/-! ## Reading sources -/

lemma Lexicon.steady_read (lex : Lexicon) (source : String) : (lex.read source).Steady :=
  (Run.steady_ofExcept _).bind fun _ => (Run.steady_report _).bind fun _ => Run.steady_pure _

lemma Grammar.steady_read {V : Type} [Phrase V] (g : Grammar V) (tokens : List Token) (length : Nat) :
    (g.read tokens length).Steady := by
  refine ((Run.steady_ofExcept _).mapError _).bind fun values => ?_
  -- that there are several values is reported, which changes nothing
  cases values with
  | nil => exact Run.steady_throw _
  | cons v rest =>
    dsimp only
    split_ifs with hmany
    · exact (Run.steady_report _).bind fun _ => Run.steady_pure v
    · exact Run.steady_pure v

lemma Program.steady_ofTokens (tokens : List Token) (length : Nat) :
    (Program.ofTokens tokens length).Steady :=
  (programGrammar.steady_read _ _).bind fun _ => ((Run.steady_ofExcept _).mapError _).bind fun _ =>
    (Run.steady_report _).bind fun _ => Run.steady_pure _

/-- The tokens of a source are read first, and then the program that they stand for. -/
lemma Program.start_ofSource {source : String} {tokens : List Token}
    (h : (programLexicon.read source).start.1 = .ok tokens) :
    (Program.ofSource source).start.1 =
      (Program.ofTokens tokens source.utf8ByteSize).start.1 := by
  rw [Program.ofSource, Run.start_bind fun tokens => Program.steady_ofTokens tokens _,
    Run.start_mapError, h]
  rfl

lemma Catalog.steady_ofTokens (tokens : List Token) (length : Nat) :
    (Catalog.ofTokens tokens length).Steady :=
  (catalogGrammar.steady_read _ _).bind fun _ => ((Run.steady_ofExcept _).mapError _).bind fun _ =>
    (Run.steady_report _).bind fun _ => Run.steady_pure _

lemma Catalog.steady_ofSource (source : String) : (Catalog.ofSource source).Steady :=
  ((catalogLexicon.steady_read source).mapError _).bind fun _ => Catalog.steady_ofTokens _ _

/-! ## Compilations -/

lemma Allocator.steady_run {α : Type} (a : Allocator) (work : Allocate α) : (a.run work).Steady := by
  unfold Allocator.run
  rcases work { a with } with ⟨x, s⟩ | ⟨e, s⟩
  · exact (Run.steady_reportAll _).bind fun _ => Run.steady_pure _
  · exact (Run.steady_reportAll _).bind fun _ => Run.steady_throw _

/-- Handing out ids fails only because a counter would leave its range. -/
lemma Allocator.run_start_error {α : Type} {a : Allocator} {work : Allocate α} {e : CompileError}
    (h : (a.run work).start.1 = .error e) : e = .counter := by
  unfold Allocator.run at h
  split at h
  · cases h
  · cases h
    rfl

lemma Document.steady_build (p : Program) (c : Catalog) : (Document.build p c).Steady := by
  refine (Run.steady_reportAll _).bind fun _ => ?_
  split
  · exact Run.steady_throw _
  · exact (Run.steady_report _).bind fun _ => Run.steady_pure _

namespace Compilation

/-- What a compilation yields behind the making of its document. -/
def ofTree (preamble : List (String × String)) (tree : Node) (a : Allocator) : Compilation where
  tree
  labels := a.labels
  values := (StringTable.ofRows preamble).extend a.values

/-- What is done behind the making of a document: the two tables are put together. -/
def finish (preamble : List (String × String)) (tree : Node) (a : Allocator) :
    Run CompileError Compilation := do
  Run.reportAll (StringTable.empty.putAllEvents preamble)
  Run.reportAll ((StringTable.ofRows preamble).putAllEvents a.values.rows)
  return ofTree preamble tree a

lemma steady_finish (preamble : List (String × String)) (tree : Node) (a : Allocator) :
    (finish preamble tree a).Steady :=
  (Run.steady_reportAll _).bind fun _ => (Run.steady_reportAll _).bind fun _ => Run.steady_pure _

lemma assemble_eq (preamble : List (String × String)) (p : Program) (a : Allocator) (c : Catalog) :
    assemble preamble p a c = a.run (Allocate.catalog c) >>= fun x =>
      (Document.build p x.1).mapError .lowering >>= fun tree => finish preamble tree x.2 :=
  rfl

lemma steady_assemble (preamble : List (String × String)) (p : Program) (a : Allocator)
    (c : Catalog) : (assemble preamble p a c).Steady := by
  rw [assemble_eq]
  exact (a.steady_run _).bind fun x =>
    ((Document.steady_build p x.1).mapError _).bind fun _ => steady_finish _ _ _

/-- A catalog is numbered behind the program, and then the document is built. -/
theorem start_assemble (preamble : List (String × String)) (p : Program) (a : Allocator)
    (c : Catalog) :
    (assemble preamble p a c).start.1 = (a.run (Allocate.catalog c)).start.1.bind fun x =>
      ((Document.build p x.1).start.1.mapError .lowering).bind fun tree =>
        .ok (ofTree preamble tree x.2) := by
  have hbuild := fun x : Catalog × Allocator =>
    ((Document.steady_build p x.1).mapError CompileError.lowering).bind fun tree =>
      steady_finish preamble tree x.2
  rw [assemble_eq, Run.start_bind hbuild]
  congr 1
  funext x
  rw [Run.start_bind fun tree => steady_finish preamble tree x.2, Run.start_mapError]
  rfl

/-- A program is read, and then a fresh allocator numbers it. -/
lemma start_program (source : String) :
    (program source).start.1 = (Program.ofSource source).start.1.bind fun p =>
      (({} : Allocator).run (Allocate.program p)).start.1 :=
  Run.start_bind fun p => Allocator.steady_run _ (Allocate.program p)

/-- A compilation reads the program and numbers it, then it reads the catalog, and then it puts both
together. -/
theorem start_ofSources (preamble : List (String × String)) (programText catalogText : String) :
    (ofSources preamble programText catalogText).start.1 =
      (program programText).start.1.bind fun x => (Catalog.ofSource catalogText).start.1.bind fun c =>
        (assemble preamble x.1 x.2 c).start.1 := by
  have hsteady := fun x : Program × Allocator =>
    (Catalog.steady_ofSource catalogText).bind fun c => steady_assemble preamble x.1 x.2 c
  rw [ofSources, Run.start_bind hsteady]
  congr 1
  funext x
  rw [Run.start_bind fun c => steady_assemble preamble x.1 x.2 c]

end Compilation

/-! ## A program in a text -/

namespace Sample

/-- A program whose trigger uses the default value of an imported parameter. -/
def programText : String :=
  "import \"B\" \x7b event E = 00000001 (); action W = 00000002 (s: int = 00000003 (2)); \x7d
library \"0\" \x7b int n = 1; trigger T \"T\" E() \x7b W(); \x7d \x7d"

/-- A catalog that lists the trigger and the imported action in a folder. -/
def folderText : String :=
  "library \"0\" \"M\" \x7b folder \"F\" \x7b T, W \x7d \x7d"

/-- A catalog that lists the variable only. -/
def plainText : String :=
  "library \"0\" \"M\" \x7b n \x7d"

/-- The program of the text. -/
def written : Program where
  scopes :=
    [.import_ ⟨"B",
        [.function ⟨.event, [], "E", ⟨1⟩, [], .void, none⟩,
          .function ⟨.action, [], "W", ⟨2⟩,
            [⟨[], "s", ⟨"int", []⟩, ⟨3⟩, some ⟨.literal (.int 2), none⟩, none⟩], .void, none⟩]⟩,
      .library ⟨"0",
        [.variable ⟨[], ⟨"int", []⟩, "n", ⟨.literal (.int 1), none⟩, none⟩,
          .trigger ⟨[], "T", "T", ⟨"E", [], none⟩, ⟨[], [⟨"W", [], none⟩]⟩, none⟩]⟩]

/-- The catalog with a folder. -/
def folderCatalog : Catalog :=
  ⟨[⟨"0", "M", [.folder ⟨"F", [.leaf "T", .leaf "W"], none⟩]⟩]⟩

/-- The catalog without a folder. -/
def plainCatalog : Catalog :=
  ⟨[⟨"0", "M", [.leaf "n"]⟩]⟩

/-- A token that is written as its name. -/
def wordAt (offset : Nat) (name : String) : Token :=
  ⟨name, name, .text name, offset⟩

/-- A name in the text. -/
def labelAt (offset : Nat) (name : String) : Token :=
  ⟨"label", name, .text name, offset⟩

/-- An id in the text. -/
def idAt (offset : Nat) (digits : String) : Token :=
  ⟨"id", digits, .text digits, offset⟩

/-- The tokens of the text. -/
def programTokens : List Token :=
  [wordAt 0 "import", ⟨"str", "\"B\"", .text "B", 7⟩, wordAt 11 "\x7b",
    wordAt 13 "event", labelAt 19 "E", wordAt 21 "=", idAt 23 "00000001",
    wordAt 32 "(", wordAt 33 ")", wordAt 34 ";",
    wordAt 36 "action", labelAt 43 "W", wordAt 45 "=", idAt 47 "00000002",
    wordAt 56 "(", labelAt 57 "s", wordAt 58 ":", labelAt 60 "int", wordAt 64 "=",
    idAt 66 "00000003", wordAt 75 "(", ⟨"int", "2", .int 2, 76⟩, wordAt 77 ")",
    wordAt 78 ")", wordAt 79 ";", wordAt 81 "\x7d",
    wordAt 83 "library", ⟨"str", "\"0\"", .text "0", 91⟩, wordAt 95 "\x7b",
    labelAt 97 "int", labelAt 101 "n", wordAt 103 "=", ⟨"int", "1", .int 1, 105⟩, wordAt 106 ";",
    wordAt 108 "trigger", labelAt 116 "T", ⟨"str", "\"T\"", .text "T", 118⟩,
    labelAt 122 "E", wordAt 123 "(", wordAt 124 ")", wordAt 126 "\x7b",
    labelAt 128 "W", wordAt 129 "(", wordAt 130 ")", wordAt 131 ";",
    wordAt 133 "\x7d", wordAt 135 "\x7d"]

lemma programText_tokens : (programLexicon.read programText).start.1 = .ok programTokens := by
  decide +kernel

lemma programText_read : (Program.ofSource programText).start.1 = .ok written := by
  rw [Program.start_ofSource programText_tokens]
  decide +kernel

lemma folderText_read : (Catalog.ofSource folderText).start.1 = .ok folderCatalog := by
  decide +kernel

lemma plainText_read : (Catalog.ofSource plainText).start.1 = .ok plainCatalog := by
  decide +kernel

/-- The program with its slots filled. -/
def writtenNumbered : Program × Allocator :=
  (({} : Allocator).run (Allocate.program written)).start.1.toOption.get (by decide +kernel)

lemma programText_numbered : (Compilation.program programText).start.1 = .ok writtenNumbered := by
  rw [Compilation.start_program, programText_read]
  exact eq_ok_get _

end Sample

end TriggerScript
