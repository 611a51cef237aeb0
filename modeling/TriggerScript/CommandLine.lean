import TriggerScript.Gzip.Stored
import TriggerScript.Json.Tree
import TriggerScript.Settings

/-!
# The command line

What the arguments of the program ask for, and what the program does about it. The arguments are
taken from left to right, and the first one that is wrong or asks for the version or for help
decides; that something is missing is only found at the end.

The main definitions are `CommandLine.parse` and `CommandLine.run`.
-/

namespace TriggerScript.CommandLine

/-- Snapshots are packed into gzip archives. -/
instance : Packing :=
  ⟨Gzip.store, Gzip.unpack?, Gzip.unpack?_store⟩

/-- What is produced. -/
inductive Emit where
  /-- The document and the string tables, in files. -/
  | xml
  /-- The allocated program as JSON. -/
  | program
  /-- The tokens of the program as JSON. -/
  | tokens
deriving Repr, DecidableEq

/-- The result that a word asks for. -/
def Emit.ofText? : String → Option Emit
  | "xml" => some .xml
  | "ast-json" => some .program
  | "tokens-json" => some .tokens
  | _ => none

/-- The arguments that have been taken so far. -/
structure Arguments where
  program : Option String := none
  catalog : Option String := none
  output : Option String := none
  config : Option String := none
  noCache : Bool := false
  emit : Option Emit := none
  /-- How often more events were asked for. -/
  verbosity : Nat := 0
deriving Repr, DecidableEq

/-- What ends the reading of arguments early. -/
inductive Stop where
  /-- The arguments cannot be used. -/
  | usage
  | version
  | help
deriving Repr, DecidableEq

/-- The options that take a value. -/
inductive ValueOption where
  | output
  | config
  | emit
deriving Repr, DecidableEq

/-- Takes the value of an option. An option is given once, and the path of a file is not empty. -/
def Arguments.setValue (a : Arguments) (o : ValueOption) (value : String) :
    Except Stop Arguments :=
  match o with
  | .output => if a.output.isSome then .error .usage else .ok { a with output := some value }
  | .config =>
    if a.config.isSome ∨ value = "" then .error .usage else .ok { a with config := some value }
  | .emit =>
    match a.emit, Emit.ofText? value with
    | none, some emit => .ok { a with emit := some emit }
    | _, _ => .error .usage

/-- Takes an argument that is no option. -/
def Arguments.setPlain (a : Arguments) (value : String) : Except Stop Arguments :=
  if value = "" then .error .usage
  else
    match a.program, a.catalog with
    | none, _ => .ok { a with program := some value }
    | some _, none => .ok { a with catalog := some value }
    | some _, some _ => .error .usage

/-- Takes the flag against snapshots, which is given once. -/
def Arguments.setNoCache (a : Arguments) : Except Stop Arguments :=
  if a.noCache then .error .usage else .ok { a with noCache := true }

/-- The name and the value of a long option behind its dashes. -/
def splitLong (cs : List Char) : String × Option String :=
  let name := cs.takeWhile (· ≠ '=')
  match cs.drop name.length with
  | [] => (String.ofList name, none)
  | _ :: value => (String.ofList name, some (String.ofList value))

/-- The long option that takes a value. -/
def ValueOption.ofLong? : String → Option ValueOption
  | "output" => some .output
  | "config" => some .config
  | "emit" => some .emit
  | _ => none

/-- The short option that takes a value. -/
def ValueOption.ofShort? : Char → Option ValueOption
  | 'o' => some .output
  | 'c' => some .config
  | _ => none

/-- Takes a long option without a value. -/
def longFlag (a : Arguments) : String → Except Stop Arguments
  | "no-cache" => a.setNoCache
  | "verbose" => .ok { a with verbosity := a.verbosity + 1 }
  | "version" => .error .version
  | "help" => .error .help
  | _ => .error .usage

/-- Takes short options that stand together behind one dash. An option with a value ends them: the
value is the rest of the text or, if there is none, the next argument, and then the option is
yielded. -/
def shortOptions (a : Arguments) : List Char → Except Stop (Arguments × Option ValueOption)
  | [] => .ok (a, none)
  | c :: rest =>
    match ValueOption.ofShort? c, rest with
    | some o, [] => .ok (a, some o)
    | some o, '=' :: value => do return (← a.setValue o (String.ofList value), none)
    | some o, value => do return (← a.setValue o (String.ofList value), none)
    | none, rest =>
      if c = 'v' then shortOptions { a with verbosity := a.verbosity + 1 } rest
      else if c = 'V' then .error .version
      else if c = 'h' then .error .help
      else .error .usage

/-- Takes arguments that are no options. -/
def plainArguments (a : Arguments) : List String → Except Stop Arguments
  | [] => .ok a
  | value :: rest => do plainArguments (← a.setPlain value) rest

/-- Takes one argument; an option whose value is the next argument is yielded. -/
def argument (a : Arguments) (cs : List Char) : Except Stop (Arguments × Option ValueOption) :=
  match cs with
  | '-' :: '-' :: rest =>
    match splitLong rest with
    | (name, value) =>
      match ValueOption.ofLong? name, value with
      | some o, some value => do return (← a.setValue o value, none)
      | some o, none => .ok (a, some o)
      | none, some _ => .error .usage
      | none, none => do return (← longFlag a name, none)
  | '-' :: c :: rest => shortOptions a (c :: rest)
  | cs => do return (← a.setPlain (String.ofList cs), none)

/-- Whether an argument can be the value of the option in front of it. -/
def isValue (s : String) : Bool :=
  match s.toList with
  | '-' :: _ :: _ => false
  | _ => true

/-- Takes arguments; `pending` is the option whose value is the next one. -/
def arguments (a : Arguments) (pending : Option ValueOption) :
    List String → Except Stop Arguments
  | [] => if pending.isSome then .error .usage else .ok a
  | s :: rest =>
    match pending with
    | some o => if isValue s then do arguments (← a.setValue o s) none rest else .error .usage
    | none =>
      if s = "--" then plainArguments a rest
      else do
        let (a, pending) ← argument a s.toList
        arguments a pending rest

/-- What the arguments of the program ask for. -/
structure Invocation where
  program : String
  catalog : String
  output : Option String
  config : Option String
  noCache : Bool
  emit : Emit
  verbosity : Nat
deriving Repr, DecidableEq

/-- What the arguments ask for. -/
def parse (args : List String) : Except Stop Invocation := do
  let a ← arguments {} none args
  match a.program, a.catalog with
  | some program, some catalog =>
    return { program, catalog, output := a.output, config := a.config, noCache := a.noCache,
             emit := a.emit.getD .xml, verbosity := a.verbosity }
  | _, _ => throw .usage

/-- The lowest level of events that are shown. -/
def Invocation.level (i : Invocation) : Level :=
  match i.verbosity with
  | 0 => .warn
  | 1 => .info
  | _ => .debug

/-! ### Running -/

/-- How a run of the program ends. -/
inductive Outcome where
  | stopped (s : Stop)
  /-- The settings cannot be used. -/
  | badSettings (e : Settings.Error)
  /-- The project cannot be compiled. -/
  | failed (e : ProjectError)
  /-- The run has succeeded and has a text to print. -/
  | done (output : String)

/-- How the program is called. -/
def usageText : String :=
  "Usage: trig [OPTIONS] <PROGRAM> <CATALOG>\n\n" ++
  "Arguments:\n" ++
  "  <PROGRAM>  Path to the program source\n" ++
  "  <CATALOG>  Path to the catalog source\n\n" ++
  "Options:\n" ++
  "  -o, --output <DIR>     Output directory (overrides output.directory)\n" ++
  "  -c, --config <FILE>    Configuration file layered over trig.toml\n" ++
  "      --no-cache         Neither read nor write the program cache\n" ++
  "      --emit <EMIT>      What to produce: xml, ast-json or tokens-json\n" ++
  "  -v, --verbose          Log more (-v info, -vv debug)\n" ++
  "  -h, --help             Print help\n" ++
  "  -V, --version          Print version\n"

/-- The name of the program and its version. -/
def versionText : String :=
  "trig 0.1.0\n"

namespace Outcome

/-- The exit code of the program. -/
def code : Outcome → Nat
  | stopped .usage => 2
  | stopped .version => 0
  | stopped .help => 0
  | badSettings .noItem => 101
  | badSettings _ => 1
  | failed _ => 1
  | done _ => 0

/-- What is written to the standard output. -/
def stdout : Outcome → String
  | stopped .version => versionText
  | stopped .help => usageText
  | done output => output
  | _ => ""

/-- What is written to the standard error output. -/
def stderr : Outcome → String
  | stopped .usage => usageText
  | badSettings e => "Configuration error: " ++ e.message ++ "\n"
  | failed e => e.report ++ "\n"
  | _ => ""

end Outcome

/-- The file with settings that is used if it is in the working directory. -/
def localSettings : String :=
  "trig.toml"

/-- The files with settings. -/
def Invocation.layers (i : Invocation) : List Settings.Layer :=
  { path := localSettings, optional := true } ::
    match i.config with
    | some path => [{ path }]
    | none => []

/-- The single values that the arguments set. -/
def Invocation.overrides (i : Invocation) : List Settings.Override :=
  (match i.output with
    | some directory => [⟨"output.directory", .text directory⟩]
    | none => []) ++
  if i.noCache then [⟨"cache.enabled", .bool false⟩] else []

variable {m : Type → Type} [Monad m] [FileSystem m]

/-- Compiles the project and writes or yields what was asked for. -/
def produce (i : Invocation) (s : Settings) : Task m ProjectError String := do
  match i.emit with
  | .xml =>
    let c ← Project.compile s.options i.program i.catalog
    Project.write s.paths s.declaration c
    Task.report ⟨.info, "compiled", [("directory", s.paths.directory)]⟩
    return ""
  | .program => return (← Project.allocated i.program).toJson.indented ++ "\n"
  | .tokens =>
    let tokens ← Project.tokens i.program
    return (Json.arr (tokens.map Token.toJson)).indented ++ "\n"

/-- Does what the arguments ask for; yields how the run ends and the events that are shown. -/
def run (args : List String) : m (Outcome × List Event) := do
  match parse args with
  | .error s => return (.stopped s, [])
  | .ok i =>
    match ← Settings.load i.layers i.overrides with
    | .error e => return (.badSettings e, [])
    | .ok s =>
      let (result, events) ← (produce i s).start
      let events := events.filter fun e => i.level.rank ≤ e.level.rank
      match result with
      | .ok output => return (.done output, events)
      | .error e => return (.failed e, events)

end TriggerScript.CommandLine
