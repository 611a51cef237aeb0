import TriggerScript.FileSystem
import TriggerScript.Project
import TriggerScript.Settings.Tree
import TriggerScript.Toml.Reader

/-!
# Settings

Where results are written, whether snapshots are used, and the rows in front of the text literals.
The settings have defaults; files in TOML and single values go over them, in this order.

A truth value can be written as a word or a number, and a text as a number or a truth value. A table
with fixed fields can also be a list of their values.

The main definition is `Settings.load`.
-/

namespace TriggerScript

/-- The settings of a compilation. -/
structure Settings where
  paths : OutputPaths := {}
  /-- Whether the document starts with an XML declaration. -/
  declaration : Bool := true
  /-- Whether snapshots are used. -/
  snapshots : Bool := true
  /-- The extension of snapshots. -/
  extension : String := "cache"
  /-- The rows in front of the text literals. -/
  preamble : List (String × String) := []
deriving Repr, DecidableEq

namespace Settings

/-- Why settings cannot be used. -/
inductive Error where
  /-- The path of a single value is malformed. -/
  | malformedPath (path : String)
  /-- A file that has to be there is not. -/
  | noFile (path : String)
  /-- A file is no TOML. -/
  | malformedFile (path : String)
  /-- An index of a path lies outside of its list. -/
  | noItem
  /-- A value cannot be read as a truth value or a text. -/
  | wrongType
  /-- A table or a list is something else, or a field is missing. -/
  | wrongShape
deriving Repr, DecidableEq

/-- The text of an error. -/
def Error.message : Error → String
  | malformedPath path => "malformed path `" ++ path ++ "`"
  | noFile path => "configuration file \"" ++ path ++ "\" not found"
  | malformedFile path => path ++ " is not a TOML document"
  | noItem => "an index lies outside of its list"
  | wrongType => "a value has the wrong type"
  | wrongShape => "a table, list or field is missing"

/-- The extension of snapshots, if they are used. -/
def snapshotExtension (s : Settings) : Option String :=
  if s.snapshots then some s.extension else none

/-- The options of a compilation. -/
def options (s : Settings) : Project.Options where
  snapshotExtension := s.snapshotExtension
  preamble := s.preamble

/-! ### The settings of a tree -/

/-- A value as a text. -/
def toText : Setting → Except Error String
  | .text s => .ok s
  | .bool b => .ok (if b then "true" else "false")
  | .int n => .ok (Text.intText n)
  | .fraction x => .ok x.text
  | _ => .error .wrongType

/-- A value as a truth value. -/
def toBool : Setting → Except Error Bool
  | .bool b => .ok b
  | .int n => .ok (n ≠ 0)
  | .fraction x => .ok (!x.isZero)
  | .text s =>
    let word := normalKey s
    if word ∈ ["1", "true", "on", "yes"] then .ok true
    else if word ∈ ["0", "false", "off", "no"] then .ok false
    else .error .wrongType
  | _ => .error .wrongType

/-- The values of fixed fields, in their order: those of a table by name, those of a list by
place. -/
def fieldsOf (names : List String) : Setting → Except Error (List (Option Setting))
  | .table fields => .ok (names.map fun name => fields.lookup name)
  | .list items => .ok (names.zipIdx.map fun (_, i) => items[i]?)
  | _ => .error .wrongShape

/-- The value of a field that is there. -/
def ifPresent {α : Type} (f : Setting → Except Error α) : Option Setting → Except Error (Option α)
  | some v => return some (← f v)
  | none => return none

/-- A value that has to be there. -/
def needed {α : Type} : Option α → Except Error α
  | some a => .ok a
  | none => .error .wrongShape

/-- A row in front of the text literals. -/
def rowOf (v : Setting) : Except Error (String × String) := do
  match ← fieldsOf ["key", "value"] v with
  | [key, value] =>
    let key ← ifPresent toText key
    let value ← ifPresent toText value
    return (← needed key, ← needed value)
  | _ => throw .wrongShape

/-- The rows in front of the text literals. -/
def rowsOf : Setting → Except Error (List (String × String))
  | .list items => items.mapM rowOf
  | _ => .error .wrongShape

/-- The section on results. -/
def outputOf (v : Setting) : Except Error (OutputPaths × Bool) := do
  match ← fieldsOf ["directory", "tree", "label_strings", "value_strings", "xml_declaration"] v with
  | [directory, tree, labels, values, declaration] =>
    let directory ← ifPresent toText directory
    let tree ← ifPresent toText tree
    let labels ← ifPresent toText labels
    let values ← ifPresent toText values
    let declaration ← ifPresent toBool declaration
    return (⟨← needed directory, ← needed tree, ← needed labels, ← needed values⟩,
      ← needed declaration)
  | _ => throw .wrongShape

/-- The section on snapshots. -/
def snapshotsOf (v : Setting) : Except Error (Bool × String) := do
  match ← fieldsOf ["enabled", "extension"] v with
  | [enabled, extension] =>
    let enabled ← ifPresent toBool enabled
    let extension ← ifPresent toText extension
    return (← needed enabled, ← needed extension)
  | _ => throw .wrongShape

/-- The section on string tables. -/
def stringsOf (v : Setting) : Except Error (List (String × String)) := do
  match ← fieldsOf ["value_preamble"] v with
  | [rows] => return (← ifPresent rowsOf rows).getD []
  | _ => throw .wrongShape

/-- The settings of a tree. -/
def ofTree (v : Setting) : Except Error Settings := do
  match ← fieldsOf ["output", "cache", "strings"] v with
  | [output, snapshots, strings] =>
    let output ← ifPresent outputOf output
    let snapshots ← ifPresent snapshotsOf snapshots
    let preamble ← ifPresent stringsOf strings
    let (paths, declaration) ← needed output
    let (enabled, extension) ← needed snapshots
    return ⟨paths, declaration, enabled, extension, preamble.getD []⟩
  | _ => throw .wrongShape

/-- Settings as a tree, without rows. -/
def toTree (s : Settings) : Setting :=
  .table [
    ("output", .table [("directory", .text s.paths.directory), ("tree", .text s.paths.tree),
      ("label_strings", .text s.paths.labels), ("value_strings", .text s.paths.values),
      ("xml_declaration", .bool s.declaration)]),
    ("cache", .table [("enabled", .bool s.snapshots), ("extension", .text s.extension)])]

/-! ### Layers -/

/-- A file with settings. -/
structure Layer where
  path : String
  /-- Whether the file may be absent. -/
  optional : Bool := false
deriving Repr, DecidableEq

/-- A single value and the path it is set by. -/
structure Override where
  path : String
  value : Setting
deriving Repr

variable {m : Type → Type} [Monad m] [FileSystem m]

/-- The path of a file with settings, if it is there. The extension of TOML files can be left out of
it. -/
def findLayer (path : String) : m (Option String) := do
  if ← FileSystem.isFile path then return some path
  else
    match Path.extended? path "toml" with
    | none => return none
    | some extended => return if ← FileSystem.isFile extended then some extended else none

/-- The text of a file with settings, without the mark that can stand in front of it. -/
def readLayer (path : String) : m (Option String) := do
  match ← findLayer path with
  | none => return none
  | some path =>
    match ← FileSystem.readText path with
    | .ok s => return some (String.ofList (Toml.withoutMark s.toList))
    | .error _ => return none

/-- Puts the settings of a text over others. -/
def putText (path text : String) (base : Setting) : Except Error Setting :=
  match Toml.read? text with
  | some fields =>
    match putAll? base (ofTomlFields fields) with
    | some v => .ok v
    | none => .error .noItem
  | none => .error (.malformedFile path)

/-- Puts the settings of files over others. -/
def putLayers : List Layer → Setting → m (Except Error Setting)
  | [], base => return .ok base
  | layer :: rest, base => do
    match ← readLayer layer.path with
    | some text =>
      match putText layer.path text base with
      | .ok v => putLayers rest v
      | .error e => return .error e
    | none =>
      if layer.optional then putLayers rest base else return .error (.noFile layer.path)

/-- The settings of some files and single values. The paths of the single values are looked at before
the files. -/
def load (layers : List Layer) (overrides : List Override) : m (Except Error Settings) := do
  match overrides.mapM fun o =>
      match path? o.path with
      | some steps => Except.ok (steps, o.value)
      | none => Except.error (Error.malformedPath o.path) with
  | .error e => return .error e
  | .ok overrides =>
    match ← putLayers layers (toTree {}) with
    | .error e => return .error e
    | .ok v =>
      match overrides.foldlM (fun v (steps, value) => put? value steps v) v with
      | some v => return ofTree v
      | none => return .error .noItem

end Settings

end TriggerScript
