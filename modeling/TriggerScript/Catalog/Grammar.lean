import TriggerScript.Catalog
import TriggerScript.Grammar.Matching

/-!
# The grammar of catalogs

```text
catalog := library*
library := "library" STR STR "{" item,* "}"
item    := LABEL | "folder" STR "{" item,* "}"
```
-/

namespace TriggerScript

/-- A recognised part of a catalog. -/
inductive CatalogPhrase where
  | token (v : TokenValue)
  | list (items : List CatalogPhrase)
  | catalog (c : Catalog)
  | library (l : CatalogLibrary)
  | item (i : CatalogItem)

namespace CatalogPhrase

/-- How a message shows a phrase. A finished node is shown by the name of its sort. -/
def describe : CatalogPhrase → String
  | .token v => "Token(" ++ v.describe ++ ")"
  | .list _ => "List"
  | .catalog _ => "Catalog"
  | .library _ => "Library"
  | .item _ => "Item"

/-- The error of a phrase that stands where another sort is expected. -/
def unexpected {α : Type} (sort : String) (p : CatalogPhrase) : Except String α :=
  .error ("expected " ++ sort ++ ", found " ++ p.describe)

/-- The text of a token. -/
def toText : CatalogPhrase → Except String String
  | .token (.text s) => .ok s
  | p => p.unexpected "text token"

/-- The items of a list. -/
def items : CatalogPhrase → Except String (List CatalogPhrase)
  | .list items => .ok items
  | p => p.unexpected "List"

/-- The catalog of a phrase. -/
def toCatalog : CatalogPhrase → Except String Catalog
  | .catalog c => .ok c
  | p => p.unexpected "Catalog"

/-- The library of a phrase. -/
def toLibrary : CatalogPhrase → Except String CatalogLibrary
  | .library l => .ok l
  | p => p.unexpected "Library"

/-- The entry of a phrase. -/
def toItem : CatalogPhrase → Except String CatalogItem
  | .item i => .ok i
  | p => p.unexpected "Item"

/-- The entries that a phrase lists. -/
def entries (p : CatalogPhrase) : Except String (List CatalogItem) := do
  (← p.items).mapM toItem

instance : Phrase CatalogPhrase where
  ofToken t := .token t.value
  ofList := .list
  toList := items

end CatalogPhrase

namespace CatalogGrammar

open Grammar
open CatalogPhrase (toLibrary)

/-- `libraries` -/
def catalog : Reducer CatalogPhrase
  | [libraries] => do
    let libraries ← (← libraries.items).mapM toLibrary
    return .catalog ⟨libraries⟩
  | _ => .error tooFewValues

/-- `"library" STR STR "{" items "}"` -/
def library : Reducer CatalogPhrase
  | [_, name, description, _, items, _] => do
    let name ← name.toText
    let description ← description.toText
    let items ← items.entries
    return .library ⟨name, description, items⟩
  | _ => .error tooFewValues

/-- `LABEL` -/
def leaf : Reducer CatalogPhrase
  | [name] => do
    let name ← name.toText
    return .item (.leaf name)
  | _ => .error tooFewValues

/-- `"folder" STR "{" items "}"` -/
def folder : Reducer CatalogPhrase
  | [_, description, _, items, _] => do
    let description ← description.toText
    let items ← items.entries
    return .item (.folder ⟨description, items, none⟩)
  | _ => .error tooFewValues

/-- All clauses of the grammar. -/
def clauses : List (Clause CatalogPhrase) :=
  [.rule "catalog" [.rule "libraries"] catalog,
    .many "libraries" (.rule "library"),
    .rule "library"
      [.terminal "library", .terminal "str", .terminal "str", .terminal "\x7b", .rule "items",
        .terminal "\x7d"]
      library,
    .separated "items" (.rule "item") (.terminal ","),
    .rule "item" [.terminal "label"] leaf,
    .rule "item"
      [.terminal "folder", .terminal "str", .terminal "\x7b", .rule "items", .terminal "\x7d"]
      folder]

end CatalogGrammar

/-- The grammar of catalogs. Every rule it mentions has a production. -/
def catalogGrammar : Grammar CatalogPhrase :=
  ⟨"catalog", Grammar.Clause.allProductions 0 CatalogGrammar.clauses⟩

end TriggerScript
