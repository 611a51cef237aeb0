import TriggerScript.Allocation

/-!
# Catalogs

The syntax trees of the catalog language. A catalog lists, library by library, the definitions of a
program in the order in which they are shown, grouped in folders.
-/

namespace TriggerScript

mutual

/-- An entry of a catalog. -/
inductive CatalogItem where
  /-- The definition of this name. -/
  | leaf (name : String)
  | folder (f : Folder)

/-- A folder with its entries. -/
structure Folder where
  description : String
  items : List CatalogItem
  allocation : Option Allocation := none

end

mutual

/-- Decides whether two entries are equal. -/
def CatalogItem.decEq : (a b : CatalogItem) → Decidable (a = b)
  | .leaf name, .leaf name' => decidable_of_iff (name = name') (by simp)
  | .leaf _, .folder _ => isFalse (by simp)
  | .folder _, .leaf _ => isFalse (by simp)
  | .folder f, .folder f' =>
    match f.decEq f' with
    | isTrue h => isTrue (by simp [h])
    | isFalse h => isFalse (by simp [h])

/-- Decides whether two folders are equal. -/
def Folder.decEq : (a b : Folder) → Decidable (a = b)
  | ⟨d, is, x⟩, ⟨d', is', x'⟩ =>
    match CatalogItem.decEqList is is' with
    | isTrue h => decidable_of_iff (d = d' ∧ x = x') (by simp [h])
    | isFalse h => isFalse (by simp [h])

/-- Decides whether two lists of entries are equal. -/
def CatalogItem.decEqList : (a b : List CatalogItem) → Decidable (a = b)
  | [], [] => isTrue rfl
  | [], _ :: _ => isFalse (by simp)
  | _ :: _, [] => isFalse (by simp)
  | a :: as, b :: bs =>
    match a.decEq b, CatalogItem.decEqList as bs with
    | isTrue h, isTrue h' => isTrue (by simp [h, h'])
    | isFalse h, _ => isFalse (by simp [h])
    | _, isFalse h => isFalse (by simp [h])

end

instance : DecidableEq CatalogItem := CatalogItem.decEq

/-- The entries of a library. -/
structure CatalogLibrary where
  name : String
  description : String
  items : List CatalogItem
deriving DecidableEq

/-- A catalog. -/
structure Catalog where
  libraries : List CatalogLibrary
deriving DecidableEq

end TriggerScript
