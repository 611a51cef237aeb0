import TriggerScript.Tree

/-!
# Pools of elements

While a document is put together, each library has a pool: the references of its root and its
elements. An element gets its place before the elements it refers to are made, so places are
reserved first and filled later. Libraries stand in the order of their first use.
-/

namespace TriggerScript

/-- What a document holds of one library. -/
structure LibraryPool where
  library : String
  /-- The references of the root, in order. -/
  root : List Node := []
  /-- The places for elements; an open one has no element yet. -/
  places : Array (Option Node) := #[]

/-- The pools of all libraries in the order of their first use. -/
abbrev Pools := List LibraryPool

namespace Pools

/-- Changes the pool of a library, which is made if there is none. -/
def update (library : String) (f : LibraryPool → LibraryPool) : Pools → Pools
  | [] => [f { library }]
  | pool :: rest =>
    if pool.library = library then f pool :: rest else pool :: update library f rest

/-- The pool of a library. -/
def get? (pools : Pools) (library : String) : Option LibraryPool :=
  pools.find? (·.library = library)

/-- Makes sure that a library has a pool. -/
def touch (pools : Pools) (library : String) : Pools :=
  update library id pools

/-- Adds a reference to the root of a library. -/
def addToRoot (pools : Pools) (library : String) (item : Node) : Pools :=
  update library (fun pool => { pool with root := pool.root ++ [item] }) pools

/-- The place that is reserved next in a library. -/
def nextPlace (pools : Pools) (library : String) : Nat :=
  match pools.get? library with
  | some pool => pool.places.size
  | none => 0

/-- Reserves a place in a library. -/
def reserve (pools : Pools) (library : String) : Pools :=
  update library (fun pool => { pool with places := pool.places.push none }) pools

/-- Whether a place of a library is open. -/
def isOpen (pools : Pools) (library : String) (place : Nat) : Bool :=
  match (pools.get? library).bind (·.places[place]?) with
  | some none => true
  | _ => false

/-- Puts an element into a place of a library. -/
def fill (pools : Pools) (library : String) (place : Nat) (element : Node) : Pools :=
  update library
    (fun pool => { pool with places := pool.places.setIfInBounds place (some element) }) pools

/-- Adds elements at the end of a library. -/
def append (pools : Pools) (library : String) (elements : List Node) : Pools :=
  update library
    (fun pool => { pool with places := pool.places ++ (elements.map some).toArray }) pools

end Pools

/-- The elements of a pool, in order. -/
def LibraryPool.elements (pool : LibraryPool) : List Node :=
  pool.places.toList.filterMap id

end TriggerScript
