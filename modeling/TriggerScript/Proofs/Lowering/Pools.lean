import Mathlib.Tactic.Common
import TriggerScript.Lowering.Pool

/-!
# Elements in pools

A pool is read through two views: the places of a library and the references of its root. Reserving a
place, making other elements and then filling the place comes to the same as adding the element at
once and making the others behind it (`fill_extend_reserve`). So what a computation does to the pools
is said by the list of the elements it makes, in the order in which their places are reserved.
-/

namespace TriggerScript

/-- An element together with the library whose pool it is in. -/
structure Part where
  library : String
  type : ElementType
  id : ElementId
  children : List Node

namespace Part

/-- The node of an element. -/
def node (part : Part) : Node where
  tag := "Element"
  attributes := [("Type", part.type.name), ("Id", part.id.text)]
  children := part.children

/-- Where an element is found. -/
def allocation (part : Part) : Allocation :=
  ⟨part.library, part.id⟩

end Part

namespace Pools

variable {pools : Pools} {library l : String} {f g : LibraryPool → LibraryPool}

/-- The pool of a library, which is empty if there is none. -/
def pool (pools : Pools) (library : String) : LibraryPool :=
  (pools.get? library).getD { library }

/-- The places of a library. -/
def places (pools : Pools) (library : String) : List (Option Node) :=
  (pools.pool library).places.toList

/-- The references of the root of a library. -/
def roots (pools : Pools) (library : String) : List Node :=
  (pools.pool library).root

/-- The pools with more elements, one behind the other. -/
def extend (pools : Pools) (parts : List Part) : Pools :=
  parts.foldl (fun pools part => pools.append part.library [part.node]) pools

@[simp] lemma extend_nil (pools : Pools) : pools.extend [] = pools :=
  rfl

@[simp] lemma extend_cons (pools : Pools) (part : Part) (parts : List Part) :
    pools.extend (part :: parts) = (pools.append part.library [part.node]).extend parts :=
  rfl

lemma extend_append (pools : Pools) (parts parts' : List Part) :
    pools.extend (parts ++ parts') = (pools.extend parts).extend parts' :=
  List.foldl_append

/-! ## Updates -/

/-- An update changes the pool of its library and no other. -/
lemma get?_update (hf : ∀ q, (f q).library = q.library) :
    get? (update library f pools) l =
      if l = library then some (f (pools.pool library)) else pools.get? l := by
  induction pools with
  | nil =>
    by_cases hl : l = library
    · subst hl
      simp [update, get?, pool, hf]
    · simp [update, get?, hf, hl, Ne.symm hl]
  | cons q rest ih =>
    by_cases hq : q.library = library
    · rw [update, if_pos hq]
      by_cases hl : l = library
      · subst hl
        simp [get?, pool, hf, hq]
      · have hne : ¬q.library = l := fun h => hl (h ▸ hq)
        simp [get?, hf, hl, hne]
    · rw [update, if_neg hq]
      have hpool : pool (q :: rest) library = pool rest library := by simp [pool, get?, hq]
      rw [hpool]
      by_cases hql : q.library = l
      · have hl : ¬l = library := fun h => hq (hql.trans h)
        simp [get?, hql, hl]
      · have hget : ∀ r : Pools, get? (q :: r) l = get? r l := fun r => by simp [get?, hql]
        rw [hget, hget, ih]

lemma pool_update (hf : ∀ q, (f q).library = q.library) :
    pool (update library f pools) l = if l = library then f (pools.pool library) else pools.pool l := by
  rw [pool, get?_update hf]
  split_ifs <;> rfl

lemma update_update (hg : ∀ q, (g q).library = q.library) :
    update library f (update library g pools) = update library (fun q => f (g q)) pools := by
  induction pools with
  | nil => simp [update, hg]
  | cons q rest ih =>
    by_cases hq : q.library = library
    · simp [update, hq, hg]
    · simp [update, hq, ih]

/-- An update depends on what it does to the pool of its library only. -/
lemma update_congr (h : f (pools.pool library) = g (pools.pool library)) :
    update library f pools = update library g pools := by
  induction pools with
  | nil =>
    rw [update, update]
    exact congrArg (fun q => [q]) h
  | cons q rest ih =>
    by_cases hq : q.library = library
    · have hpool : pool (q :: rest) library = q := by simp [pool, get?, hq]
      rw [hpool] at h
      simp [update, hq, h]
    · have hpool : pool (q :: rest) library = pool rest library := by simp [pool, get?, hq]
      rw [hpool] at h
      simp [update, hq, ih h]

/-- Updates of two libraries can be swapped if the one that comes first has a pool already. -/
lemma update_comm (hl : l ≠ library) (hf : ∀ q, (f q).library = q.library)
    (hg : ∀ q, (g q).library = q.library) (hpool : (pools.get? library).isSome) :
    update library f (update l g pools) = update l g (update library f pools) := by
  induction pools with
  | nil => simp [get?] at hpool
  | cons q rest ih =>
    by_cases hq : q.library = library
    · simp [update, hq, hf, hl.symm]
    · by_cases hql : q.library = l
      · have hne : ¬l = library := hl
        simp [update, hql, hg, hne]
      · have hrest : (get? rest library).isSome := by simpa [get?, hq] using hpool
        simp [update, hq, hql, ih hrest]

/-! ## The views of the operations -/

lemma nextPlace_eq (pools : Pools) (library : String) :
    pools.nextPlace library = (pools.places library).length := by
  rw [nextPlace, places, pool]
  cases pools.get? library <;> rfl

lemma isOpen_iff {place : Nat} :
    pools.isOpen library place ↔ (pools.places library)[place]? = some none := by
  rw [isOpen, places, pool]
  rcases pools.get? library with _ | q
  · simp
  · simp only [Option.bind_some, Option.getD_some, Array.getElem?_toList]
    rcases q.places[place]? with _ | _ | n <;> simp

lemma places_append {elements : List Node} :
    (pools.append library elements).places l =
      if l = library then pools.places l ++ elements.map some else pools.places l := by
  rw [places, append, pool_update (by intro; rfl), places]
  split_ifs with hl
  · rw [hl]
    simp
  · rfl

lemma roots_append {elements : List Node} :
    (pools.append library elements).roots l = pools.roots l := by
  rw [roots, append, pool_update (by intro; rfl), roots]
  split_ifs with hl
  · rw [hl]
  · rfl

lemma places_reserve :
    (pools.reserve library).places l =
      if l = library then pools.places l ++ [none] else pools.places l := by
  rw [places, reserve, pool_update (by intro; rfl), places]
  split_ifs with hl
  · rw [hl]
    simp
  · rfl

lemma places_fill {place : Nat} {n : Node} :
    (pools.fill library place n).places l =
      if l = library then (pools.places l).set place (some n) else pools.places l := by
  rw [places, fill, pool_update (by intro; rfl), places]
  split_ifs with hl
  · rw [hl]
    simp
  · rfl

lemma places_addToRoot {item : Node} :
    (pools.addToRoot library item).places l = pools.places l := by
  rw [places, addToRoot, pool_update (by intro; rfl), places]
  split_ifs with hl
  · rw [hl]
  · rfl

lemma roots_addToRoot {item : Node} :
    (pools.addToRoot library item).roots l =
      if l = library then pools.roots l ++ [item] else pools.roots l := by
  rw [roots, addToRoot, pool_update (by intro; rfl), roots]
  split_ifs with hl
  · rw [hl]
  · rfl

lemma places_touch : (pools.touch library).places l = pools.places l := by
  rw [places, touch, pool_update (by intro; rfl), places]
  split_ifs with hl
  · rw [hl]
    rfl
  · rfl

lemma roots_touch : (pools.touch library).roots l = pools.roots l := by
  rw [roots, touch, pool_update (by intro; rfl), roots]
  split_ifs with hl
  · rw [hl]
    rfl
  · rfl

/-- The elements of a library stand behind its places in the order in which they are added. -/
lemma places_extend (parts : List Part) :
    (pools.extend parts).places l =
      pools.places l ++ (parts.filter (·.library = l)).map fun part => some part.node := by
  induction parts generalizing pools with
  | nil => simp
  | cons part rest ih =>
    rw [extend_cons, ih, places_append]
    by_cases hl : l = part.library
    · simp [hl]
    · simp [hl, Ne.symm hl]

lemma roots_extend (parts : List Part) : (pools.extend parts).roots l = pools.roots l := by
  induction parts generalizing pools with
  | nil => rfl
  | cons part rest ih => rw [extend_cons, ih, roots_append]

/-- Elements of one library can be added at once, if there are any. -/
lemma append_eq_extend (part : Part) (parts : List Part)
    (h : ∀ other ∈ parts, other.library = part.library) :
    pools.append part.library (part.node :: parts.map Part.node) = pools.extend (part :: parts) := by
  induction parts generalizing pools part with
  | nil => rfl
  | cons other rest ih =>
    have hother : other.library = part.library := h other (by simp)
    have hrest : ∀ q ∈ rest, q.library = other.library := fun q hq =>
      (h q (by simp [hq])).trans hother.symm
    rw [extend_cons, ← ih other hrest, hother, append, append, append, update_update (by intro; rfl)]
    simp

/-! ## Reserving and filling -/

lemma isSome_get?_of_place {place : Nat} (h : place < (pools.places library).length) :
    (pools.get? library).isSome := by
  rw [places, pool] at h
  rcases hpool : pools.get? library with _ | q
  · simp [hpool] at h
  · rfl

/-- A place that is there can be filled before or after elements are added. -/
lemma fill_append {place : Nat} {n : Node} {elements : List Node}
    (h : place < (pools.places library).length) :
    (pools.append l elements).fill library place n =
      (pools.fill library place n).append l elements := by
  by_cases hl : l = library
  · subst hl
    rw [fill, append, append, fill, update_update (by intro; rfl), update_update (by intro; rfl)]
    apply update_congr
    have hlt : place < (pools.pool l).places.size := by simpa [places] using h
    simp [Array.setIfInBounds, hlt, Nat.lt_add_right, Array.set_append_left]
  · exact update_comm hl (by intro; rfl) (by intro; rfl) (isSome_get?_of_place h)

lemma fill_extend {place : Nat} {n : Node} (parts : List Part)
    (h : place < (pools.places library).length) :
    (pools.extend parts).fill library place n = (pools.fill library place n).extend parts := by
  induction parts generalizing pools with
  | nil => rfl
  | cons part rest ih =>
    have hlt : place < ((pools.append part.library [part.node]).places library).length := by
      rw [places_append]
      split_ifs
      · rw [List.length_append]
        exact Nat.lt_add_right _ h
      · exact h
    rw [extend_cons, ih hlt, fill_append h, extend_cons]

lemma fill_reserve (n : Node) :
    (pools.reserve library).fill library (pools.nextPlace library) n = pools.append library [n] := by
  rw [fill, reserve, append, update_update (by intro; rfl)]
  apply update_congr
  rw [nextPlace_eq, places]
  simp [Array.setIfInBounds, Array.set_push]

/-- To reserve a place, to add other elements and then to fill the place is to add the element and
then the others. -/
lemma fill_extend_reserve (n : Node) (parts : List Part) :
    ((pools.reserve library).extend parts).fill library (pools.nextPlace library) n =
      (pools.append library [n]).extend parts := by
  rw [fill_extend, fill_reserve]
  rw [places_reserve, if_pos rfl, nextPlace_eq]
  simp

/-- A place stays open while other elements are added. -/
lemma isOpen_extend_reserve (parts : List Part) :
    ((pools.reserve library).extend parts).isOpen library (pools.nextPlace library) := by
  rw [isOpen_iff, places_extend, places_reserve, if_pos rfl, nextPlace_eq]
  simp

/-! ## Growth -/

/-- The libraries that have pools. -/
def libraries (pools : Pools) : List String :=
  pools.map LibraryPool.library

/-- Some pools have grown to others by elements and by references of roots, one behind the other.
There is still one pool for each library, and the libraries with a pool are those that had one or that
were touched on the way. -/
structure Grows (pools : Pools) (parts : List Part) (items : List (String × Node))
    (touched : List String) (pools' : Pools) : Prop where
  places : ∀ l, pools'.places l =
    pools.places l ++ (parts.filter (·.library = l)).map fun part => some part.node
  roots : ∀ l, pools'.roots l = pools.roots l ++ (items.filter (·.1 = l)).map Prod.snd
  nodup : pools.libraries.Nodup → pools'.libraries.Nodup
  libraries : ∀ l, l ∈ pools'.libraries ↔
    l ∈ pools.libraries ∨ l ∈ parts.map Part.library ∨ l ∈ items.map Prod.fst ∨ l ∈ touched

lemma mem_libraries_update (hf : ∀ q, (f q).library = q.library) (pools : Pools) (l : String) :
    l ∈ (update library f pools).libraries ↔ l = library ∨ l ∈ pools.libraries := by
  rw [libraries, libraries]
  induction pools with
  | nil => simp [update, hf]
  | cons q rest ih =>
    by_cases hq : q.library = library
    · simp [update, hq, hf]
    · simp only [update, hq, if_false, List.map_cons, List.mem_cons, ih]
      exact or_left_comm

lemma nodup_update (hf : ∀ q, (f q).library = q.library) {pools : Pools}
    (h : pools.libraries.Nodup) : (update library f pools).libraries.Nodup := by
  induction pools with
  | nil => simp [update, libraries]
  | cons q rest ih =>
    rw [libraries, List.map_cons, List.nodup_cons] at h
    by_cases hq : q.library = library
    · rw [update, if_pos hq, libraries, List.map_cons, hf, List.nodup_cons]
      exact h
    · rw [update, if_neg hq, libraries, List.map_cons, List.nodup_cons]
      refine ⟨fun hmem => ?_, ih h.2⟩
      rcases (mem_libraries_update hf rest q.library).1 hmem with hmem | hmem
      · exact hq hmem
      · exact h.1 hmem

lemma mem_libraries_extend (pools : Pools) (parts : List Part) (l : String) :
    l ∈ (pools.extend parts).libraries ↔ l ∈ pools.libraries ∨ l ∈ parts.map Part.library := by
  induction parts generalizing pools with
  | nil => simp
  | cons part rest ih =>
    rw [extend_cons, ih, append, mem_libraries_update (by intro; rfl), List.map_cons, List.mem_cons]
    tauto

namespace Grows

variable {pools pools₁ pools' : Pools} {parts parts' : List Part}
  {items items' : List (String × Node)} {touched touched' : List String}

lemma refl (pools : Pools) : pools.Grows [] [] [] pools :=
  ⟨by simp, by simp, id, by simp⟩

lemma trans (h : pools.Grows parts items touched pools₁)
    (h' : pools₁.Grows parts' items' touched' pools') :
    pools.Grows (parts ++ parts') (items ++ items') (touched ++ touched') pools' where
  places l := by rw [h'.places, h.places]; simp
  roots l := by rw [h'.roots, h.roots]; simp
  nodup := h'.nodup ∘ h.nodup
  libraries l := by
    rw [h'.libraries, h.libraries]
    simp only [List.map_append, List.mem_append]
    tauto

lemma extend (pools : Pools) (parts : List Part) : pools.Grows parts [] [] (pools.extend parts) where
  places _ := places_extend parts
  roots l := by rw [roots_extend]; simp
  nodup h := by
    induction parts generalizing pools with
    | nil => exact h
    | cons part rest ih => exact ih _ (nodup_update (by intro; rfl) h)
  libraries l := by rw [mem_libraries_extend]; simp

lemma addToRoot (pools : Pools) (library : String) (item : Node) :
    pools.Grows [] [(library, item)] [] (pools.addToRoot library item) where
  places l := by rw [places_addToRoot]; simp
  roots l := by
    rw [roots_addToRoot]
    by_cases hl : l = library
    · simp [hl]
    · simp [hl, Ne.symm hl]
  nodup := nodup_update (by intro; rfl)
  libraries l := by
    rw [Pools.addToRoot, mem_libraries_update (by intro; rfl)]
    simp [or_comm]

lemma touch (pools : Pools) (library : String) :
    pools.Grows [] [] [library] (pools.touch library) where
  places l := by rw [places_touch]; simp
  roots l := by rw [roots_touch]; simp
  nodup := nodup_update (by intro; rfl)
  libraries l := by
    rw [Pools.touch, mem_libraries_update (by intro; rfl)]
    simp [or_comm]

end Grows

end Pools

end TriggerScript
