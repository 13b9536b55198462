import Mathlib.Data.List.AList

/-!
# Finite maps behind an interface

A program that uses a hash map relies on a few laws and on no iteration order. `FiniteMap M K V` is
that contract: lookups determine the map's behavior, every entry is visited once, `update` answers
exactly on present keys, `insert` is used on absent ones, and `assign` is the indexed assignment
that serves both. `entries` is the iteration, in an order the contract leaves open.

`put` is the idiom "update, and insert when there was nothing to update"; `find?_put` says it is
last-write-wins whatever the map held.

Mathlib's association lists satisfy the contract (`FiniteMap.instAList`), so it is not empty and a
concrete map can be evaluated.
-/

/-- The contract of a finite map from `K` to `V`. -/
class FiniteMap (M : Type*) (K V : outParam Type*) [DecidableEq K] where
  /-- The map without entries. -/
  empty : M
  /-- The value stored under a key. -/
  find? : M → K → Option V
  /-- The entries in iteration order. -/
  entries : M → List (K × V)
  /-- Overwrite the value of a present key; `none` when the key is absent. -/
  update : M → K → V → Option M
  /-- Add an absent key. -/
  insert : M → K → V → M
  /-- Set a key's value, present or not. -/
  assign : M → K → V → M
  /-- The empty map stores nothing. -/
  find?_empty : ∀ k, find? empty k = none
  /-- Iteration visits exactly the stored entries. -/
  mem_entries : ∀ {m k v}, (k, v) ∈ entries m ↔ find? m k = some v
  /-- Iteration visits each key once. -/
  nodup_keys : ∀ m, ((entries m).map Prod.fst).Nodup
  /-- `update` fails exactly on absent keys. -/
  update_eq_none : ∀ {m k v}, update m k v = none ↔ find? m k = none
  /-- A successful `update` changes the one key. -/
  find?_update : ∀ {m m' k v}, update m k v = some m' →
    ∀ j, find? m' j = if j = k then some v else find? m j
  /-- `insert` of an absent key adds the one key. -/
  find?_insert : ∀ {m k} v, find? m k = none →
    ∀ j, find? (insert m k v) j = if j = k then some v else find? m j
  /-- `assign` sets the one key. -/
  find?_assign : ∀ m k v j, find? (assign m k v) j = if j = k then some v else find? m j

namespace FiniteMap

variable {M K V : Type*} [DecidableEq K] [FiniteMap M K V]

/-- Update the key when it is present, insert it otherwise. -/
def put (m : M) (k : K) (v : V) : M :=
  match update m k v with
  | some m' => m'
  | none => insert m k v

/-- **`put` is last-write-wins.** -/
theorem find?_put (m : M) (k : K) (v : V) (j : K) :
    find? (put m k v) j = if j = k then some v else find? m j := by
  rw [put]
  rcases hupd : update m k v with - | m'
  · exact find?_insert v (update_eq_none.1 hupd) j
  · exact find?_update hupd j

/-! ### Writing a list of items

`set` writes one item: it sets the key `key e` to `val e`. Both ways of setting a key do. -/

theorem find?_put_item {E : Type*} (key : E → K) (val : E → V) (m : M) (e : E) (j : K) :
    find? (put m (key e) (val e)) j = if j = key e then some (val e) else find? m j :=
  find?_put m (key e) (val e) j

theorem find?_assign_item {E : Type*} (key : E → K) (val : E → V) (m : M) (e : E) (j : K) :
    find? (assign m (key e) (val e)) j = if j = key e then some (val e) else find? m j :=
  find?_assign m (key e) (val e) j

section Fold

variable {E : Type*} {set : M → E → M} {key : E → K} {val : E → V}
  (hset : ∀ m e j, find? (set m e) j = if j = key e then some (val e) else find? m j)

include hset

/-- **The last item that writes a key wins.** -/
theorem find?_foldl (es : List E) (m : M) (j : K) :
    find? (es.foldl set m) j =
      ((es.reverse.find? fun e ↦ j = key e).map val).or (find? m j) := by
  induction es generalizing m with
  | nil => rfl
  | cons e es ih =>
    rw [List.foldl_cons, ih, hset, List.reverse_cons, List.find?_append]
    rcases es.reverse.find? fun e ↦ j = key e with - | d
    · by_cases hj : j = key e <;> simp [hj]
    · rfl

/-- A key that no item writes keeps its value. -/
theorem find?_foldl_of_ne (es : List E) (m : M) {j : K} (hj : ∀ e ∈ es, j ≠ key e) :
    find? (es.foldl set m) j = find? m j := by
  induction es generalizing m with
  | nil => rfl
  | cons e es ih =>
    rw [List.foldl_cons, ih (set m e) fun d hd ↦ hj d (List.mem_cons_of_mem _ hd), hset,
      if_neg (hj e List.mem_cons_self)]

/-- A key that one item writes gets that item's value. -/
theorem find?_foldl_of_mem {es : List E} (hdistinct : es.Pairwise fun d e ↦ key d ≠ key e) (m : M)
    {e : E} (he : e ∈ es) : find? (es.foldl set m) (key e) = some (val e) := by
  induction es generalizing m with
  | nil => exact absurd he List.not_mem_nil
  | cons d es ih =>
    obtain ⟨hd, hes⟩ := List.pairwise_cons.1 hdistinct
    rw [List.foldl_cons]
    rcases List.mem_cons.1 he with rfl | he'
    · rw [find?_foldl_of_ne hset es _ fun e' he' ↦ hd e' he', hset, if_pos rfl]
    · exact ih hes (set m d) he'

/-- Items that write a function of their key leave its value behind. -/
theorem find?_foldl_of_val {es : List E} {f : K → V} (hval : ∀ e ∈ es, val e = f (key e)) (m : M)
    {j : K} (hj : j ∈ es.map key) : find? (es.foldl set m) j = some (f j) := by
  induction es generalizing m with
  | nil => exact absurd hj List.not_mem_nil
  | cons e es ih =>
    rw [List.foldl_cons]
    by_cases hrest : j ∈ es.map key
    · exact ih (fun d hd ↦ hval d (List.mem_cons_of_mem _ hd)) _ hrest
    · obtain rfl := (List.mem_cons.1 hj).resolve_right hrest
      have hne : ∀ d ∈ es, key e ≠ key d := fun d hd heq ↦ hrest (List.mem_map.2 ⟨d, hd, heq.symm⟩)
      rw [find?_foldl_of_ne hset es _ hne, hset, if_pos rfl, hval e List.mem_cons_self]

end Fold

/-- Association lists are finite maps. -/
instance instAList : FiniteMap (AList fun _ : K ↦ V) K V where
  empty := ∅
  find? m k := m.lookup k
  entries m := m.entries.map fun e ↦ (e.1, e.2)
  update m k v := if k ∈ m then some (m.insert k v) else none
  insert m k v := m.insert k v
  assign m k v := m.insert k v
  find?_empty k := AList.lookup_empty k
  mem_entries {m k v} := by
    rw [← Option.mem_def, AList.mem_lookup_iff]
    simp
  nodup_keys m := by
    rw [List.map_map]
    exact m.keys_nodup
  update_eq_none {m k v} := by
    rw [AList.lookup_eq_none]
    split <;> simp_all
  find?_update {m m' k v} h j := by
    split at h
    · obtain rfl := Option.some.inj h
      rcases eq_or_ne j k with rfl | hne
      · rw [if_pos rfl, AList.lookup_insert]
      · rw [if_neg hne, AList.lookup_insert_ne hne]
    · exact absurd h (by simp)
  find?_insert {m k} v _ j := by
    rcases eq_or_ne j k with rfl | hne
    · rw [if_pos rfl, AList.lookup_insert]
    · rw [if_neg hne, AList.lookup_insert_ne hne]
  find?_assign m k v j := by
    rcases eq_or_ne j k with rfl | hne
    · rw [if_pos rfl, AList.lookup_insert]
    · rw [if_neg hne, AList.lookup_insert_ne hne]

end FiniteMap
