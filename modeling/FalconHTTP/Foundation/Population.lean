import Mathlib.Data.Fintype.Card

/-!
# How many parties stand where

A system of finitely many like parties is described by a function from the parties to the points
they can stand at. `population f p` is the number of parties at `p`, and `population_update` its one
law: a party that moves to `q` leaves the point it stood at and joins `q`.
-/

variable {ι P : Type*} [Fintype ι] [DecidableEq P]

/-- The number of parties at a point. -/
def population (f : ι → P) (p : P) : ℕ :=
  (Finset.univ.filter (f · = p)).card

/-- **One party moves.** -/
theorem population_update [DecidableEq ι] (f : ι → P) (i : ι) (q p : P) :
    population (Function.update f i q) p + (if f i = p then 1 else 0) =
      population f p + (if q = p then 1 else 0) := by
  have hsplit : ∀ g : ι → P, population g p =
      ((Finset.univ.erase i).filter (g · = p)).card + (if g i = p then 1 else 0) := by
    intro g
    rw [population, ← Finset.insert_erase (Finset.mem_univ i), Finset.filter_insert]
    split
    · rw [Finset.card_insert_of_notMem (by simp)]
      simp
    · simp
  have hrest : (Finset.univ.erase i).filter (Function.update f i q · = p) =
      (Finset.univ.erase i).filter (f · = p) :=
    Finset.filter_congr fun j hj ↦ by rw [Function.update_of_ne (Finset.ne_of_mem_erase hj)]
  rw [hsplit (Function.update f i q), hsplit f, hrest, Function.update_self]
  omega

theorem population_pos {f : ι → P} {i : ι} {p : P} (h : f i = p) : 0 < population f p :=
  Finset.card_pos.2 ⟨i, by simp [h]⟩

/-- Two points do not share a party. -/
theorem population_add_le [DecidableEq ι] (f : ι → P) {p q : P} (hne : p ≠ q) :
    population f p + population f q ≤ Fintype.card ι := by
  have hdisjoint : Disjoint (Finset.univ.filter (f · = p)) (Finset.univ.filter (f · = q)) :=
    Finset.disjoint_filter.2 fun _ _ hp hq ↦ hne (hp.symm.trans hq)
  rw [population, population, ← Finset.card_union_of_disjoint hdisjoint]
  exact Finset.card_le_univ _

@[simp] theorem population_const (q p : P) :
    population (fun _ : ι ↦ q) p = if q = p then Fintype.card ι else 0 := by
  rw [population]
  split <;> simp_all
