import Mathlib.Data.List.Basic
import Mathlib.Logic.Function.Basic

/-!
# A ledger of resources with one holder each

Parties that hold at most one resource each, and a log of what was acquired and released. A resource
may be acquired again after it was released, so what the log says of it is counted.

`Balanced` is the law of conservation: a held resource has one holder, and was acquired once more
than it was released; one that nobody holds was released as often as it was acquired. Three moves
keep it:

* `Balanced.acquire`, of a resource that nobody holds;
* `Balanced.release`, by its holder;
* `Balanced.transfer`, from a holder to a party that holds nothing.

From a balanced ledger everything about single resources is read off: it is out exactly when it is
held (`Balanced.isOut_iff`), it has exactly one holder then (`Balanced.existsUnique_holder`), and
once nobody holds anything every acquisition has had its release (`Balanced.idle`).
-/

namespace Ledger

universe u v

variable {ι : Type u} {κ : Type v} [DecidableEq κ]

/-- An entry of the log. -/
inductive Event (κ : Type v)
  /-- A resource was acquired. -/
  | acquired (k : κ)
  /-- A resource was released. -/
  | released (k : κ)
  deriving DecidableEq

/-- The resource has been acquired and not been released since. -/
def IsOut (log : List (Event κ)) (k : κ) : Prop :=
  log.count (.released k) < log.count (.acquired k)

instance (log : List (Event κ)) (k : κ) : Decidable (IsOut log k) :=
  inferInstanceAs (Decidable (_ < _))

/-- Every resource has one holder or none, and the log agrees. -/
structure Balanced (holding : ι → Option κ) (log : List (Event κ)) : Prop where
  /-- A resource has at most one holder. -/
  unique : ∀ {i j k}, holding i = some k → holding j = some k → i = j
  /-- What is held was acquired once more than it was released. -/
  held : ∀ {i k}, holding i = some k →
    log.count (.acquired k) = log.count (.released k) + 1
  /-- What nobody holds was released as often as it was acquired. -/
  idle : ∀ {k}, (∀ i, holding i ≠ some k) → log.count (.acquired k) = log.count (.released k)

variable {holding : ι → Option κ} {log : List (Event κ)} {i j : ι} {k : κ}

/-- Nothing is held and nothing was acquired. -/
theorem balanced_none : Balanced (fun _ : ι ↦ (none : Option κ)) [] where
  unique h := absurd h (by simp)
  held h := absurd h (by simp)
  idle _ := rfl

namespace Balanced

/-- **A resource is out exactly when it is held.** -/
theorem isOut_iff (h : Balanced holding log) : IsOut log k ↔ ∃ i, holding i = some k := by
  constructor
  · intro hout
    by_contra hnone
    rw [IsOut, h.idle fun i hi ↦ hnone ⟨i, hi⟩] at hout
    exact Nat.lt_irrefl _ hout
  · rintro ⟨i, hi⟩
    rw [IsOut, h.held hi]
    exact Nat.lt_succ_self _

/-- **A resource that is out has exactly one holder.** -/
theorem existsUnique_holder (h : Balanced holding log) (hout : IsOut log k) :
    ∃! i, holding i = some k := by
  obtain ⟨i, hi⟩ := h.isOut_iff.1 hout
  exact ⟨i, hi, fun _ hj ↦ h.unique hj hi⟩

/-- A resource is never released more often than it was acquired, nor acquired again before it was
released. -/
theorem count_le (h : Balanced holding log) (k : κ) :
    log.count (.released k) ≤ log.count (.acquired k) ∧
      log.count (.acquired k) ≤ log.count (.released k) + 1 := by
  by_cases hheld : ∃ i, holding i = some k
  · obtain ⟨i, hi⟩ := hheld
    rw [h.held hi]
    exact ⟨Nat.le_succ _, Nat.le_refl _⟩
  · rw [h.idle fun i hi ↦ hheld ⟨i, hi⟩]
    exact ⟨Nat.le_refl _, Nat.le_succ _⟩

variable [DecidableEq ι]

/-- **Acquiring** a resource that nobody holds. -/
theorem acquire (h : Balanced holding log) (hi : holding i = none)
    (hfresh : ∀ j, holding j ≠ some k) :
    Balanced (Function.update holding i (some k)) (log ++ [.acquired k]) where
  unique {a b l} ha hb := by
    rcases eq_or_ne l k with rfl | hl
    · have honly : ∀ c, Function.update holding i (some l) c = some l → c = i := by
        intro c hc
        by_contra hne
        rw [Function.update_of_ne hne] at hc
        exact hfresh c hc
      rw [honly a ha, honly b hb]
    · have hother : ∀ c, Function.update holding i (some k) c = some l → holding c = some l := by
        intro c hc
        rcases eq_or_ne c i with rfl | hci
        · rw [Function.update_self] at hc
          exact absurd (Option.some.inj hc).symm hl
        · rwa [Function.update_of_ne hci] at hc
      exact h.unique (hother a ha) (hother b hb)
  held {a l} ha := by
    rcases eq_or_ne a i with rfl | hai
    · rw [Function.update_self] at ha
      obtain rfl := Option.some.inj ha
      simp [List.count_append, h.idle hfresh]
    · rw [Function.update_of_ne hai] at ha
      have hl : k ≠ l := by
        rintro rfl
        exact hfresh a ha
      simp [List.count_append, hl, h.held ha]
  idle {l} hl := by
    have hk : k ≠ l := by
      rintro rfl
      exact hl i (Function.update_self _ _ _)
    have hrest : ∀ a, holding a ≠ some l := by
      intro a ha
      rcases eq_or_ne a i with rfl | hai
      · rw [hi] at ha
        exact absurd ha (by simp)
      · exact hl a (by rwa [Function.update_of_ne hai])
    simp [List.count_append, hk, h.idle hrest]

/-- **Releasing** a resource that one holds. -/
theorem release (h : Balanced holding log) (hi : holding i = some k) :
    Balanced (Function.update holding i none) (log ++ [.released k]) := by
  have hother : ∀ {a l}, Function.update holding i none a = some l →
      holding a = some l ∧ k ≠ l := by
    intro a l ha
    rcases eq_or_ne a i with rfl | hai
    · rw [Function.update_self] at ha
      exact absurd ha (by simp)
    · rw [Function.update_of_ne hai] at ha
      refine ⟨ha, ?_⟩
      rintro rfl
      exact hai (h.unique ha hi)
  constructor
  · exact fun ha hb ↦ h.unique (hother ha).1 (hother hb).1
  · intro a l ha
    obtain ⟨hheld, hl⟩ := hother ha
    simp [List.count_append, hl, h.held hheld]
  · intro l hl
    rcases eq_or_ne k l with rfl | hk
    · simp [List.count_append, h.held hi]
    · have hrest : ∀ a, holding a ≠ some l := by
        intro a ha
        rcases eq_or_ne a i with rfl | hai
        · rw [hi] at ha
          exact hk (Option.some.inj ha)
        · exact hl a (by rwa [Function.update_of_ne hai])
      simp [List.count_append, hk, h.idle hrest]

/-- Releasing what one holds, if anything. -/
theorem drop (h : Balanced holding log) (i : ι) :
    Balanced (Function.update holding i none) (log ++ (holding i).toList.map .released) := by
  rcases hi : holding i with - | k
  · rw [← hi, Function.update_eq_self, hi]
    simpa using h
  · exact h.release hi

/-- **Transferring** what one party holds to a party that holds nothing. -/
theorem transfer (h : Balanced holding log) (hi : holding i = none) (hij : i ≠ j) :
    Balanced (Function.update (Function.update holding j none) i (holding j)) log := by
  -- the new holder of a resource stands for its old holder
  have hold : ∀ {a l}, Function.update (Function.update holding j none) i (holding j) a = some l →
      holding (if a = i then j else a) = some l ∧ a ≠ j := by
    intro a l ha
    rcases eq_or_ne a i with rfl | hai
    · rw [Function.update_self] at ha
      exact ⟨by rwa [if_pos rfl], hij⟩
    · rw [Function.update_of_ne hai] at ha
      rcases eq_or_ne a j with rfl | haj
      · rw [Function.update_self] at ha
        exact absurd ha (by simp)
      · rw [Function.update_of_ne haj] at ha
        exact ⟨by rwa [if_neg hai], haj⟩
  constructor
  · intro a b l ha hb
    have heq := h.unique (hold ha).1 (hold hb).1
    rcases eq_or_ne a i with hai | hai
    · rcases eq_or_ne b i with hbi | hbi
      · rw [hai, hbi]
      · rw [if_pos hai, if_neg hbi] at heq
        exact absurd heq.symm (hold hb).2
    · rcases eq_or_ne b i with hbi | hbi
      · rw [if_neg hai, if_pos hbi] at heq
        exact absurd heq (hold ha).2
      · rwa [if_neg hai, if_neg hbi] at heq
  · exact fun ha ↦ h.held (hold ha).1
  · intro l hl
    refine h.idle fun a ha ↦ ?_
    rcases eq_or_ne a j with rfl | haj
    · exact hl i (by rw [Function.update_self, ha])
    · rcases eq_or_ne a i with rfl | hai
      · rw [hi] at ha
        exact absurd ha (by simp)
      · exact hl a (by rw [Function.update_of_ne hai, Function.update_of_ne haj, ha])

end Balanced

end Ledger
