import Mathlib.Data.Finset.Option
import Mathlib.Data.List.Forall2
import Mathlib.Data.Set.Finite.Basic

/-!
# Patterns with wildcards

A pattern is a list of letters and wildcards, and accepts the words that it becomes when a letter is
put for each wildcard. The words are over a set `L` of letters.

* `exists_accepts_iff`: two patterns accept a common word exactly when they meet position by
  position.
* `covered_iff`: over infinitely many letters, a pattern that a list of patterns covers together is
  covered by one of them, which is above it position by position. A letter that stands in none of
  them is put for the wildcards of the pattern.
-/

namespace Wildcard

variable {α : Type*}

/-- A letter, or a wildcard for one letter. -/
abbrev Pattern (α : Type*) :=
  List (Option α)

/-- A position of a pattern takes a letter. -/
def Takes (x : Option α) (a : α) : Prop :=
  x = none ∨ x = some a

/-- A pattern accepts a word. -/
def Accepts (p : Pattern α) (w : List α) : Prop :=
  List.Forall₂ Takes p w

/-- Two positions take a common letter. -/
def Meets (x y : Option α) : Prop :=
  x = none ∨ y = none ∨ x = y

/-- A position takes what another takes. -/
def Above (x y : Option α) : Prop :=
  x = none ∨ x = y

instance [DecidableEq α] (x y : Option α) : Decidable (Meets x y) :=
  inferInstanceAs (Decidable (_ ∨ _))

instance [DecidableEq α] (x y : Option α) : Decidable (Above x y) :=
  inferInstanceAs (Decidable (_ ∨ _))

/-- The letters of a pattern are from a set. -/
def Over (L : Set α) (p : Pattern α) : Prop :=
  ∀ a, some a ∈ p → a ∈ L

/-- A word over the letters `L`. -/
def WordOver (L : Set α) (w : List α) : Prop :=
  ∀ a ∈ w, a ∈ L

variable {L : Set α} {p q : Pattern α} {w : List α}

theorem Over.tail {x : Option α} (h : Over L (x :: p)) : Over L p :=
  fun a ha ↦ h a (List.mem_cons_of_mem x ha)

theorem WordOver.cons {a : α} (ha : a ∈ L) (h : WordOver L w) : WordOver L (a :: w) :=
  List.forall_mem_cons.2 ⟨ha, h⟩

/-! ### Filling a pattern -/

/-- The word of a pattern with one letter for all its wildcards. -/
def fill (a : α) (p : Pattern α) : List α :=
  p.map (·.getD a)

theorem accepts_fill (a : α) (p : Pattern α) : Accepts p (fill a p) := by
  refine List.forall₂_map_right_iff.2 (List.forall₂_same.2 fun x _ ↦ ?_)
  cases x with
  | none => exact Or.inl rfl
  | some b => exact Or.inr rfl

theorem wordOver_fill {a : α} (ha : a ∈ L) (hp : Over L p) : WordOver L (fill a p) := by
  intro b hb
  obtain ⟨x, hx, rfl⟩ := List.mem_map.1 hb
  cases x with
  | none => exact ha
  | some b => exact hp b hx

/-! ### Two patterns -/

/-- **A word is accepted by two patterns** exactly when they meet everywhere. -/
theorem exists_accepts_iff (hL : L.Nonempty) (hp : Over L p) (hq : Over L q) :
    (∃ w, WordOver L w ∧ Accepts p w ∧ Accepts q w) ↔ List.Forall₂ Meets p q := by
  constructor
  · rintro ⟨w, -, hpw, hqw⟩
    clear hp hq
    induction hpw generalizing q with
    | nil =>
      cases hqw
      exact List.Forall₂.nil
    | @cons x a p w hx _ ih =>
      rcases hqw with - | ⟨hy, hrest⟩
      refine List.Forall₂.cons ?_ (ih hrest)
      rcases hx with rfl | rfl
      · exact Or.inl rfl
      · exact Or.inr (hy.imp_right Eq.symm)
  · intro h
    obtain ⟨a, ha⟩ := hL
    induction h with
    | nil => exact ⟨[], fun b hb ↦ absurd hb List.not_mem_nil, List.Forall₂.nil, List.Forall₂.nil⟩
    | @cons x y p q hxy _ ih =>
      obtain ⟨w, hw, hpw, hqw⟩ := ih hp.tail hq.tail
      -- the letter of either position, if there is one
      obtain ⟨b, hb, hxb, hyb⟩ : ∃ b ∈ L, Takes x b ∧ Takes y b := by
        rcases x with - | b
        · rcases y with - | b
          · exact ⟨a, ha, Or.inl rfl, Or.inl rfl⟩
          · exact ⟨b, hq b List.mem_cons_self, Or.inl rfl, Or.inr rfl⟩
        · refine ⟨b, hp b List.mem_cons_self, Or.inr rfl, ?_⟩
          rcases hxy with h | h | h
          · cases h
          · exact Or.inl h
          · exact Or.inr h.symm
      exact ⟨b :: w, hw.cons hb, List.Forall₂.cons hxb hpw, List.Forall₂.cons hyb hqw⟩

/-- A pattern that is above another accepts what that accepts. -/
theorem Accepts.of_above (h : Accepts q w) (habove : List.Forall₂ Above p q) : Accepts p w := by
  induction h generalizing p with
  | nil =>
    cases habove
    exact List.Forall₂.nil
  | @cons y a q w hy _ ih =>
    rcases habove with - | ⟨hxy, hrest⟩
    refine List.Forall₂.cons ?_ (ih hrest)
    rcases hxy with rfl | rfl
    · exact Or.inl rfl
    · exact hy

/-- Above a wildcard there is a wildcard. -/
theorem head?_eq_of_above (habove : List.Forall₂ Above p q) (hq : q.head? = some none) :
    p.head? = some none := by
  cases habove with
  | nil => cases hq
  | cons hxy _ =>
    obtain rfl := Option.some.inj hq
    rcases hxy with rfl | rfl
    · rfl
    · rfl

/-- A pattern that accepts another filled with a letter that it does not have is above that
other. -/
theorem above_of_accepts_fill {a : α} (ha : some a ∉ p) (h : Accepts p (fill a q)) :
    List.Forall₂ Above p q := by
  rw [fill, Accepts, List.forall₂_map_right_iff] at h
  induction h with
  | nil => exact List.Forall₂.nil
  | @cons x y p q hxy _ ih =>
    refine List.Forall₂.cons ?_ (ih fun hmem ↦ ha (List.mem_cons_of_mem x hmem))
    rcases hxy with rfl | rfl
    · exact Or.inl rfl
    · cases y with
      | none => exact absurd List.mem_cons_self ha
      | some b => exact Or.inr rfl

/-! ### A pattern and a list of patterns -/

/-- Infinitely many letters are not used up by finitely many patterns. -/
theorem exists_fresh (hL : L.Infinite) (ps : List (Pattern α)) :
    ∃ a ∈ L, ∀ p ∈ ps, some a ∉ p := by
  classical
  obtain ⟨a, ha, hfresh⟩ := hL.exists_notMem_finset (Finset.eraseNone ps.flatten.toFinset)
  refine ⟨a, ha, fun p hp hmem ↦ hfresh ?_⟩
  rw [Finset.mem_eraseNone, List.mem_toFinset]
  exact List.mem_flatten.2 ⟨p, hp, hmem⟩

/-- **What patterns cover together, one of them covers.** -/
theorem covered_iff (hL : L.Infinite) (ps : List (Pattern α)) (hq : Over L q) :
    (∀ w, WordOver L w → Accepts q w → ∃ p ∈ ps, Accepts p w) ↔
      ∃ p ∈ ps, List.Forall₂ Above p q := by
  constructor
  · intro h
    obtain ⟨a, ha, hfresh⟩ := exists_fresh hL ps
    obtain ⟨p, hp, haccepts⟩ := h (fill a q) (wordOver_fill ha hq) (accepts_fill a q)
    exact ⟨p, hp, above_of_accepts_fill (hfresh p hp) haccepts⟩
  · rintro ⟨p, hp, habove⟩ w - hw
    exact ⟨p, hp, hw.of_above habove⟩

end Wildcard
