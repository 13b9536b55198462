import Mathlib.Data.List.Basic
import Mathlib.Data.List.Infix

/-!
# First occurrences of a pattern in a list

`indexOf? p l` is the least index at which the pattern `p` occurs in `l`, as a contiguous run of
symbols. It is the search a string library calls `find`, over an arbitrary alphabet with decidable
equality; `indexFrom?` is the same search started at a position.

The specification is `indexOf?_eq_some_iff`: the answer is an occurrence, and no smaller index is.
Everything else is read off it. What an incremental reader needs is how a first occurrence behaves
when the text grows at its end:

* an occurrence already found never moves (`indexOf?_append_of_eq_some`);
* an occurrence that lies inside a prefix is found in the prefix (`indexOf?_of_append`);
* so the search in a prefix answers exactly by whether the occurrence is complete in it
  (`indexOf?_prefix_eq_none_iff`).
-/

namespace Occurrence

variable {α : Type*} [DecidableEq α]

/-- The least index at which `p` occurs in the list. -/
def indexOf? (p : List α) : List α → Option ℕ
  | [] => if p.isPrefixOf [] then some 0 else none
  | x :: s => if p.isPrefixOf (x :: s) then some 0 else (indexOf? p s).map (· + 1)

/-- The least index from `pos` on at which `p` occurs in the list. -/
def indexFrom? (p : List α) (l : List α) (pos : ℕ) : Option ℕ :=
  (indexOf? p (l.drop pos)).map (· + pos)

variable {p l s t : List α} {i k : ℕ}

/-! ### The specification -/

/-- The search fails exactly when the pattern occurs nowhere. -/
theorem indexOf?_eq_none_iff : indexOf? p l = none ↔ ∀ j, ¬ p <+: l.drop j := by
  induction l with
  | nil =>
    rw [indexOf?]
    simp only [List.isPrefixOf_iff_prefix, List.drop_nil, forall_const]
    split <;> simp_all
  | cons x s ih =>
    rw [indexOf?]
    simp only [List.isPrefixOf_iff_prefix]
    split
    · rename_i h
      simp only [reduceCtorEq, false_iff, not_forall, not_not]
      exact ⟨0, h⟩
    · rename_i h
      rw [Option.map_eq_none_iff, ih]
      constructor
      · intro hall j
        cases j with
        | zero => exact h
        | succ j => exact hall j
      · exact fun hall j ↦ hall (j + 1)

/-- **The search is least**: its answer is an occurrence, and no smaller index is one. -/
theorem indexOf?_eq_some_iff :
    indexOf? p l = some i ↔ p <+: l.drop i ∧ ∀ j < i, ¬ p <+: l.drop j := by
  induction l generalizing i with
  | nil =>
    rw [indexOf?]
    simp only [List.isPrefixOf_iff_prefix, List.drop_nil]
    split
    · rename_i h
      simp only [Option.some.injEq, h, true_and, not_true_eq_false, imp_false, not_lt]
      exact ⟨fun hi j ↦ by omega, fun hall ↦ (Nat.le_zero.1 (hall 0)).symm⟩
    · rename_i h
      simp [h]
  | cons x s ih =>
    rw [indexOf?]
    simp only [List.isPrefixOf_iff_prefix]
    split
    · rename_i h
      constructor
      · rintro ⟨rfl⟩
        exact ⟨h, fun j hj ↦ absurd hj (Nat.not_lt_zero j)⟩
      · rintro ⟨-, hleast⟩
        cases i with
        | zero => rfl
        | succ i => exact absurd h (hleast 0 (Nat.succ_pos i))
    · rename_i h
      cases i with
      | zero => simp [h]
      | succ i =>
        simp only [Option.map_eq_some_iff, Nat.add_right_cancel_iff, exists_eq_right, ih,
          List.drop_succ_cons]
        refine and_congr_right fun _ ↦ ⟨fun hall j hj ↦ ?_, fun hall j hj ↦ hall (j + 1) (by omega)⟩
        cases j with
        | zero => exact h
        | succ j => exact hall j (by omega)

/-- At a found occurrence the text reads the pattern. -/
theorem drop_eq_of_indexOf? (h : indexOf? p l = some i) :
    l.drop i = p ++ l.drop (i + p.length) := by
  obtain ⟨t, ht⟩ := (indexOf?_eq_some_iff.1 h).1
  rw [← List.drop_drop, ← ht, List.drop_left]

/-- A found occurrence splits the list around the pattern. -/
theorem eq_append_of_indexOf? (h : indexOf? p l = some i) :
    l = l.take i ++ (p ++ l.drop (i + p.length)) := by
  rw [← drop_eq_of_indexOf? h, List.take_append_drop]

/-- A found occurrence of a nonempty pattern fits in the list. -/
theorem le_length_of_indexOf? (hp : p ≠ []) (h : indexOf? p l = some i) :
    i + p.length ≤ l.length := by
  have hle := (indexOf?_eq_some_iff.1 h).1.length_le
  have hpos := List.length_pos_iff.2 hp
  rw [List.length_drop] at hle
  omega

/-! ### Growing the text -/

omit [DecidableEq α] in
/-- An occurrence stays one when symbols are appended. -/
private theorem isPrefix_drop_append (h : p <+: s.drop i) : p <+: (s ++ t).drop i := by
  rw [List.drop_append]
  exact h.trans (List.prefix_append _ _)

omit [DecidableEq α] in
/-- An occurrence that ends inside the prefix is an occurrence in the prefix. -/
private theorem isPrefix_drop_of_append (hle : i + p.length ≤ s.length)
    (h : p <+: (s ++ t).drop i) : p <+: s.drop i := by
  rw [List.drop_append_of_le_length (by omega)] at h
  exact List.prefix_of_prefix_length_le h (List.prefix_append _ _)
    (by rw [List.length_drop]; omega)

/-- An occurrence inside a prefix is the first one of the prefix. -/
theorem indexOf?_of_append (hle : i + p.length ≤ s.length)
    (h : indexOf? p (s ++ t) = some i) : indexOf? p s = some i := by
  obtain ⟨hocc, hleast⟩ := indexOf?_eq_some_iff.1 h
  exact indexOf?_eq_some_iff.2 ⟨isPrefix_drop_of_append hle hocc,
    fun j hj hj' ↦ hleast j hj (isPrefix_drop_append hj')⟩

/-- **Stability**: an occurrence already found does not move when the text grows. -/
theorem indexOf?_append_of_eq_some (hp : p ≠ []) (h : indexOf? p s = some i) :
    indexOf? p (s ++ t) = some i := by
  have hlen := le_length_of_indexOf? hp h
  obtain ⟨hocc, hleast⟩ := indexOf?_eq_some_iff.1 h
  refine indexOf?_eq_some_iff.2 ⟨isPrefix_drop_append hocc, fun j hj hj' ↦ hleast j hj ?_⟩
  exact isPrefix_drop_of_append (by omega) hj'

/-- **A prefix answers by completeness**: the search in a prefix fails exactly when the occurrence
is not complete in it. -/
theorem indexOf?_prefix_eq_none_iff (hp : p ≠ []) (h : indexOf? p (s ++ t) = some i) :
    indexOf? p s = none ↔ s.length < i + p.length := by
  constructor
  · intro hnone
    by_contra hge
    rw [indexOf?_of_append (by omega) h] at hnone
    exact absurd hnone (by simp)
  · intro hlt
    rcases hx : indexOf? p s with - | j
    · rfl
    · have hj := le_length_of_indexOf? hp hx
      rw [indexOf?_append_of_eq_some hp hx] at h
      obtain rfl := Option.some.inj h
      omega

/-- A text without the pattern has no prefix with it. -/
theorem indexOf?_eq_none_of_append (hp : p ≠ []) (h : indexOf? p (s ++ t) = none) :
    indexOf? p s = none := by
  rcases hx : indexOf? p s with - | j
  · rfl
  · rw [indexOf?_append_of_eq_some hp hx] at h
    exact absurd h (by simp)

/-! ### Moving the start -/

/-- Dropping symbols before the first occurrence shifts it. -/
theorem indexOf?_drop (hk : k ≤ i) (h : indexOf? p l = some i) :
    indexOf? p (l.drop k) = some (i - k) := by
  obtain ⟨hocc, hleast⟩ := indexOf?_eq_some_iff.1 h
  refine indexOf?_eq_some_iff.2 ⟨?_, fun j hj hj' ↦ hleast (k + j) (by omega) ?_⟩
  · rw [List.drop_drop, Nat.add_sub_cancel' hk]
    exact hocc
  · rwa [List.drop_drop] at hj'

/-- **Prepending**: symbols before which nothing occurs shift the first occurrence back. -/
theorem indexOf?_of_drop (hbefore : ∀ j < k, ¬ p <+: l.drop j)
    (h : indexOf? p (l.drop k) = some i) : indexOf? p l = some (k + i) := by
  obtain ⟨hocc, hleast⟩ := indexOf?_eq_some_iff.1 h
  rw [List.drop_drop] at hocc
  refine indexOf?_eq_some_iff.2 ⟨hocc, fun j hj hj' ↦ ?_⟩
  rcases Nat.lt_or_ge j k with hlt | hge
  · exact hbefore j hlt hj'
  · refine hleast (j - k) (by omega) ?_
    rwa [List.drop_drop, Nat.add_sub_cancel' hge]

/-- A pattern whose first symbol is absent from `s` is first found after `s`. -/
theorem indexOf?_append_self {a : α} (hs : a ∉ s) :
    indexOf? (a :: p) (s ++ (a :: p ++ t)) = some s.length := by
  refine indexOf?_eq_some_iff.2 ⟨?_, fun j hj hocc ↦ hs ?_⟩
  · rw [List.drop_left]
    exact List.prefix_append _ _
  · rw [List.drop_append_of_le_length hj.le, List.drop_eq_getElem_cons hj, List.cons_append,
      List.cons_prefix_cons] at hocc
    rw [hocc.1]
    exact List.getElem_mem hj

/-- A single symbol is found exactly where the text first has it. -/
theorem indexOf?_singleton_append {a : α} (hs : a ∉ s) :
    indexOf? [a] (s ++ a :: t) = some s.length :=
  indexOf?_append_self (p := []) hs

/-- A symbol the text does not have is not found. -/
theorem indexOf?_singleton_eq_none {a : α} (h : a ∉ l) : indexOf? [a] l = none := by
  refine indexOf?_eq_none_iff.2 fun j hocc ↦ h ?_
  exact List.mem_of_mem_drop (hocc.subset (List.mem_singleton_self a))

/-- A symbol that is not found is absent. -/
theorem notMem_of_indexOf?_eq_none {a : α} (h : indexOf? [a] l = none) : a ∉ l := by
  intro hmem
  obtain ⟨s, t, rfl⟩ := List.append_of_mem hmem
  exact indexOf?_eq_none_iff.1 h s.length (by simp)

/-- A found symbol is absent before the place it is found at. -/
theorem notMem_take_of_indexOf? {a : α} (h : indexOf? [a] l = some i) : a ∉ l.take i := by
  intro hmem
  obtain ⟨j, hj, rfl⟩ := List.getElem_of_mem hmem
  rw [List.length_take] at hj
  refine (indexOf?_eq_some_iff.1 h).2 j (by omega) ?_
  rw [List.drop_eq_getElem_cons (by omega), List.getElem_take]
  exact List.cons_prefix_cons.2 ⟨rfl, List.nil_prefix⟩

/-- **Searching and splitting**: a list is split at the first place its separator is found. -/
theorem splitOn_of_indexOf? {a : α} (h : indexOf? [a] l = some i) :
    l.splitOn a = l.take i :: (l.drop (i + 1)).splitOn a := by
  have hsplit := eq_append_of_indexOf? h
  conv_lhs => rw [hsplit]
  exact List.splitOn_append_cons_self_of_not_mem (notMem_take_of_indexOf? h) _

/-- The pieces are parts of the list without its separator. -/
theorem mem_splitOn {a : α} {piece : List α} (h : piece ∈ l.splitOn a) : a ∉ piece ∧ piece ⊆ l := by
  induction l generalizing piece with
  | nil =>
    obtain rfl : piece = [] := by simpa using h
    exact ⟨List.not_mem_nil, List.Subset.refl _⟩
  | cons x l ih =>
    rw [List.splitOn_cons_eq_if_modifyHead] at h
    split at h
    · rcases List.mem_cons.1 h with rfl | h'
      · exact ⟨List.not_mem_nil, List.nil_subset _⟩
      · exact ⟨(ih h').1, List.Subset.trans (ih h').2 (List.subset_cons_self _ _)⟩
    · rename_i hx
      obtain ⟨first, rest, hpieces⟩ := List.exists_cons_of_ne_nil (List.splitOn_ne_nil a l)
      rw [hpieces, List.modifyHead_cons] at h
      rcases List.mem_cons.1 h with rfl | h'
      · obtain ⟨hnot, hsub⟩ := ih (hpieces ▸ List.mem_cons_self)
        refine ⟨?_, List.cons_subset_cons x hsub⟩
        simpa [hnot] using Ne.symm (by simpa using hx)
      · obtain ⟨hnot, hsub⟩ := ih (hpieces ▸ List.mem_cons_of_mem _ h')
        exact ⟨hnot, List.Subset.trans hsub (List.subset_cons_self _ _)⟩

/-- The pieces, with the separator after each, are the list and one separator more. -/
theorem flatMap_splitOn (l : List α) (a : α) : (l.splitOn a).flatMap (· ++ [a]) = l ++ [a] := by
  have hjoin : ∀ ls : List (List α), ls ≠ [] →
      ls.flatMap (· ++ [a]) = [a].intercalate ls ++ [a] := by
    intro ls
    induction ls with
    | nil => exact fun h ↦ absurd rfl h
    | cons piece ls ih =>
      intro _
      rcases eq_or_ne ls [] with rfl | hne
      · simp
      · rw [List.flatMap_cons, ih hne, List.intercalate_cons_of_ne_nil hne]
        simp
  rw [hjoin _ (List.splitOn_ne_nil a l), List.intercalate_splitOn]

/-- The pieces, with the separator before each, are the list after one separator more. -/
theorem flatMap_cons_splitOn (l : List α) (a : α) : (l.splitOn a).flatMap (a :: ·) = a :: l := by
  have hturn : ∀ ls : List (List α), ls.flatMap (a :: ·) ++ [a] = a :: ls.flatMap (· ++ [a]) := by
    intro ls
    induction ls with
    | nil => rfl
    | cons piece ls ih => simp [ih]
  have h : (l.splitOn a).flatMap (a :: ·) ++ [a] = a :: l ++ [a] := by
    rw [hturn, flatMap_splitOn]
    rfl
  exact List.append_cancel_right h

end Occurrence
