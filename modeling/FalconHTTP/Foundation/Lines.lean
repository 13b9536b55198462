import FalconHTTP.Foundation.Occurrence

/-!
# Terminated lines, and heads ended by a blank line

A line protocol ends every line with a two-symbol terminator `a b`, `a ≠ b`, and ends a *head* with
an empty line. A reader finds the end of a head by searching for the doubled terminator; a line
scanner walks over the lines one terminator at a time. This module says that the two views agree.

`Head` is a head as data: its first line, the lines that follow it, and the proof that every line is
`Clean` (the terminator is first found at its end) and that no later line is empty. Only the first
line may be empty, which is exactly the case in which the text starts with a terminator.

* `ReadsAs` is the view of a reader that searches for the doubled terminator and splits what
  precedes it, and by `readsAs_iff` it sees the lines that were written exactly when they are clean;
* `Head.indexOf?_encode`: the first doubled terminator of `head.encode ++ body` is the head's end,
  and by `Head.indexOf?_prefix` a prefix shows it exactly when it holds the whole head;
* `exists_head_of_indexOf?`: every text with a doubled terminator is a head followed by a body.

The terminator must not overlap itself, which is where `a ≠ b` is used.
-/

namespace Lines

open Occurrence

variable {α : Type*} [DecidableEq α] {a b : α} {l raw t : List α} {i : ℕ}

/-- A line is clean when the terminator is first found at the line's end. -/
def Clean (a b : α) (l : List α) : Prop :=
  indexOf? [a, b] (l ++ [a, b]) = some l.length

/-- Lines without the terminator's first symbol are clean. -/
theorem clean_of_notMem (h : a ∉ l) : Clean a b l := by
  have := indexOf?_append_self (p := [b]) (t := []) h
  simpa [Clean] using this

/-- The terminator after a clean line is the first one, whatever follows. -/
theorem Clean.indexOf?_append (h : Clean a b l) :
    indexOf? [a, b] (l ++ (a :: b :: t)) = some l.length := by
  have := indexOf?_append_of_eq_some (t := t) (by simp) h
  simpa using this

/-- A terminator never starts inside a clean line. -/
theorem Clean.not_startsWith_drop (h : Clean a b l) {j : ℕ} (hj : j < l.length) :
    ¬ [a, b] <+: (l ++ (a :: b :: t)).drop j :=
  (indexOf?_eq_some_iff.1 h.indexOf?_append).2 j hj

/-- There is no terminator in a clean line. -/
theorem Clean.indexOf?_eq_none (h : Clean a b l) : indexOf? [a, b] l = none :=
  (indexOf?_prefix_eq_none_iff (by simp) h).2 (by simp)

/-- What precedes a first terminator is a clean line. -/
theorem clean_take (h : indexOf? [a, b] raw = some i) : Clean a b (raw.take i) := by
  have hlen := le_length_of_indexOf? (by simp) h
  have hsplit := eq_append_of_indexOf? h
  have hraw : raw = raw.take i ++ [a, b] ++ raw.drop (i + 2) := by simpa using hsplit
  rw [hraw] at h
  have hi : (raw.take i).length = i := by
    simp only [List.length_cons, List.length_nil] at hlen
    rw [List.length_take]
    omega
  rw [Clean, hi]
  exact indexOf?_of_append (by simp [hi]) h

/-- The lines, each followed by its terminator. -/
def joinLines (a b : α) : List (List α) → List α
  | [] => []
  | l :: ls => l ++ (a :: b :: joinLines a b ls)

/-- A message head: clean lines, of which only the first may be empty. -/
structure Head (a b : α) where
  /-- The first line. -/
  first : List α
  /-- The lines after the first. -/
  rest : List (List α)
  /-- The first line is clean. -/
  first_clean : Clean a b first
  /-- The later lines are clean. -/
  rest_clean : ∀ l ∈ rest, Clean a b l
  /-- The later lines are not empty. -/
  rest_ne_nil : ∀ l ∈ rest, l ≠ []

namespace Head

/-- The head on the wire: its terminated lines, then the empty line. -/
def encode (head : Head a b) : List α :=
  head.first ++ (a :: b :: joinLines a b head.rest) ++ [a, b]

/-- The head without the two terminators that end it: the first line, and each later line after a
terminator. -/
def text (head : Head a b) : List α :=
  head.first ++ head.rest.flatMap fun l ↦ a :: b :: l

omit [DecidableEq α] in
/-- Terminators that end lines are terminators that separate them, and one more. -/
private theorem terminator_joinLines (ls : List (List α)) :
    a :: b :: joinLines a b ls = (ls.flatMap fun l ↦ a :: b :: l) ++ [a, b] := by
  induction ls with
  | nil => rfl
  | cons l ls ih => simp [joinLines, ih]

theorem encode_eq_text_append (head : Head a b) : head.encode = head.text ++ [a, b, a, b] := by
  rw [encode, text, terminator_joinLines]
  simp

/-- What precedes the doubled terminator is the text of the head. -/
theorem take_encode_append (head : Head a b) (body : List α) :
    (head.encode ++ body).take (head.encode.length - 4) = head.text := by
  rw [encode_eq_text_append, List.length_append, List.append_assoc]
  exact List.take_left' (Nat.add_sub_cancel _ 4).symm

/-- A head has at least the two terminators that end it. -/
theorem four_le_length_encode (head : Head a b) : 4 ≤ head.encode.length := by
  simp only [encode, List.length_append, List.length_cons, List.length_nil]
  omega

end Head

/-- A clean line that is not empty does not start with the terminator. -/
private theorem Clean.not_startsWith (h : Clean a b l) (hne : l ≠ []) :
    ¬ [a, b] <+: l ++ (a :: b :: t) := by
  have := h.not_startsWith_drop (t := t) (List.length_pos_iff.2 hne)
  simpa using this

/-- No doubled terminator starts before the line that follows a clean line, unless that line starts
with a terminator itself. -/
private theorem not_double_drop (hab : a ≠ b) (h : Clean a b l)
    (ht : ¬ [a, b] <+: t) {j : ℕ} (hj : j < l.length + 2) :
    ¬ [a, b, a, b] <+: (l ++ (a :: b :: t)).drop j := by
  intro hocc
  rcases Nat.lt_or_ge j l.length with hlt | hge
  · exact h.not_startsWith_drop hlt ((List.prefix_append [a, b] [a, b]).trans hocc)
  · obtain rfl | rfl : j = l.length ∨ j = l.length + 1 := by omega
    · rw [List.drop_left] at hocc
      exact ht (by simpa [List.cons_prefix_cons] using hocc)
    · -- the second symbol of the terminator would have to be its first
      rw [← List.drop_drop, List.drop_left] at hocc
      simp only [List.drop_succ_cons, List.drop_zero, List.cons_prefix_cons] at hocc
      exact hab hocc.1

/-- The first doubled terminator of terminated lines followed by an empty line ends the lines. -/
private theorem indexOf?_joinLines (hab : a ≠ b) (ls : List (List α)) {l : List α}
    (hl : Clean a b l) (hclean : ∀ l ∈ ls, Clean a b l) (hne : ∀ l ∈ ls, l ≠ []) :
    indexOf? [a, b, a, b] (l ++ (a :: b :: joinLines a b ls) ++ (a :: b :: t)) =
      some (l ++ joinLines a b ls).length := by
  induction ls generalizing l with
  | nil =>
    refine indexOf?_eq_some_iff.2 ⟨?_, fun j hj hocc ↦ ?_⟩
    · simp [joinLines]
    · refine hl.not_startsWith_drop (t := a :: b :: t) (j := j) (by simpa [joinLines] using hj) ?_
      exact (List.prefix_append [a, b] [a, b]).trans (by simpa [joinLines] using hocc)
  | cons l' ls ih =>
    have hih := ih (hclean l' (by simp)) (fun m hm ↦ hclean m (by simp [hm]))
      fun m hm ↦ hne m (by simp [hm])
    have hstart : ¬ [a, b] <+: joinLines a b (l' :: ls) ++ (a :: b :: t) := by
      have := (hclean l' (by simp)).not_startsWith (t := joinLines a b ls ++ (a :: b :: t))
        (hne l' (by simp))
      simpa [joinLines] using this
    have hshift := indexOf?_of_drop (k := l.length + 2) (i := (l' ++ joinLines a b ls).length)
      (l := l ++ (a :: b :: (joinLines a b (l' :: ls) ++ (a :: b :: t))))
      (fun j hj ↦ not_double_drop hab hl hstart hj)
      (by rw [← List.drop_drop, List.drop_left]; simpa [joinLines] using hih)
    have hlen : l.length + 2 + (l' ++ joinLines a b ls).length =
        (l ++ joinLines a b (l' :: ls)).length := by
      simp only [joinLines, List.length_append, List.length_cons]
      omega
    rw [← hlen]
    simpa using hshift

/-- **A head is found at its end**: whatever body follows, the first doubled terminator is the one
that ends the head. -/
theorem Head.indexOf?_encode (hab : a ≠ b) (head : Head a b) (body : List α) :
    indexOf? [a, b, a, b] (head.encode ++ body) = some (head.encode.length - 4) := by
  have h := indexOf?_joinLines (t := body) hab head.rest head.first_clean head.rest_clean
    head.rest_ne_nil
  have hlen : (head.first ++ joinLines a b head.rest).length = head.encode.length - 4 := by
    simp only [encode, List.length_append, List.length_cons, List.length_nil]
    omega
  rw [← hlen, ← h]
  simp [encode]

/-- **A head is found when it is complete**: in a prefix of a text that starts with a head, the
doubled terminator is found exactly when the prefix holds the whole head. -/
theorem Head.indexOf?_prefix (hab : a ≠ b) {head : Head a b} {body rest : List α}
    (h : raw ++ rest = head.encode ++ body) :
    (∃ body₁, raw = head.encode ++ body₁ ∧ body = body₁ ++ rest ∧
      indexOf? [a, b, a, b] raw = some (head.encode.length - 4)) ∨
    (raw.length < head.encode.length ∧ indexOf? [a, b, a, b] raw = none) := by
  have hfour := head.four_le_length_encode
  have hfind : indexOf? [a, b, a, b] (raw ++ rest) = some (head.encode.length - 4) := by
    rw [h]
    exact head.indexOf?_encode hab body
  rcases Nat.lt_or_ge raw.length head.encode.length with hlt | hge
  · refine Or.inr ⟨hlt, (indexOf?_prefix_eq_none_iff (by simp) hfind).2 ?_⟩
    simp only [List.length_cons, List.length_nil]
    omega
  · obtain ⟨body₁, rfl⟩ : head.encode <+: raw :=
      List.prefix_of_prefix_length_le ⟨body, h.symm⟩ ⟨rest, rfl⟩ hge
    rw [List.append_assoc] at h
    exact Or.inl ⟨body₁, rfl, (List.append_cancel_left h).symm, head.indexOf?_encode hab body₁⟩

/-- **Every text with a doubled terminator is a head followed by a body**, and the doubled
terminator ends the head. -/
theorem exists_head_of_indexOf? (hab : a ≠ b) (h : indexOf? [a, b, a, b] raw = some i) :
    ∃ (head : Head a b) (body : List α), raw = head.encode ++ body ∧
      head.encode.length = i + 4 := by
  induction hn : raw.length using Nat.strong_induction_on generalizing raw i with
  | h n ih =>
  obtain ⟨hocc, hleast⟩ := indexOf?_eq_some_iff.1 h
  have hlen := le_length_of_indexOf? (by simp) h
  simp only [List.length_cons, List.length_nil] at hlen
  -- the first terminator is at `i` or two symbols earlier at least
  obtain ⟨j, hj, hji⟩ : ∃ j, indexOf? [a, b] raw = some j ∧ j ≤ i := by
    rcases hfind : indexOf? [a, b] raw with - | j
    · exact absurd ((List.prefix_append [a, b] [a, b]).trans hocc)
        (indexOf?_eq_none_iff.1 hfind i)
    · refine ⟨j, rfl, ?_⟩
      by_contra hlt
      exact (indexOf?_eq_some_iff.1 hfind).2 i (by omega)
        ((List.prefix_append [a, b] [a, b]).trans hocc)
  have hdrop : raw.drop j = a :: b :: raw.drop (j + 2) := by simpa using drop_eq_of_indexOf? hj
  have hsplit : raw = raw.take j ++ (a :: b :: raw.drop (j + 2)) := by
    rw [← hdrop, List.take_append_drop]
  have htake : (raw.take j).length = j := by rw [List.length_take]; omega
  rcases Nat.lt_or_ge j i with hlt | hge
  · -- a line that is not the last one: recurse on what follows its terminator
    have hgap : j + 2 ≤ i := by
      by_contra hnot
      obtain rfl : i = j + 1 := by omega
      rw [← List.drop_drop, hdrop] at hocc
      simp only [List.drop_succ_cons, List.drop_zero, List.cons_prefix_cons] at hocc
      exact hab hocc.1
    obtain ⟨head, body, hraw, hhead⟩ := ih (raw.drop (j + 2)).length
      (by rw [List.length_drop]; omega) (indexOf?_drop hgap h) rfl
    have hfirst : head.first ≠ [] := by
      intro hnil
      refine hleast j hlt ?_
      rw [hdrop, hraw, Head.encode, hnil]
      simp
    refine ⟨⟨raw.take j, head.first :: head.rest, clean_take hj, ?_, ?_⟩, body, ?_, ?_⟩
    · exact List.forall_mem_cons.2 ⟨head.first_clean, head.rest_clean⟩
    · exact List.forall_mem_cons.2 ⟨hfirst, head.rest_ne_nil⟩
    · conv_lhs => rw [hsplit, hraw]
      simp [Head.encode, joinLines]
    · have : (raw.take j ++ (a :: b :: head.encode)).length = i + 4 := by
        simp only [List.length_append, htake, hhead, List.length_cons]
        omega
      rw [← this]
      simp [Head.encode, joinLines]
  · -- the line the doubled terminator ends
    obtain rfl : i = j := by omega
    obtain ⟨body, hbody⟩ : [a, b] <+: raw.drop (i + 2) := by
      rw [hdrop] at hocc
      simpa [List.cons_prefix_cons] using hocc
    refine ⟨⟨raw.take i, [], clean_take hj, by simp, by simp⟩, body, ?_, ?_⟩
    · conv_lhs => rw [hsplit, ← hbody]
      simp [Head.encode, joinLines]
    · simp only [Head.encode, joinLines, List.length_append, htake, List.length_cons,
        List.length_nil]

/-! ### Splitting at terminators -/

/-- The pieces of a text between its terminators. -/
def splitLines (a b : α) : List α → List (List α)
  | [] => [[]]
  | [c] => [[c]]
  | c :: d :: t =>
    if c = a ∧ d = b then [] :: splitLines a b t
    else (splitLines a b (d :: t)).modifyHead (c :: ·)

omit [DecidableEq α] in
/-- A terminator that starts in a text and does not end with the symbol after it lies in the
text. -/
private theorem prefix_of_prefix_append {c : α} (hc : c ≠ b) {s : List α} (hs : s ≠ [])
    (h : [a, b] <+: s ++ c :: t) : [a, b] <+: s := by
  rcases s with - | ⟨x, - | ⟨y, s⟩⟩
  · exact absurd rfl hs
  · rw [List.cons_append, List.cons_prefix_cons, List.nil_append, List.cons_prefix_cons] at h
    exact absurd h.2.1.symm hc
  · rw [List.cons_append, List.cons_append, List.cons_prefix_cons, List.cons_prefix_cons] at h
    simp [List.cons_prefix_cons, h.1, h.2.1]

/-- A line is clean exactly when there is no terminator in it. -/
theorem clean_iff (hab : a ≠ b) : Clean a b l ↔ indexOf? [a, b] l = none := by
  refine ⟨Clean.indexOf?_eq_none, fun hnone ↦ indexOf?_eq_some_iff.2 ⟨by simp, fun j hj hocc ↦ ?_⟩⟩
  rw [List.drop_append_of_le_length hj.le] at hocc
  refine indexOf?_eq_none_iff.1 hnone j (prefix_of_prefix_append hab ?_ hocc)
  rw [ne_eq, List.drop_eq_nil_iff]
  omega

/-- A symbol that is not part of the terminator keeps what is on its two sides apart. -/
theorem indexOf?_append_cons_eq_none {c : α} (ha : c ≠ a) (hb : c ≠ b) {s : List α} :
    indexOf? [a, b] (s ++ c :: t) = none ↔
      indexOf? [a, b] s = none ∧ indexOf? [a, b] t = none := by
  simp only [indexOf?_eq_none_iff]
  refine ⟨fun h ↦ ⟨fun j hocc ↦ h j ?_, fun j hocc ↦ h (s.length + 1 + j) ?_⟩, fun h j hocc ↦ ?_⟩
  · rw [List.drop_append]
    exact hocc.trans (List.prefix_append _ _)
  · rwa [← List.drop_drop, ← List.drop_drop, List.drop_left]
  · rcases Nat.lt_or_ge j s.length with hlt | hge
    · rw [List.drop_append_of_le_length hlt.le] at hocc
      refine h.1 j (prefix_of_prefix_append hb ?_ hocc)
      rw [ne_eq, List.drop_eq_nil_iff]
      omega
    · obtain ⟨k, rfl⟩ := Nat.exists_eq_add_of_le hge
      rw [← List.drop_drop, List.drop_left] at hocc
      cases k with
      | zero => exact ha (List.cons_prefix_cons.1 hocc).1.symm
      | succ k => exact h.2 k hocc

/-- The rest of a clean line is clean. -/
private theorem Clean.tail {c : α} (h : Clean a b (c :: l)) : Clean a b l := by
  have := indexOf?_drop (Nat.le_add_left 1 l.length) h
  simpa [Clean] using this

/-- **A clean line is the first piece**, and the pieces after its terminator follow. -/
theorem splitLines_append (h : Clean a b l) :
    splitLines a b (l ++ a :: b :: t) = l :: splitLines a b t := by
  induction l with
  | nil => rw [List.nil_append, splitLines, if_pos ⟨rfl, rfl⟩]
  | cons c l ih =>
    have hstart := h.not_startsWith (t := t) (List.cons_ne_nil c l)
    have hnext := ih h.tail
    rw [List.cons_append] at hstart ⊢
    rcases hrest : l ++ a :: b :: t with - | ⟨d, rest⟩
    · exact absurd hrest (by simp)
    · rw [hrest] at hstart hnext
      have hnot : ¬ (c = a ∧ d = b) := by
        rintro ⟨rfl, rfl⟩
        exact hstart (by simp [List.cons_prefix_cons])
      rw [splitLines, if_neg hnot, hnext, List.modifyHead_cons]

/-- A clean line is its only piece. -/
theorem splitLines_of_clean (h : Clean a b l) : splitLines a b l = [l] := by
  induction l with
  | nil => rfl
  | cons c l ih =>
    have hstart := h.not_startsWith (t := []) (List.cons_ne_nil c l)
    have hnext := ih h.tail
    cases l with
    | nil => rfl
    | cons d l =>
      have hnot : ¬ (c = a ∧ d = b) := by
        rintro ⟨rfl, rfl⟩
        exact hstart (by simp [List.cons_prefix_cons])
      rw [splitLines, if_neg hnot, hnext, List.modifyHead_cons]

/-- **The pieces contain no terminator**, and the first one starts the text. -/
theorem splitLines_spec (a b : α) (text : List α) :
    ∃ first rest, splitLines a b text = first :: rest ∧ first <+: text ∧
      ∀ piece ∈ first :: rest, indexOf? [a, b] piece = none := by
  have hnil : indexOf? [a, b] ([] : List α) = none := indexOf?_eq_none_iff.2 (by simp)
  have hone : ∀ c : α, indexOf? [a, b] [c] = none := fun c ↦ indexOf?_eq_none_iff.2 fun j hocc ↦ by
    have := hocc.length_le
    simp at this
    omega
  induction text using splitLines.induct a b with
  | case1 => exact ⟨[], [], rfl, List.prefix_rfl, by simpa using hnil⟩
  | case2 c => exact ⟨[c], [], rfl, List.prefix_rfl, by simpa using hone c⟩
  | case3 c d t hterm ih =>
    obtain ⟨first, rest, hsplit, -, hpieces⟩ := ih
    refine ⟨[], first :: rest, ?_, List.nil_prefix, List.forall_mem_cons.2 ⟨hnil, hpieces⟩⟩
    rw [splitLines, if_pos hterm, hsplit]
  | case4 c d t hterm ih =>
    obtain ⟨first, rest, hsplit, hprefix, hpieces⟩ := ih
    obtain ⟨hfirst, hrest⟩ := List.forall_mem_cons.1 hpieces
    refine ⟨c :: first, rest, ?_, List.cons_prefix_cons.2 ⟨rfl, hprefix⟩,
      List.forall_mem_cons.2 ⟨indexOf?_eq_none_iff.2 fun j hocc ↦ ?_, hrest⟩⟩
    · rw [splitLines, if_neg hterm, hsplit, List.modifyHead_cons]
    · cases j with
      | zero =>
        -- the piece goes on as the text does, and the text has no terminator here
        obtain ⟨rfl, hb⟩ := List.cons_prefix_cons.1 hocc
        obtain ⟨rfl, -⟩ := List.cons_prefix_cons.1 (hb.trans hprefix)
        exact hterm ⟨rfl, rfl⟩
      | succ j => exact indexOf?_eq_none_iff.1 hfirst j hocc

theorem clean_of_mem_splitLines (hab : a ≠ b) {text piece : List α}
    (h : piece ∈ splitLines a b text) : Clean a b piece := by
  obtain ⟨first, rest, hsplit, -, hpieces⟩ := splitLines_spec a b text
  exact (clean_iff hab).2 (hpieces piece (hsplit ▸ h))

/-! ### Reading a head back -/

/-- A text reads as a head and a body: up to its first doubled terminator it splits into the given
lines, and the rest is the body. -/
def ReadsAs (a b : α) (text : List α) (lines : List (List α)) (body : List α) : Prop :=
  ∃ i, indexOf? [a, b, a, b] text = some i ∧ text.drop (i + 4) = body ∧
    splitLines a b (text.take i) = lines

/-- A text reads as one head and one body. -/
theorem ReadsAs.unique {text body body' : List α} {ls ls' : List (List α)}
    (h : ReadsAs a b text ls body) (h' : ReadsAs a b text ls' body') : ls = ls' ∧ body = body' := by
  obtain ⟨i, hfind, hbody, hlines⟩ := h
  obtain ⟨i', hfind', hbody', hlines'⟩ := h'
  obtain rfl := Option.some.inj (hfind.symm.trans hfind')
  exact ⟨hlines.symm.trans hlines', hbody.symm.trans hbody'⟩

/-- The lines of a head are the pieces of its text. -/
theorem Head.splitLines_text (head : Head a b) :
    splitLines a b head.text = head.first :: head.rest := by
  obtain ⟨first, rest, hfirst, hrest, hne⟩ := head
  show splitLines a b (first ++ rest.flatMap fun l ↦ a :: b :: l) = first :: rest
  induction rest generalizing first with
  | nil => simpa using splitLines_of_clean hfirst
  | cons l rest ih =>
    rw [List.flatMap_cons, List.cons_append, List.cons_append, splitLines_append hfirst,
      ih l (hrest l List.mem_cons_self) (fun m hm ↦ hrest m (List.mem_cons_of_mem _ hm))
        fun m hm ↦ hne m (List.mem_cons_of_mem _ hm)]

/-- A head reads as its lines, and what follows it as the body. -/
theorem Head.readsAs (hab : a ≠ b) (head : Head a b) (body : List α) :
    ReadsAs a b (head.encode ++ body) (head.first :: head.rest) body := by
  refine ⟨_, head.indexOf?_encode hab body, ?_, ?_⟩
  · rw [Nat.sub_add_cancel head.four_le_length_encode, List.drop_left]
  · rw [head.take_encode_append, head.splitLines_text]

/-- **What is written reads back exactly when the lines are clean.** -/
theorem readsAs_iff (hab : a ≠ b) {first : List α} {rest : List (List α)}
    (hne : ∀ l ∈ rest, l ≠ []) (body : List α) :
    ReadsAs a b (first ++ (a :: b :: joinLines a b rest) ++ [a, b] ++ body) (first :: rest) body ↔
      ∀ l ∈ first :: rest, Clean a b l := by
  constructor
  · rintro ⟨i, -, -, hsplit⟩ l hl
    exact clean_of_mem_splitLines hab (hsplit ▸ hl)
  · intro hclean
    obtain ⟨hfirst, hrest⟩ := List.forall_mem_cons.1 hclean
    exact Head.readsAs hab ⟨first, rest, hfirst, hrest, hne⟩ body

/-- What follows a text that ends with its head is read as the body. -/
theorem ReadsAs.append {text : List α} {ls : List (List α)} (h : ReadsAs a b text ls [])
    (body : List α) : ReadsAs a b (text ++ body) ls body := by
  obtain ⟨i, hfind, hdrop, hsplit⟩ := h
  have hle := le_length_of_indexOf? (by simp) hfind
  have hge := List.drop_eq_nil_iff.1 hdrop
  have hlength : i + 4 = text.length := Nat.le_antisymm hle hge
  refine ⟨i, indexOf?_append_of_eq_some (by simp) hfind, ?_, ?_⟩
  · rw [hlength, List.drop_left]
  · rwa [List.take_append_of_le_length (by omega)]

end Lines
