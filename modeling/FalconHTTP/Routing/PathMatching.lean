import FalconHTTP.Routing.Router

/-!
# What a path match means

A pattern and a path are lists of segments, the pieces between slashes. The matcher walks over both
lists in lock step: a parameter takes the segment of the path, any other segment of the pattern has
to be equal to it (`bindSegments`, `matchLoop_joinSegments`).

The walk cuts at the next slash after the first byte, and a parameter takes the segment without its
first byte. That byte is the slash before the segment, except at the start of a path that does not
begin with one. There a leading parameter swallows a byte of the path (`Misread`), and
`match_sound_iff` says that this is the only case in which a match does not mean what it should.

In the other direction there is no such case: a pattern filled with values matches, and binds them
(`match_fill`).
-/

namespace FalconHTTP

namespace PathMatcher

open Occurrence FiniteMap

variable {M : Type} [FiniteMap M Bytes Bytes]

/-! ### Segments -/

/-- The segments of a text, the pieces between slashes. -/
def segments (text : Bytes) : List Bytes :=
  text.splitOn 47

/-- A segment of a pattern is a parameter: it starts with a colon. -/
def IsParam (segment : Bytes) : Prop :=
  segment[0]? = some 58

instance (segment : Bytes) : Decidable (IsParam segment) :=
  inferInstanceAs (Decidable (_ = _))

/-- The names of the parameters of a pattern. -/
def paramNames (pattern : Bytes) : List Bytes :=
  ((segments pattern).filter fun segment ↦ IsParam segment).map (·.drop 1)

/-- The pattern with its parameters replaced by their values. -/
def substitute (pattern : Bytes) (params : M) : Bytes :=
  [47].intercalate ((segments pattern).map fun segment ↦
    if IsParam segment then (find? params (segment.drop 1)).getD [] else segment)

/-- A match means what it should: as many segments on both sides, the parameters bound and nothing
else, no slash in a value, and the path is the pattern with the values put in. -/
structure Sound (pattern path : Bytes) (params : M) : Prop where
  /-- Pattern and path have the same number of segments. -/
  length_eq : (segments pattern).length = (segments path).length
  /-- Exactly the parameters of the pattern are bound. -/
  keys : ∀ name, (find? params name).isSome ↔ name ∈ paramNames pattern
  /-- A value is part of one segment. -/
  slash_notMem : ∀ name value, find? params name = some value → 47 ∉ value
  /-- The values put the path together again. -/
  substitute_eq : substitute pattern params = path

/-- Segments, each after its slash. -/
def joinSegments (segments : List Bytes) : Bytes :=
  segments.flatMap (47 :: ·)

theorem joinSegments_cons (s : Bytes) (ss : List Bytes) :
    joinSegments (s :: ss) = 47 :: (s ++ joinSegments ss) := by
  simp [joinSegments]

/-- The segments of a text that starts with a slash. -/
theorem segments_cons_slash (text : Bytes) : segments (47 :: text) = [] :: segments text :=
  splitOn_of_indexOf? (l := 47 :: text) (i := 0) (by simp [indexOf?])

/-- A text is its segments, each after its slash, without the first slash. -/
theorem joinSegments_segments (text : Bytes) : joinSegments (segments text) = 47 :: text :=
  flatMap_cons_splitOn text 47

theorem slash_notMem_of_mem_segments {text s : Bytes} (h : s ∈ segments text) : 47 ∉ s :=
  (mem_splitOn h).1

/-- The matcher cuts off one segment, with the byte before it. -/
theorem cut_segment (c : UInt8) {s : Bytes} (hs : 47 ∉ s) (ss : List Bytes) :
    segment (c :: (s ++ joinSegments ss)) (indexFrom? [47] (c :: (s ++ joinSegments ss)) 1) =
        c :: s ∧
      remainder (c :: (s ++ joinSegments ss)) (indexFrom? [47] (c :: (s ++ joinSegments ss)) 1) =
        joinSegments ss := by
  rw [indexFrom?, List.drop_succ_cons, List.drop_zero]
  cases ss with
  | nil =>
    have hnone : indexOf? [47] (s ++ joinSegments []) = none := by
      rw [joinSegments, List.flatMap_nil, List.append_nil]
      exact indexOf?_singleton_eq_none hs
    rw [hnone]
    simp [segment, remainder, joinSegments]
  | cons s' ss =>
    rw [joinSegments_cons, indexOf?_singleton_append hs]
    simp [segment, remainder]

/-! ### The walk -/

/-- The walk over the segments of a pattern and of a path. -/
def bindSegments : List Bytes → List Bytes → M → Bool × M
  | [], [], params => (true, params)
  | p :: ps, r :: rs, params =>
    if IsParam p then bindSegments ps rs (put params (p.drop 1) r)
    else if p ≠ r then (false, params)
    else bindSegments ps rs params
  | _, _, params => (false, params)

/-- One turn of the loop, on a segment `p` of the pattern and a segment `r` of the path, each after
some byte. -/
theorem matchLoop_turn {p r : Bytes} (hp : 47 ∉ p) (hr : 47 ∉ r) (c d : UInt8)
    (ps rs : List Bytes) (fuel : ℕ) (params : M) :
    matchLoop (fuel + 1) (c :: (p ++ joinSegments ps)) (d :: (r ++ joinSegments rs)) params =
      if IsParam p then
        matchLoop fuel (joinSegments ps) (joinSegments rs) (put params (p.drop 1) r)
      else if c :: p ≠ d :: r then (false, params)
      else matchLoop fuel (joinSegments ps) (joinSegments rs) params := by
  obtain ⟨hpattern, hpatternRest⟩ := cut_segment c hp ps
  obtain ⟨hpath, hpathRest⟩ := cut_segment d hr rs
  rw [matchLoop, if_neg (by simp)]
  simp only [hpattern, hpatternRest, hpath, hpathRest, List.drop_succ_cons, List.drop_zero]
  rfl

/-- **The loop of the matcher is the walk.** -/
theorem matchLoop_joinSegments {ps rs : List Bytes} (hps : ∀ p ∈ ps, 47 ∉ p)
    (hrs : ∀ r ∈ rs, 47 ∉ r) {fuel : ℕ} (hfuel : ps.length ≤ fuel) (params : M) :
    matchLoop fuel (joinSegments ps) (joinSegments rs) params = bindSegments ps rs params := by
  induction ps generalizing rs fuel params with
  | nil =>
    cases rs with
    | nil => cases fuel <;> rfl
    | cons r rs =>
      rw [joinSegments_cons]
      cases fuel <;> simp [matchLoop, joinSegments, bindSegments]
  | cons p ps ih =>
    obtain ⟨fuel, rfl⟩ := Nat.exists_eq_succ_of_ne_zero (Nat.ne_of_gt (Nat.zero_lt_of_lt hfuel))
    have hrest : ∀ rs : List Bytes, (∀ r ∈ rs, 47 ∉ r) → ∀ params : M,
        matchLoop fuel (joinSegments ps) (joinSegments rs) params = bindSegments ps rs params :=
      fun rs hrs params ↦
        ih (fun q hq ↦ hps q (List.mem_cons_of_mem _ hq)) hrs (Nat.le_of_succ_le_succ hfuel) params
    rw [joinSegments_cons]
    cases rs with
    | nil => simp [matchLoop, joinSegments, bindSegments]
    | cons r rs =>
      have hrs' : ∀ q ∈ rs, 47 ∉ q := fun q hq ↦ hrs q (List.mem_cons_of_mem _ hq)
      rw [joinSegments_cons, Nat.succ_eq_add_one,
        matchLoop_turn (hps p List.mem_cons_self) (hrs r List.mem_cons_self), hrest rs hrs',
        hrest rs hrs', bindSegments]
      simp only [ne_eq, List.cons.injEq, true_and]

/-- There are at most as many segments as bytes, slashes included. -/
theorem length_le_joinSegments (ss : List Bytes) : ss.length ≤ (joinSegments ss).length := by
  induction ss with
  | nil => exact Nat.zero_le _
  | cons s ss ih =>
    rw [joinSegments_cons]
    simp only [List.length_cons, List.length_append]
    omega

/-- **The matcher on any pattern and path**: the walk over the segments after the first bytes. These
bytes are compared unless the first segment is a parameter. -/
theorem match_cons {text p : Bytes} {ps : List Bytes} (htext : segments text = p :: ps)
    (c d : UInt8) (rest : Bytes) (params : M) :
    PathMatcher.match (c :: text) (d :: rest) params =
      if IsParam p ∨ d = c then bindSegments (segments text) (segments rest) params
      else (false, params) := by
  obtain ⟨r, rs, hrest⟩ := List.exists_cons_of_ne_nil (List.splitOn_ne_nil 47 rest)
  replace hrest : segments rest = r :: rs := hrest
  have hps : ∀ q ∈ p :: ps, 47 ∉ q := fun q hq ↦ slash_notMem_of_mem_segments (htext ▸ hq)
  have hrs : ∀ q ∈ r :: rs, 47 ∉ q := fun q hq ↦ slash_notMem_of_mem_segments (hrest ▸ hq)
  have hpattern : 47 :: text = 47 :: (p ++ joinSegments ps) := by
    rw [← joinSegments_cons, ← htext, joinSegments_segments]
  have hpath : 47 :: rest = 47 :: (r ++ joinSegments rs) := by
    rw [← joinSegments_cons, ← hrest, joinSegments_segments]
  have hfuel : ps.length ≤ text.length := by
    have hlen := length_le_joinSegments (p :: ps)
    rw [← htext, joinSegments_segments, htext] at hlen
    exact Nat.le_of_succ_le_succ hlen
  have hwalk : ∀ params : M, matchLoop text.length (joinSegments ps) (joinSegments rs) params =
      bindSegments ps rs params :=
    matchLoop_joinSegments (fun q hq ↦ hps q (List.mem_cons_of_mem _ hq))
      (fun q hq ↦ hrs q (List.mem_cons_of_mem _ hq)) hfuel
  have hturn : PathMatcher.match (c :: text) (d :: rest) params =
      if IsParam p then bindSegments ps rs (put params (p.drop 1) r)
      else if c :: p ≠ d :: r then (false, params)
      else bindSegments ps rs params := by
    rw [PathMatcher.match, List.length_cons, ← hwalk, ← hwalk,
      ← matchLoop_turn (hps p List.mem_cons_self) (hrs r List.mem_cons_self),
      ← (List.cons.inj hpattern).2, ← (List.cons.inj hpath).2]
  rw [hturn, htext, hrest, bindSegments]
  by_cases hparam : IsParam p
  · rw [if_pos hparam, if_pos (Or.inl hparam), if_pos hparam]
  · by_cases hfirst : d = c
    · rw [if_neg hparam, if_pos (Or.inr hfirst), if_neg hparam, hfirst]
      simp only [ne_eq, List.cons.injEq, true_and]
    · have hne : c :: p ≠ d :: r := fun h ↦ hfirst (List.cons.inj h).1.symm
      rw [if_neg hparam, if_pos hne, if_neg (not_or.2 ⟨hparam, hfirst⟩)]

/-! ### What the walk binds -/

/-- A segment of a pattern takes a segment of a path. -/
def Fits (p r : Bytes) : Prop :=
  IsParam p ∨ p = r

/-- The walk succeeds when every segment fits. -/
theorem bindSegments_fst_iff {ps rs : List Bytes} {params : M} :
    (bindSegments ps rs params).1 = true ↔ List.Forall₂ Fits ps rs := by
  induction ps generalizing rs params with
  | nil => cases rs <;> simp [bindSegments]
  | cons p ps ih =>
    cases rs with
    | nil => simp [bindSegments]
    | cons r rs =>
      rw [bindSegments, List.forall₂_cons, Fits]
      split
      · rename_i hparam
        rw [ih]
        exact (and_iff_right (Or.inl hparam)).symm
      · rename_i hparam
        split
        · rename_i hne
          exact iff_of_false (by simp) fun h ↦ h.1.elim hparam hne
        · rename_i heq
          rw [ih]
          exact (and_iff_right (Or.inr (not_not.1 heq))).symm

/-- The names a walk binds, with their values. -/
def bindings (ps rs : List Bytes) : List (Bytes × Bytes) :=
  ((ps.zip rs).filter fun e ↦ IsParam e.1).map fun e ↦ (e.1.drop 1, e.2)

theorem bindings_cons (p r : Bytes) (ps rs : List Bytes) :
    bindings (p :: ps) (r :: rs) =
      if IsParam p then (p.drop 1, r) :: bindings ps rs else bindings ps rs := by
  by_cases hparam : IsParam p <;> simp [bindings, hparam]

section Bound

variable {ps rs : List Bytes} (h : List.Forall₂ Fits ps rs)

include h

/-- A walk that succeeds stores its bindings. -/
theorem bindSegments_snd (params : M) :
    (bindSegments ps rs params).2 =
      (bindings ps rs).foldl (fun params e ↦ put params e.1 e.2) params := by
  induction h generalizing params with
  | nil => rfl
  | @cons p r ps rs hfits hrest ih =>
    rw [bindSegments, bindings_cons]
    split
    · exact ih _
    · rename_i hparam
      rw [if_neg (not_not.2 (hfits.resolve_left hparam))]
      exact ih _

/-- The names are those of the parameters. -/
theorem map_fst_bindings :
    (bindings ps rs).map Prod.fst = (ps.filter fun p ↦ IsParam p).map (·.drop 1) := by
  induction h with
  | nil => rfl
  | @cons p r ps rs hfits hrest ih =>
    rw [bindings_cons]
    by_cases hparam : IsParam p
    · simp [hparam, ih]
    · simp [hparam, ih]

/-- **Putting the values in** gives the segments of the path. -/
theorem map_bound {params : M} (hbound : ∀ e ∈ bindings ps rs, find? params e.1 = some e.2) :
    (ps.map fun p ↦ if IsParam p then (find? params (p.drop 1)).getD [] else p) = rs := by
  induction h with
  | nil => rfl
  | @cons p r ps rs hfits hrest ih =>
    rw [bindings_cons] at hbound
    rw [List.map_cons]
    by_cases hparam : IsParam p
    · rw [if_pos hparam] at hbound ⊢
      have hvalue : find? params (p.drop 1) = some r := hbound _ List.mem_cons_self
      rw [hvalue, ih fun e he ↦ hbound e (List.mem_cons_of_mem _ he)]
      rfl
    · rw [if_neg hparam] at hbound ⊢
      rw [ih hbound, hfits.resolve_left hparam]

end Bound

/-- A value is a segment of the path. -/
theorem mem_of_mem_bindings {ps rs : List Bytes} {e : Bytes × Bytes} (he : e ∈ bindings ps rs) :
    e.2 ∈ rs := by
  obtain ⟨d, hd, rfl⟩ := List.mem_map.1 he
  exact (List.of_mem_zip (List.mem_of_mem_filter hd)).2

/-- **A walk from no bindings**, over parameters with distinct names. -/
theorem find?_bindSegments {ps rs : List Bytes} (h : List.Forall₂ Fits ps rs)
    (hnames : ((ps.filter fun p ↦ IsParam p).map (·.drop 1)).Nodup) :
    (∀ e ∈ bindings ps rs,
      find? (bindSegments ps rs (FiniteMap.empty : M)).2 e.1 = some e.2) ∧
    ∀ name value, find? (bindSegments ps rs (FiniteMap.empty : M)).2 name = some value →
      (name, value) ∈ bindings ps rs := by
  have hset := find?_put_item (M := M) (Prod.fst : Bytes × Bytes → Bytes) Prod.snd
  rw [← map_fst_bindings h] at hnames
  have hdistinct : (bindings ps rs).Pairwise fun d e ↦ d.1 ≠ e.1 := List.pairwise_map.1 hnames
  rw [bindSegments_snd h]
  constructor
  · exact fun e he ↦ find?_foldl_of_mem hset hdistinct _ he
  · intro name value hvalue
    by_cases hmem : ∃ e ∈ bindings ps rs, name = e.1
    · obtain ⟨e, he, rfl⟩ := hmem
      rw [find?_foldl_of_mem hset hdistinct _ he] at hvalue
      obtain rfl := Option.some.inj hvalue
      exact he
    · rw [find?_foldl_of_ne hset _ _ fun e he heq ↦ hmem ⟨e, he, heq⟩, find?_empty] at hvalue
      exact absurd hvalue (by simp)

/-! ### Soundness -/

/-- The first segment of the pattern is a parameter, the path does not start with a slash, and the
later segments fit: the matcher takes the first byte of the path for a slash. -/
def Misread (pattern path : Bytes) : Prop :=
  (∃ segment, (segments pattern)[1]? = some segment ∧ IsParam segment) ∧
    path ≠ [] ∧ path.head? ≠ some 47 ∧
    List.Forall₂ Fits ((segments pattern).drop 2) ((segments path).drop 1)

/-- The first segment of a pattern that starts with a slash is empty, so it has no parameter. -/
theorem paramNames_cons_slash (text : Bytes) :
    paramNames (47 :: text) = ((segments text).filter fun p ↦ IsParam p).map (·.drop 1) := by
  rw [paramNames, segments_cons_slash, List.filter_cons_of_neg (by simp [IsParam])]

/-- On a path that starts with a slash, a match means what it should. -/
theorem sound_of_fits {text rest : Bytes} (h : List.Forall₂ Fits (segments text) (segments rest))
    (hnames : (paramNames (47 :: text)).Nodup) :
    Sound (47 :: text) (47 :: rest)
      (bindSegments (segments text) (segments rest) (FiniteMap.empty : M)).2 := by
  rw [paramNames_cons_slash] at hnames
  obtain ⟨hbound, hbinding⟩ := find?_bindSegments (M := M) h hnames
  refine ⟨?_, fun name ↦ ?_, fun name value hvalue ↦ ?_, ?_⟩
  · rw [segments_cons_slash, segments_cons_slash, List.length_cons, List.length_cons, h.length_eq]
  · rw [paramNames_cons_slash, ← map_fst_bindings h, Option.isSome_iff_exists]
    constructor
    · rintro ⟨value, hvalue⟩
      exact List.mem_map.2 ⟨_, hbinding name value hvalue, rfl⟩
    · rintro hname
      obtain ⟨e, he, rfl⟩ := List.mem_map.1 hname
      exact ⟨e.2, hbound e he⟩
  · exact slash_notMem_of_mem_segments (mem_of_mem_bindings (hbinding name value hvalue))
  · rw [substitute, segments_cons_slash, List.map_cons, map_bound h hbound,
      if_neg (by simp [IsParam]), ← segments_cons_slash]
    exact List.intercalate_splitOn 47

/-- When the matcher takes the first byte of a path for a slash. -/
theorem misread_cons {text p : Bytes} {ps : List Bytes} (htext : segments text = p :: ps)
    {d : UInt8} (hd : d ≠ 47) (rest : Bytes) :
    Misread (47 :: text) (d :: rest) ↔
      IsParam p ∧ List.Forall₂ Fits ps ((segments rest).drop 1) := by
  have hdrop : (segments (d :: rest)).drop 1 = (segments rest).drop 1 := by
    obtain ⟨r, rs, hrest⟩ := List.exists_cons_of_ne_nil (List.splitOn_ne_nil 47 rest)
    rw [segments, segments, List.splitOn_cons_eq_if_modifyHead, if_neg (by simpa using hd), hrest]
    rfl
  rw [Misread, segments_cons_slash, htext, hdrop]
  constructor
  · rintro ⟨⟨segment, hsegment, hparam⟩, -, -, hfits⟩
    obtain rfl : p = segment := Option.some.inj hsegment
    exact ⟨hparam, hfits⟩
  · rintro ⟨hparam, hfits⟩
    exact ⟨⟨p, rfl, hparam⟩, List.cons_ne_nil _ _, fun h ↦ hd (Option.some.inj h), hfits⟩

/-- **When a match means what it should**: in every case except the misread one. -/
theorem match_sound_iff {pattern : Bytes} (path : Bytes) (hslash : pattern.head? = some 47)
    (hnames : (paramNames pattern).Nodup) :
    ((PathMatcher.match pattern path (FiniteMap.empty : M)).1 = true →
      Sound pattern path (PathMatcher.match pattern path (FiniteMap.empty : M)).2) ↔
    ¬ Misread pattern path := by
  obtain ⟨text, rfl⟩ := List.head?_eq_some_iff.1 hslash
  cases path with
  | nil =>
    exact iff_of_true (fun h ↦ absurd h (by simp [PathMatcher.match, matchLoop]))
      (by simp [Misread])
  | cons d rest =>
    obtain ⟨p, ps, htext⟩ := List.exists_cons_of_ne_nil (List.splitOn_ne_nil 47 text)
    replace htext : segments text = p :: ps := htext
    obtain ⟨r, rs, hrest⟩ := List.exists_cons_of_ne_nil (List.splitOn_ne_nil 47 rest)
    replace hrest : segments rest = r :: rs := hrest
    rw [match_cons htext]
    by_cases hd : d = 47
    · obtain rfl := hd
      rw [if_pos (Or.inr rfl), bindSegments_fst_iff]
      exact iff_of_true (fun h ↦ sound_of_fits h hnames) fun h ↦ h.2.2.1 rfl
    rw [misread_cons htext hd]
    by_cases hparam : IsParam p
    · rw [if_pos (Or.inl hparam), bindSegments_fst_iff]
      have hfits : List.Forall₂ Fits (segments text) (segments rest) ↔
          List.Forall₂ Fits ps ((segments rest).drop 1) := by
        rw [htext, hrest, List.forall₂_cons]
        exact and_iff_right (Or.inl hparam)
      rw [and_iff_right hparam, hfits]
      refine imp_congr_right fun h ↦ iff_of_false (fun hsound ↦ ?_) (by simp)
      -- the values put the path together again with a slash for its first byte
      have hsubst := (sound_of_fits (M := M) (hfits.2 h) hnames).substitute_eq
      exact hd (List.cons.inj (hsound.substitute_eq.symm.trans hsubst)).1
    · rw [if_neg (not_or.2 ⟨hparam, hd⟩)]
      exact iff_of_true (fun h ↦ absurd h (by simp)) fun h ↦ hparam h.1

/-- The route pattern of the documentation, against a path with a value for its parameter. -/
theorem match_sound_users :
    (PathMatcher.match (ascii "/users/:id") (ascii "/users/42") (FiniteMap.empty : BytesMap)).1 =
        true ∧
      Sound (ascii "/users/:id") (ascii "/users/42")
        (PathMatcher.match (ascii "/users/:id") (ascii "/users/42")
          (FiniteMap.empty : BytesMap)).2 := by
  have hmatch : (PathMatcher.match (ascii "/users/:id") (ascii "/users/42")
      (FiniteMap.empty : BytesMap)).1 = true := by decide +kernel
  refine ⟨hmatch, (match_sound_iff (ascii "/users/42") rfl (by decide +kernel)).2 ?_ hmatch⟩
  exact fun h ↦ h.2.2.1 rfl

/-- The path `x5` matches the pattern `/:id` and binds `5`, which gives the path `/5`. -/
theorem not_match_sound :
    ¬ ∀ pattern path : Bytes, pattern.head? = some 47 → (paramNames pattern).Nodup →
      (PathMatcher.match pattern path (FiniteMap.empty : BytesMap)).1 = true →
      Sound pattern path (PathMatcher.match pattern path (FiniteMap.empty : BytesMap)).2 := by
  intro h
  have hsound := h (ascii "/:id") (ascii "x5") rfl (by decide +kernel) (by decide +kernel)
  exact absurd hsound.length_eq (by decide +kernel)

/-! ### Completeness -/

/-- A segment of a pattern with a value for each parameter. -/
def fillSegment (value : Bytes → Bytes) (segment : Bytes) : Bytes :=
  if IsParam segment then value (segment.drop 1) else segment

/-- A pattern with a value for each parameter. -/
def fill (pattern : Bytes) (value : Bytes → Bytes) : Bytes :=
  [47].intercalate ((segments pattern).map (fillSegment value))

section Filled

variable {value : Bytes → Bytes}

/-- The segments of a filled pattern, when no value has a slash. -/
theorem segments_fill {text : Bytes} (hvalue : ∀ name ∈ paramNames text, 47 ∉ value name) :
    segments (fill text value) = (segments text).map (fillSegment value) := by
  refine List.splitOn_intercalate 47 (fun s hs ↦ ?_) ?_
  · obtain ⟨p, hp, rfl⟩ := List.mem_map.1 hs
    rw [fillSegment]
    split
    · rename_i hparam
      exact hvalue _ (List.mem_map.2 ⟨p, List.mem_filter.2 ⟨hp, decide_eq_true hparam⟩, rfl⟩)
    · exact slash_notMem_of_mem_segments hp
  · rw [ne_eq, List.map_eq_nil_iff]
    exact List.splitOn_ne_nil 47 text

/-- Every segment fits what it is filled with. -/
theorem forall₂_fits_fillSegment (ps : List Bytes) :
    List.Forall₂ Fits ps (ps.map (fillSegment value)) := by
  refine List.forall₂_map_right_iff.2 (List.forall₂_same.2 fun p _ ↦ ?_)
  rw [Fits, fillSegment]
  split
  · rename_i hparam
    exact Or.inl hparam
  · exact Or.inr rfl

/-- A walk over a filled pattern binds each parameter to its value. -/
theorem bindings_fillSegment {ps : List Bytes} {e : Bytes × Bytes}
    (he : e ∈ bindings ps (ps.map (fillSegment value))) : e.2 = value e.1 := by
  induction ps with
  | nil => exact absurd he List.not_mem_nil
  | cons p ps ih =>
    rw [List.map_cons, bindings_cons] at he
    split at he
    · rename_i hparam
      rcases List.mem_cons.1 he with rfl | hrest
      · exact if_pos hparam
      · exact ih hrest
    · exact ih he

end Filled

/-- A filled pattern starts with the slash of the pattern. -/
theorem fill_cons_slash (text : Bytes) (value : Bytes → Bytes) :
    fill (47 :: text) value = 47 :: fill text value := by
  obtain ⟨p, ps, htext⟩ := List.exists_cons_of_ne_nil (List.splitOn_ne_nil 47 text)
  have hsegments : segments text = p :: ps := htext
  have hfirst : fillSegment value [] = [] := if_neg (by simp [IsParam])
  rw [fill, fill, segments_cons_slash, hsegments, List.map_cons, List.map_cons, hfirst,
    List.intercalate_cons_cons]
  rfl

/-- **A filled pattern matches.** For every pattern that starts with a slash, every choice of
values without a slash for its parameters and every map of parameters, the pattern matches the path
that it is filled to; then every parameter is bound to its value, and every other name is bound as
before. A name that stands in the pattern twice has the same value in both places. -/
theorem match_fill {pattern : Bytes} (hslash : pattern.head? = some 47) {value : Bytes → Bytes}
    (hvalue : ∀ name ∈ paramNames pattern, 47 ∉ value name) (params : M) :
    (PathMatcher.match pattern (fill pattern value) params).1 = true ∧
      ∀ name, find? (PathMatcher.match pattern (fill pattern value) params).2 name =
        if name ∈ paramNames pattern then some (value name) else find? params name := by
  obtain ⟨text, rfl⟩ := List.head?_eq_some_iff.1 hslash
  obtain ⟨p, ps, htext⟩ := List.exists_cons_of_ne_nil (List.splitOn_ne_nil 47 text)
  have hnames := paramNames_cons_slash text
  have hfits : List.Forall₂ Fits (segments text) ((segments text).map (fillSegment value)) :=
    forall₂_fits_fillSegment (segments text)
  have hvalue' : ∀ name ∈ paramNames text, 47 ∉ value name := by
    intro name hname
    exact hvalue name (hnames ▸ hname)
  rw [fill_cons_slash, match_cons htext, if_pos (Or.inr rfl), segments_fill hvalue']
  refine ⟨bindSegments_fst_iff.2 hfits, fun name ↦ ?_⟩
  have hset := find?_put_item (M := M) (Prod.fst : Bytes × Bytes → Bytes) Prod.snd
  rw [bindSegments_snd hfits, hnames, ← map_fst_bindings hfits]
  split
  · rename_i hname
    exact find?_foldl_of_val hset (fun e he ↦ bindings_fillSegment he) params hname
  · rename_i hname
    exact find?_foldl_of_ne hset _ params fun e he heq ↦ hname (List.mem_map.2 ⟨e, he, heq.symm⟩)

/-- Values of the parameters of a pattern, one of them empty. -/
def userFile (name : Bytes) : Bytes :=
  if name = ascii "id" then ascii ":42" else []

/-- A segment that is empty, one that starts with a colon, and a map that binds a name already. -/
theorem match_fill_userFile :
    fill (ascii "/users/:id//:file") userFile = ascii "/users/:42//" ∧
      (PathMatcher.match (ascii "/users/:id//:file") (fill (ascii "/users/:id//:file") userFile)
        (FiniteMap.put FiniteMap.empty (ascii "id") (ascii "7") : BytesMap)).1 = true :=
  ⟨by decide +kernel, (match_fill rfl (by decide +kernel) _).1⟩

end PathMatcher

end FalconHTTP
