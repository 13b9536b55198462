import FalconHTTP.Foundation.Wildcard
import FalconHTTP.Routing.Dispatch
import FalconHTTP.Routing.PathMatching

/-!
# Patterns that overlap, and patterns that shadow others

Whether a pattern matches a path depends on neither the parameters nor the map they are put in
(`accepts`). After its first byte a pattern is a pattern with wildcards in the sense of the library
(`shape`): its segments are the letters, its parameters the wildcards.

* `accepts_trans`: what a pattern matches is matched by every pattern that matches the pattern
  itself, read as a path.
* `overlap_iff`: two patterns that start with a slash match a common path exactly when they meet
  segment by segment, which can be computed.
* `covered_iff`: what such a pattern matches is covered by a list of them exactly when one of the
  list matches the pattern itself.

So the scans of a table keep what they find when routes that do not overlap change places
(`firstOf_perm`), and when a route is removed that an earlier one shadows (`firstOf_remove`).
-/

namespace FalconHTTP

open FiniteMap

variable {M : Type} [FiniteMap M Bytes Bytes]

namespace PathMatcher

/-! ### Patterns of segments -/

/-- The pattern matches the path. -/
def accepts (pattern path : Bytes) : Bool :=
  (PathMatcher.match pattern path (FiniteMap.empty : BytesMap)).1

/-- The loop succeeds or fails whatever the parameters are. -/
theorem matchLoop_fst (fuel : ℕ) (pattern path : Bytes) (params : M) (params' : BytesMap) :
    (matchLoop fuel pattern path params).1 = (matchLoop fuel pattern path params').1 := by
  induction fuel generalizing pattern path params params' with
  | zero => rfl
  | succ fuel ih =>
    rw [matchLoop, matchLoop]
    split
    · rfl
    · simp only
      split
      · exact ih _ _ _ _
      · split
        · rfl
        · exact ih _ _ _ _

theorem match_fst (pattern path : Bytes) (params : M) :
    (PathMatcher.match pattern path params).1 = accepts pattern path :=
  matchLoop_fst _ _ _ _ _

/-- A segment as a position of a pattern: a parameter is a wildcard. -/
def position (segment : Bytes) : Option Bytes :=
  if IsParam segment then none else some segment

/-- A pattern of segments. -/
def shape (pattern : Bytes) : Wildcard.Pattern Bytes :=
  (segments pattern).map position

/-- The texts that can be segments. -/
def slashFree : Set Bytes :=
  {s | 47 ∉ s}

theorem slashFree_infinite : slashFree.Infinite :=
  Set.infinite_of_injective_forall_mem (f := fun n ↦ List.replicate n (48 : UInt8))
    (fun m n h ↦ by simpa using congrArg List.length h)
    fun n h ↦ absurd (List.eq_of_mem_replicate h) (by decide)

/-- A position takes the segments that fit. -/
theorem fits_iff {p r : Bytes} : Fits p r ↔ Wildcard.Takes (position p) r := by
  rw [Fits, Wildcard.Takes, position]
  split
  · rename_i hparam
    simp [hparam]
  · rename_i hparam
    simp [hparam]

/-- A position that takes a segment of a pattern is above it. -/
theorem takes_iff_above {p q : Bytes} :
    Wildcard.Takes (position p) q ↔ Wildcard.Above (position p) (position q) := by
  rw [Wildcard.Takes, Wildcard.Above]
  by_cases hp : IsParam p
  · simp [position, hp]
  · by_cases hq : IsParam q
    · have hne : p ≠ q := fun h ↦ hp (h ▸ hq)
      simp [position, hp, hq, hne]
    · simp [position, hp, hq]

/-- The first position of a pattern that starts with a slash. -/
theorem shape_cons_slash (text : Bytes) : shape (47 :: text) = some [] :: shape text := by
  rw [shape, segments_cons_slash, List.map_cons, position, if_neg (by simp [IsParam])]
  rfl

theorem over_shape (pattern : Bytes) : Wildcard.Over slashFree (shape pattern) := by
  intro s hs
  obtain ⟨segment, hsegment, hposition⟩ := List.mem_map.1 hs
  rw [position] at hposition
  split at hposition
  · cases hposition
  · obtain rfl := Option.some.inj hposition
    exact slash_notMem_of_mem_segments hsegment

theorem wordOver_segments (text : Bytes) : Wildcard.WordOver slashFree (segments text) :=
  fun _ hs ↦ slash_notMem_of_mem_segments hs

/-- The empty pattern accepts the empty path only. -/
theorem accepts_nil_left (path : Bytes) : accepts [] path = true ↔ path = [] := by
  simp [accepts, PathMatcher.match, matchLoop]

/-- No other pattern accepts the empty path. -/
theorem not_accepts_nil_right (c : UInt8) (text : Bytes) : accepts (c :: text) [] ≠ true := by
  simp [accepts, PathMatcher.match, matchLoop]

/-- **What a pattern accepts**: a path with the same first byte, unless a parameter comes first, and
with segments after it that fit. -/
theorem accepts_cons (c : UInt8) (text : Bytes) (d : UInt8) (rest : Bytes) :
    accepts (c :: text) (d :: rest) = true ↔
      ((shape text).head? = some none ∨ d = c) ∧
        Wildcard.Accepts (shape text) (segments rest) := by
  obtain ⟨p, ps, htext⟩ := List.exists_cons_of_ne_nil (List.splitOn_ne_nil 47 text)
  replace htext : segments text = p :: ps := htext
  have hfirst : (shape text).head? = some none ↔ IsParam p := by
    rw [shape, htext, List.map_cons, List.head?_cons, position]
    split
    · rename_i hparam
      simp [hparam]
    · rename_i hparam
      simp [hparam]
  have hfits : List.Forall₂ Fits (segments text) (segments rest) ↔
      Wildcard.Accepts (shape text) (segments rest) := by
    rw [Wildcard.Accepts, shape, List.forall₂_map_left_iff]
    exact ⟨List.Forall₂.imp fun _ _ ↦ fits_iff.1, List.Forall₂.imp fun _ _ ↦ fits_iff.2⟩
  rw [accepts, match_cons htext, hfirst, ← hfits]
  split
  · rename_i hbyte
    rw [bindSegments_fst_iff]
    exact (and_iff_right hbyte).symm
  · rename_i hbyte
    exact iff_of_false Bool.false_ne_true fun h ↦ hbyte h.1

/-- A word that a pattern accepts is a path. -/
theorem exists_segments_eq {text : Bytes} {w : List Bytes} (hw : Wildcard.WordOver slashFree w)
    (h : Wildcard.Accepts (shape text) w) : ∃ rest, segments rest = w := by
  refine ⟨[47].intercalate w, List.splitOn_intercalate 47 hw ?_⟩
  rintro rfl
  have hnil : segments text = [] := List.map_eq_nil_iff.1 (List.forall₂_nil_right_iff.1 h)
  exact List.splitOn_ne_nil 47 text hnil

/-! ### Overlap -/

/-- Two patterns meet segment by segment. -/
def Overlap (pattern pattern' : Bytes) : Prop :=
  List.Forall₂ Wildcard.Meets (shape pattern) (shape pattern')

instance (pattern pattern' : Bytes) : Decidable (Overlap pattern pattern') :=
  inferInstanceAs (Decidable (List.Forall₂ _ _ _))

theorem overlap_cons_slash (text text' : Bytes) :
    Overlap (47 :: text) (47 :: text') ↔
      List.Forall₂ Wildcard.Meets (shape text) (shape text') := by
  rw [Overlap, shape_cons_slash, shape_cons_slash, List.forall₂_cons]
  exact and_iff_right (Or.inr (Or.inr rfl))

/-- **Two patterns match a common path exactly when they meet segment by segment.** -/
theorem overlap_iff {pattern pattern' : Bytes} (hslash : pattern.head? = some 47)
    (hslash' : pattern'.head? = some 47) :
    Overlap pattern pattern' ↔
      ∃ path, accepts pattern path = true ∧ accepts pattern' path = true := by
  obtain ⟨text, rfl⟩ := List.head?_eq_some_iff.1 hslash
  obtain ⟨text', rfl⟩ := List.head?_eq_some_iff.1 hslash'
  rw [overlap_cons_slash, ← Wildcard.exists_accepts_iff slashFree_infinite.nonempty
    (over_shape text) (over_shape text')]
  constructor
  · rintro ⟨w, hw, haccepts, haccepts'⟩
    obtain ⟨rest, rfl⟩ := exists_segments_eq hw haccepts
    exact ⟨47 :: rest, (accepts_cons _ _ _ _).2 ⟨Or.inr rfl, haccepts⟩,
      (accepts_cons _ _ _ _).2 ⟨Or.inr rfl, haccepts'⟩⟩
  · rintro ⟨path, haccepts, haccepts'⟩
    cases path with
    | nil => exact absurd haccepts (not_accepts_nil_right 47 text)
    | cons d rest =>
      exact ⟨segments rest, wordOver_segments rest, ((accepts_cons _ _ _ _).1 haccepts).2,
        ((accepts_cons _ _ _ _).1 haccepts').2⟩

theorem overlap_iff_users : ∃ path, accepts (ascii "/users/:id") path = true ∧
    accepts (ascii "/:kind/new") path = true :=
  (overlap_iff rfl rfl).1 (by decide +kernel)

/-! ### Shadows -/

/-- A pattern that matches another, read as a path, is above it. -/
theorem accepts_cons_iff_above (c : UInt8) (text : Bytes) (d : UInt8) (text' : Bytes) :
    accepts (c :: text) (d :: text') = true ↔
      ((shape text).head? = some none ∨ d = c) ∧
        List.Forall₂ Wildcard.Above (shape text) (shape text') := by
  have habove : Wildcard.Accepts (shape text) (segments text') ↔
      List.Forall₂ Wildcard.Above (shape text) (shape text') := by
    rw [Wildcard.Accepts, shape, shape, List.forall₂_map_left_iff, List.forall₂_map_left_iff,
      List.forall₂_map_right_iff]
    exact ⟨List.Forall₂.imp fun _ _ ↦ takes_iff_above.1, List.Forall₂.imp fun _ _ ↦
      takes_iff_above.2⟩
  rw [accepts_cons, habove]

/-- **What a pattern matches, every pattern matches that matches the pattern itself.** -/
theorem accepts_trans {pattern pattern' path : Bytes} (h : accepts pattern pattern' = true)
    (h' : accepts pattern' path = true) : accepts pattern path = true := by
  rcases pattern with - | ⟨c, text⟩
  · rwa [(accepts_nil_left pattern').1 h] at h'
  rcases pattern' with - | ⟨c', text'⟩
  · exact absurd h (not_accepts_nil_right c text)
  rcases path with - | ⟨d, rest⟩
  · exact absurd h' (not_accepts_nil_right c' text')
  obtain ⟨hfirst, habove⟩ := (accepts_cons_iff_above c text c' text').1 h
  obtain ⟨hfirst', haccepts⟩ := (accepts_cons c' text' d rest).1 h'
  refine (accepts_cons c text d rest).2 ⟨?_, haccepts.of_above habove⟩
  rcases hfirst with hwildcard | rfl
  · exact Or.inl hwildcard
  · exact hfirst'.imp_left (Wildcard.head?_eq_of_above habove)

/-- **What patterns cover together, one of them covers**: it matches the covered pattern, read as a
path. -/
theorem covered_iff {patterns : List Bytes} {pattern : Bytes}
    (hslashes : ∀ p ∈ patterns, p.head? = some 47) (hslash : pattern.head? = some 47) :
    (∀ path, path.head? = some 47 → accepts pattern path = true →
        ∃ p ∈ patterns, accepts p path = true) ↔
      ∃ p ∈ patterns, accepts p pattern = true := by
  obtain ⟨text, rfl⟩ := List.head?_eq_some_iff.1 hslash
  constructor
  · intro h
    have hcovered : ∀ w, Wildcard.WordOver slashFree w → Wildcard.Accepts (shape text) w →
        ∃ p ∈ patterns.map fun p ↦ shape p.tail, Wildcard.Accepts p w := by
      intro w hw haccepts
      obtain ⟨rest, rfl⟩ := exists_segments_eq hw haccepts
      obtain ⟨p, hp, hpath⟩ := h (47 :: rest) rfl
        ((accepts_cons _ _ _ _).2 ⟨Or.inr rfl, haccepts⟩)
      obtain ⟨text', rfl⟩ := List.head?_eq_some_iff.1 (hslashes p hp)
      exact ⟨shape text', List.mem_map.2 ⟨_, hp, rfl⟩, ((accepts_cons _ _ _ _).1 hpath).2⟩
    obtain ⟨x, hx, habove⟩ := (Wildcard.covered_iff slashFree_infinite _ (over_shape text)).1
      hcovered
    obtain ⟨p, hp, rfl⟩ := List.mem_map.1 hx
    obtain ⟨text', rfl⟩ := List.head?_eq_some_iff.1 (hslashes p hp)
    exact ⟨_, hp, (accepts_cons_iff_above _ _ _ _).2 ⟨Or.inr rfl, habove⟩⟩
  · rintro ⟨p, hp, hmatch⟩ path - haccepts
    exact ⟨p, hp, accepts_trans hmatch haccepts⟩

end PathMatcher

/-! ### Routes -/

namespace Route

theorem covers_eq (route : Route M) (request : HttpRequest M) :
    route.covers request = PathMatcher.accepts route.pattern request.path :=
  PathMatcher.match_fst _ _ _

/-- The pattern starts with a slash. -/
def StartsWithSlash (route : Route M) : Prop :=
  route.pattern.head? = some 47

/-- A route for the same method whose pattern matches the pattern of the other. -/
def Shadows (route route' : Route M) : Prop :=
  route.method = route'.method ∧ PathMatcher.accepts route.pattern route'.pattern = true

/-- The route is of the kind that a scan looks at, and serves the request. -/
def isFor (kind : Bool) (request : HttpRequest M) (route : Route M) : Bool :=
  (route.isStream == kind) && route.serves request

/-- No request is for both routes, as far as one of the scans goes. -/
def Apart (route route' : Route M) : Prop :=
  route.isStream = route'.isStream → route.method = route'.method →
    ¬ PathMatcher.Overlap route.pattern route'.pattern

instance (route : Route M) : Decidable route.StartsWithSlash :=
  inferInstanceAs (Decidable (_ = _))

instance (route route' : Route M) : Decidable (route.Shadows route') :=
  inferInstanceAs (Decidable (_ ∧ _))

instance (route route' : Route M) : Decidable (route.Apart route') :=
  inferInstanceAs (Decidable (_ → _ → ¬ _))

variable {route route' : Route M} {request : HttpRequest M}

theorem isFor_iff {kind : Bool} : isFor kind request route = true ↔
    route.isStream = kind ∧ route.serves request = true := by
  rw [isFor, Bool.and_eq_true_iff, beq_iff_eq]

/-- Where a route matches, one that shadows it matches. -/
theorem Shadows.covers (h : route.Shadows route') (hcovers : route'.covers request = true) :
    route.covers request = true := by
  rw [covers_eq] at hcovers ⊢
  exact PathMatcher.accepts_trans h.2 hcovers

theorem Shadows.serves (h : route.Shadows route') (hserves : route'.serves request = true) :
    route.serves request = true := by
  obtain ⟨hmethod, hcovers⟩ := serves_iff.1 hserves
  exact serves_iff.2 ⟨h.1.trans hmethod, h.covers hcovers⟩

/-- Routes that are apart do not serve the same request. -/
theorem Apart.not_serves (h : route.Apart route') (hkind : route.isStream = route'.isStream)
    (hslash : route.StartsWithSlash) (hslash' : route'.StartsWithSlash)
    (hserves : route.serves request = true) : route'.serves request = false := by
  rcases hserves' : route'.serves request with - | -
  · rfl
  obtain ⟨hmethod, hcovers⟩ := serves_iff.1 hserves
  obtain ⟨hmethod', hcovers'⟩ := serves_iff.1 hserves'
  rw [covers_eq] at hcovers hcovers'
  exact absurd ((PathMatcher.overlap_iff hslash hslash').2 ⟨_, hcovers, hcovers'⟩)
    (h hkind (hmethod.trans hmethod'.symm))

end Route

/-! ### The scans -/

/-- A list without a pair of elements has at most one. -/
theorem length_le_one_of_pairwise {α : Type*} {l : List α} (h : l.Pairwise fun _ _ ↦ False) :
    l.length ≤ 1 := by
  rcases l with - | ⟨a, - | ⟨b, l⟩⟩
  · exact Nat.zero_le 1
  · exact Nat.le_refl 1
  · exact ((List.pairwise_cons.1 h).1 b List.mem_cons_self).elim

/-- Where at most one element is to be found, the order does not matter. -/
theorem find?_eq_of_perm {α : Type*} {p : α → Bool} {l l' : List α} (hperm : l.Perm l')
    (hone : (l.filter p).length ≤ 1) : l.find? p = l'.find? p := by
  have hfilter := hperm.filter p
  rw [← List.head?_filter, ← List.head?_filter]
  rcases hleft : l.filter p with - | ⟨a, rest⟩
  · rw [hleft] at hfilter
    rw [List.nil_perm.1 hfilter]
  · rw [hleft, List.length_cons] at hone
    obtain rfl := List.eq_nil_of_length_eq_zero (Nat.le_zero.1 (Nat.le_of_succ_le_succ hone))
    rw [hleft] at hfilter
    rw [List.singleton_perm.1 hfilter]

namespace Router

/-- The order in which routes are asked: the stream routes, and then the others. -/
def scanOrder (routes : List (Route M)) : List (Route M) :=
  routes.filter (·.isStream) ++ routes.filter (!·.isStream)

/-- The first route of a kind that serves a request. -/
def firstOf (kind : Bool) (routes : List (Route M)) (request : HttpRequest M) : Option (Route M) :=
  routes.find? (Route.isFor kind request)

theorem firstOf_true (routes : List (Route M)) (request : HttpRequest M) :
    firstOf true routes request = firstStream routes request := by
  rw [firstOf, firstStream]
  congr 1
  funext route
  rw [Route.isFor, beq_true]

theorem firstOf_false (routes : List (Route M)) (request : HttpRequest M) :
    firstOf false routes request = firstNormal routes request := by
  rw [firstOf, firstNormal]
  congr 1
  funext route
  rw [Route.isFor, beq_false]

/-- The two scans are one, in that order. -/
theorem find?_scanOrder (routes : List (Route M)) (request : HttpRequest M) :
    (scanOrder routes).find? (·.serves request) =
      (firstStream routes request).or (firstNormal routes request) := by
  rw [scanOrder, List.find?_append, List.find?_filter, List.find?_filter, firstStream, firstNormal]
  simp only [Bool.decide_and, Bool.decide_eq_true]

variable {routes routes' : List (Route M)} {request : HttpRequest M}

/-- **Routes that are apart can change places.** -/
theorem firstOf_perm (hperm : routes.Perm routes') (hslash : ∀ r ∈ routes, r.StartsWithSlash)
    (hapart : routes.Pairwise Route.Apart) (kind : Bool) (request : HttpRequest M) :
    firstOf kind routes request = firstOf kind routes' request := by
  refine find?_eq_of_perm hperm (length_le_one_of_pairwise ?_)
  refine ((List.Pairwise.and_mem.1 hapart).filter (Route.isFor kind request)).imp_of_mem ?_
  rintro r r' hr hr' ⟨hmem, hmem', hrr'⟩
  obtain ⟨hkind, hserves⟩ := Route.isFor_iff.1 (List.mem_filter.1 hr).2
  obtain ⟨hkind', hserves'⟩ := Route.isFor_iff.1 (List.mem_filter.1 hr').2
  have hnot :=
    hrr'.not_serves (hkind.trans hkind'.symm) (hslash r hmem) (hslash r' hmem') hserves
  rw [hserves'] at hnot
  cases hnot

/-- **A shadowed route can be removed.** -/
theorem firstOf_remove {before after : List (Route M)} {route shadow : Route M}
    (hshadow : shadow ∈ before) (hkind : shadow.isStream = route.isStream)
    (h : shadow.Shadows route) (kind : Bool) (request : HttpRequest M) :
    firstOf kind (before ++ route :: after) request = firstOf kind (before ++ after) request := by
  rw [firstOf, firstOf, List.find?_append, List.find?_append]
  rcases hbefore : before.find? (Route.isFor kind request) with - | r
  · rw [List.find?_cons_of_neg]
    intro hfound
    obtain ⟨hroute, hserves⟩ := Route.isFor_iff.1 hfound
    exact List.find?_eq_none.1 hbefore shadow hshadow
      (Route.isFor_iff.2 ⟨hkind.trans hroute, h.serves hserves⟩)
  · rw [Option.some_or, Option.some_or]

/-- What `matchStream` finds depends on the first stream route that serves the request. -/
theorem matchStream_congr (h : firstStream routes request = firstStream routes' request) :
    matchStream request routes = matchStream request routes' := by
  rcases hfirst : firstStream routes request with - | route
  · rw [matchStream_of_none hfirst, matchStream_of_none (h ▸ hfirst)]
  · obtain ⟨streamHandler, htarget⟩ := Route.exists_of_isStream (isStream_of_firstStream hfirst)
    rw [matchStream_of_firstStream hfirst htarget,
      matchStream_of_firstStream (h ▸ hfirst) htarget]

/-- What dispatching comes to depends on the first normal route that serves the request, and on
whether some normal route matches its path. -/
theorem dispatch_congr (h : firstNormal routes request = firstNormal routes' request)
    (hany : (routes.any fun r ↦ !r.isStream && r.covers request) =
      routes'.any fun r ↦ !r.isStream && r.covers request) (response : HttpResponse M) :
    dispatch routes request response = dispatch routes' request response := by
  rw [dispatch, dispatch]
  rcases hfirst : firstNormal routes request with - | route
  · rw [dispatchFrom_of_none response false hfirst,
      dispatchFrom_of_none response false (h ▸ hfirst), hany]
  · obtain ⟨handler, htarget⟩ := Route.exists_of_not_isStream (isStream_of_firstNormal hfirst)
    rw [dispatchFrom_of_firstNormal response false hfirst htarget,
      dispatchFrom_of_firstNormal response false (h ▸ hfirst) htarget]

end Router

end FalconHTTP
