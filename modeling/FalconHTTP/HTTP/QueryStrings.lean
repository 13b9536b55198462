import FalconHTTP.HTTP.ParserExactness
import FalconHTTP.HTTP.PercentDecoding

/-!
# Query strings

A form writes each byte of a text as itself, as a plus or as an escape (`EncodesByte`), joins a key
and its value with `=`, and joins the pairs with `&`. Here `EncodesSegments` is that relation
between pairs and the segments between the `&`, of which any number may be empty.

`parse_query` is the way back. The parser splits a query string at `&` (`parseQuery_eq_foldl`), each
segment at its first `=`, and then decodes, so the separators have to be escaped inside a key or a
value and nothing else has to.
-/

namespace FalconHTTP

namespace UrlDecoder

/-! ### Form-encoded text -/

/-- The bytes that do not stand for themselves: space, CR, LF and the bytes `%`, `+`, `&`, `=`. -/
def reserved : Bytes := ascii " \r\n%+&="

/-- A hex digit for a number below 16, lowercase or uppercase. -/
def IsDigit (n : ℕ) (c : UInt8) : Prop :=
  (ascii "0123456789abcdef")[n]? = some c ∨ (ascii "0123456789ABCDEF")[n]? = some c

/-- The ways to write a byte. -/
inductive EncodesByte : UInt8 → Bytes → Prop
  /-- A byte that is not reserved stands for itself. -/
  | literal {b : UInt8} (hb : b ∉ reserved) : EncodesByte b [b]
  /-- A plus stands for a space. -/
  | plus : EncodesByte 32 [43]
  /-- Two hex digits after a percent sign stand for any byte. -/
  | escape {b high low : UInt8} {x y : ℕ} (hhigh : IsDigit x high) (hlow : IsDigit y low)
      (hb : b.toNat = 16 * x + y) : EncodesByte b [37, high, low]

/-- The ways to write a text, byte by byte. -/
inductive Encodes : Bytes → Bytes → Prop
  /-- Nothing is written for the empty text. -/
  | nil : Encodes [] []
  /-- The first byte, then the rest. -/
  | cons {b : UInt8} {piece text encoded : Bytes} (hpiece : EncodesByte b piece)
      (hrest : Encodes text encoded) : Encodes (b :: text) (piece ++ encoded)

theorem lt_of_isDigit {n : ℕ} {c : UInt8} (h : IsDigit n c) : n < 16 := by
  rcases h with h | h
  · exact (List.getElem?_eq_some_iff.1 h).1
  · exact (List.getElem?_eq_some_iff.1 h).1

/-- The decoder knows the digits. -/
theorem hexDigitToValue_of_isDigit {n : ℕ} {c : UInt8} (h : IsDigit n c) :
    hexDigitToValue c = some (UInt8.ofNat n) := by
  have hlower : ∀ i : Fin 16, ((ascii "0123456789abcdef")[(i : ℕ)]?).bind hexDigitToValue =
      some (UInt8.ofNat i) := by decide +kernel
  have hupper : ∀ i : Fin 16, ((ascii "0123456789ABCDEF")[(i : ℕ)]?).bind hexDigitToValue =
      some (UInt8.ofNat i) := by decide +kernel
  have hn := lt_of_isDigit h
  rcases h with h | h
  · have hvalue := hlower ⟨n, hn⟩
    rwa [h] at hvalue
  · have hvalue := hupper ⟨n, hn⟩
    rwa [h] at hvalue

/-- Two digits put a byte together. -/
theorem shiftLeft_or_digit {b : UInt8} {x y : ℕ} (hx : x < 16) (hy : y < 16)
    (hb : b.toNat = 16 * x + y) : UInt8.ofNat x <<< 4 ||| UInt8.ofNat y = b := by
  have hbytes : ∀ i j : Fin 16,
      UInt8.ofNat i <<< 4 ||| UInt8.ofNat j = UInt8.ofNat (16 * i + j) := by decide +kernel
  rw [hbytes ⟨x, hx⟩ ⟨y, hy⟩, ← hb, UInt8.ofNat_toNat]

/-- A written byte is decoded, whatever follows. -/
theorem EncodesByte.decode_append {b : UInt8} {piece : Bytes} (h : EncodesByte b piece)
    (rest : Bytes) : decode (piece ++ rest) = b :: decode rest := by
  cases h with
  | literal hb =>
    have hplus : b ≠ 43 := by
      rintro rfl
      exact hb (by decide)
    have hpercent : b ≠ 37 := by
      rintro rfl
      exact hb (by decide)
    exact decode_literal hplus hpercent rest
  | plus => exact decode_plus rest
  | escape hhigh hlow hb =>
    show decode (37 :: _ :: _ :: rest) = _
    rw [decode_escape (hexDigitToValue_of_isDigit hhigh) (hexDigitToValue_of_isDigit hlow),
      shiftLeft_or_digit (lt_of_isDigit hhigh) (lt_of_isDigit hlow) hb]

/-- **A written text is decoded.** -/
theorem Encodes.decode_eq {text encoded : Bytes} (h : Encodes text encoded) :
    decode encoded = text := by
  induction h with
  | nil => rfl
  | cons hpiece hrest ih => rw [hpiece.decode_append, ih]

/-- The reserved bytes that no written text contains: all of them but the percent sign and the
plus. -/
theorem EncodesByte.notMem {b c : UInt8} {piece : Bytes} (h : EncodesByte b piece)
    (hc : c ∈ ascii " \r\n&=") : c ∉ piece := by
  have hreserved : ∀ c ∈ ascii " \r\n&=", c ∈ reserved ∧ c ∉ [(37 : UInt8), 43] ∧
      hexDigitToValue c = none := by decide +kernel
  obtain ⟨hmem, hsign, hdigit⟩ := hreserved c hc
  have hne : ∀ {n : ℕ} {d : UInt8}, IsDigit n d → c ≠ d := by
    rintro n d hd rfl
    rw [hexDigitToValue_of_isDigit hd] at hdigit
    cases hdigit
  cases h with
  | literal hb =>
    rw [List.mem_singleton]
    rintro rfl
    exact hb hmem
  | plus => exact fun h ↦ hsign (List.mem_cons_of_mem _ h)
  | escape hhigh hlow _ =>
    simp only [List.mem_cons, List.not_mem_nil, or_false, not_or]
    exact ⟨fun h ↦ hsign (h ▸ List.mem_cons_self), hne hhigh, hne hlow⟩

theorem Encodes.notMem {c : UInt8} {text encoded : Bytes} (h : Encodes text encoded)
    (hc : c ∈ ascii " \r\n&=") : c ∉ encoded := by
  induction h with
  | nil => exact List.not_mem_nil
  | cons hpiece hrest ih => exact List.not_mem_append (hpiece.notMem hc) ih

end UrlDecoder

namespace HttpParser

open Occurrence Lines FiniteMap UrlDecoder

variable {M : Type} [FiniteMap M Bytes Bytes]

/-! ### Segments of a query string -/

/-- A query string that lists pairs: its segments are empty, or a key and a value with `=` between
them. -/
inductive EncodesSegments : List (Bytes × Bytes) → List Bytes → Prop
  /-- No segments list no pairs. -/
  | nil : EncodesSegments [] []
  /-- An empty segment. -/
  | empty {pairs : List (Bytes × Bytes)} {segments : List Bytes}
      (hrest : EncodesSegments pairs segments) : EncodesSegments pairs ([] :: segments)
  /-- The segment of a pair. -/
  | pair {key value k v : Bytes} {pairs : List (Bytes × Bytes)} {segments : List Bytes}
      (hkey : Encodes key k) (hvalue : Encodes value v)
      (hrest : EncodesSegments pairs segments) :
      EncodesSegments ((key, value) :: pairs) ((k ++ 61 :: v) :: segments)

/-- The value of the last pair with a key. -/
def lastPair (pairs : List (Bytes × Bytes)) (key : Bytes) : Option Bytes :=
  (pairs.reverse.find? fun pair ↦ key = pair.1).map Prod.snd

/-- The loop over a query string is a fold over its segments. -/
theorem parseQuery_eq_foldl {fuel : ℕ} {query : Bytes} (hfuel : query.length ≤ fuel)
    (request : HttpRequest M) :
    parseQuery fuel query request =
      (query.splitOn 38).foldl (fun request pair ↦ parsePair pair request) request := by
  induction fuel generalizing query request with
  | zero =>
    obtain rfl := List.eq_nil_of_length_eq_zero (Nat.le_zero.1 hfuel)
    rfl
  | succ fuel ih =>
    rw [parseQuery]
    split
    · rename_i hempty
      rw [hempty]
      rfl
    · split
      · rename_i hnone
        rw [List.splitOn_eq_singleton (notMem_of_indexOf?_eq_none hnone)]
        rfl
      · rename_i ampersand hsome
        have hlen := le_length_of_indexOf? (by simp) hsome
        have hrest : (query.drop (ampersand + 1)).length ≤ fuel := by
          rw [List.length_drop]
          omega
        rw [splitOn_of_indexOf? hsome, ih hrest, List.foldl_cons]

/-- A segment with a separator sets a query parameter. -/
theorem parsePair_append {k : Bytes} (hk : 61 ∉ k) (v : Bytes) (request : HttpRequest M) :
    parsePair (k ++ 61 :: v) request = request.setQueryParam (decode k) (decode v) := by
  rw [parsePair, indexOf?_singleton_append hk]
  simp only [List.take_left, ← List.drop_drop, List.drop_left, List.drop_succ_cons, List.drop_zero]

/-- The segments of a query string set its pairs, in order. -/
theorem EncodesSegments.foldl_parsePair {pairs : List (Bytes × Bytes)} {segments : List Bytes}
    (h : EncodesSegments pairs segments) (request : HttpRequest M) :
    segments.foldl (fun request pair ↦ parsePair pair request) request =
      pairs.foldl (fun request pair ↦ request.setQueryParam pair.1 pair.2) request := by
  induction h generalizing request with
  | nil => rfl
  | empty hrest ih => exact ih request
  | pair hkey hvalue hrest ih =>
    rw [List.foldl_cons, List.foldl_cons, parsePair_append (hkey.notMem (by decide)),
      hkey.decode_eq, hvalue.decode_eq, ih]

/-- What a segment does not contain. -/
theorem EncodesSegments.notMem {pairs : List (Bytes × Bytes)} {segments : List Bytes}
    (h : EncodesSegments pairs segments) {c : UInt8} (hc : c ∈ ascii " \r\n&") :
    ∀ segment ∈ segments, c ∉ segment := by
  have hbytes : ∀ c ∈ ascii " \r\n&", c ∈ ascii " \r\n&=" ∧ c ≠ 61 := by decide +kernel
  obtain ⟨hmem, hne⟩ := hbytes c hc
  induction h with
  | nil => exact fun _ hsegment ↦ absurd hsegment List.not_mem_nil
  | empty hrest ih => exact List.forall_mem_cons.2 ⟨List.not_mem_nil, ih⟩
  | pair hkey hvalue hrest ih =>
    refine List.forall_mem_cons.2 ⟨List.not_mem_append (hkey.notMem hmem) ?_, ih⟩
    exact List.not_mem_cons_of_ne_of_not_mem hne (hvalue.notMem hmem)

/-- Joining segments and splitting them again keeps the pairs; no segments become an empty one. -/
theorem EncodesSegments.splitOn {pairs : List (Bytes × Bytes)} {segments : List Bytes}
    (h : EncodesSegments pairs segments) :
    EncodesSegments pairs (([38].intercalate segments).splitOn 38) := by
  have hpieces := h.notMem (c := 38) (by decide)
  cases h with
  | nil => exact .empty .nil
  | empty hrest =>
    rw [List.splitOn_intercalate 38 hpieces (List.cons_ne_nil _ _)]
    exact .empty hrest
  | pair hkey hvalue hrest =>
    rw [List.splitOn_intercalate 38 hpieces (List.cons_ne_nil _ _)]
    exact .pair hkey hvalue hrest

/-- What a joined query string does not contain. -/
theorem EncodesSegments.notMem_intercalate {pairs : List (Bytes × Bytes)} {segments : List Bytes}
    (h : EncodesSegments pairs segments) {c : UInt8} (hc : c ∈ ascii " \r\n") :
    c ∉ [38].intercalate segments := by
  have hbytes : ∀ c ∈ ascii " \r\n", c ∈ ascii " \r\n&" ∧ c ≠ 38 := by decide +kernel
  obtain ⟨hmem, hne⟩ := hbytes c hc
  have hpieces := h.notMem hmem
  clear h
  induction segments with
  | nil => exact List.not_mem_nil
  | cons segment segments ih =>
    obtain ⟨hsegment, hrest⟩ := List.forall_mem_cons.1 hpieces
    cases segments with
    | nil => simpa using hsegment
    | cons next segments =>
      rw [List.intercalate_cons_cons]
      exact List.not_mem_append (List.not_mem_append hsegment (by simpa using hne)) (ih hrest)

/-! ### The round trip -/

/-- The query parameters of a target with a query string. -/
theorem parsePath_query {path : Bytes} (hpath : 63 ∉ path) {pairs : List (Bytes × Bytes)}
    {segments : List Bytes} (h : EncodesSegments pairs segments) (request : HttpRequest M) :
    (parsePath (path ++ 63 :: [38].intercalate segments) request).path = path ∧
      (parsePath (path ++ 63 :: [38].intercalate segments) request).queryParams =
        pairs.foldl (fun params pair ↦ put params pair.1 pair.2) request.queryParams := by
  have hfold : ∀ (pairs : List (Bytes × Bytes)) (request : HttpRequest M),
      (pairs.foldl (fun request pair ↦ request.setQueryParam pair.1 pair.2) request).path =
          request.path ∧
        (pairs.foldl (fun request pair ↦ request.setQueryParam pair.1 pair.2) request).queryParams =
          pairs.foldl (fun params pair ↦ put params pair.1 pair.2) request.queryParams := by
    intro pairs
    induction pairs with
    | nil => exact fun _ ↦ ⟨rfl, rfl⟩
    | cons pair pairs ih => exact fun request ↦ ih (request.setQueryParam pair.1 pair.2)
  have hquery : (path ++ 63 :: [38].intercalate segments).drop (path.length + 1) =
      [38].intercalate segments := by
    rw [← List.drop_drop, List.drop_left]
    rfl
  rw [parsePath, indexOf?_singleton_append hpath]
  simp only [hquery, List.take_left]
  rw [parseQuery_eq_foldl (Nat.le_refl _), h.splitOn.foldl_parsePair]
  exact hfold pairs { request with path := path }

/-- A target with a query string makes a well-formed request line. -/
theorem requestText_query {path : Bytes} (hpath : ∀ c ∈ ascii "? \r\n", c ∉ path)
    {pairs : List (Bytes × Bytes)} {segments : List Bytes} (h : EncodesSegments pairs segments)
    {method version : Bytes} (hmethod : 32 ∉ method ∧ indexOf? crlf method = none)
    (hversion : indexOf? crlf version = none) {lines : List Bytes}
    (hlines : ∀ line ∈ lines, indexOf? crlf line = none ∧ line ≠ [] ∧ 58 ∈ line) (body : Bytes) :
    RequestText (method ++ 32 :: (path ++ 63 :: [38].intercalate segments ++ 32 :: version) ++
      crlf ++ joinLines 13 10 lines ++ crlf ++ body) method
      (path ++ 63 :: [38].intercalate segments) version lines body := by
  have htarget : ∀ c ∈ ascii " \r\n", c ∉ path ++ 63 :: [38].intercalate segments := by
    intro c hc
    have hbytes : ∀ c ∈ ascii " \r\n", c ∈ ascii "? \r\n" ∧ c ≠ 63 := by decide +kernel
    obtain ⟨hmem, hne⟩ := hbytes c hc
    exact List.not_mem_append (hpath c hmem)
      (List.not_mem_cons_of_ne_of_not_mem hne (h.notMem_intercalate hc))
  refine ⟨rfl, hmethod.1, htarget 32 (by decide), ?_, hlines⟩
  have hclean : indexOf? crlf (path ++ 63 :: [38].intercalate segments) = none :=
    clean_crlf_iff.1 (clean_of_notMem (htarget 13 (by decide)))
  rw [crlf, indexOf?_append_cons_eq_none (by decide) (by decide),
    indexOf?_append_cons_eq_none (by decide) (by decide)]
  exact ⟨hmethod.2, hclean, hversion⟩

/-- **Query strings round-trip.** For every path without a question mark, space, CR or LF, every
list of pairs of byte strings, every way of writing them and any number of empty segments between
them, the parser reads a request with this target to the path and to the map in which each key has
the value of its last pair, and which has no other keys. -/
theorem parse_query {path : Bytes} (hpath : ∀ c ∈ ascii "? \r\n", c ∉ path)
    {pairs : List (Bytes × Bytes)} {segments : List Bytes} (h : EncodesSegments pairs segments)
    {method version : Bytes} (hmethod : 32 ∉ method ∧ indexOf? crlf method = none)
    (hversion : indexOf? crlf version = none) {lines : List Bytes}
    (hlines : ∀ line ∈ lines, indexOf? crlf line = none ∧ line ≠ [] ∧ 58 ∈ line) (body : Bytes) :
    ∃ request : HttpRequest M,
      parse (method ++ 32 :: (path ++ 63 :: [38].intercalate segments ++ 32 :: version) ++ crlf ++
        joinLines 13 10 lines ++ crlf ++ body) = .ok request ∧
      request.path = path ∧ ∀ key, find? request.queryParams key = lastPair pairs key := by
  obtain ⟨hpathEq, hparams⟩ := parsePath_query (hpath 63 (by decide)) h
    { (HttpRequest.new : HttpRequest M) with method := methodFromString method }
  refine ⟨_, (requestText_query hpath h hmethod hversion hlines body).parse_eq, hpathEq,
    fun key ↦ ?_⟩
  show find? (parsePath _ _).queryParams key = _
  rw [hparams, find?_foldl (find?_put_item Prod.fst Prod.snd) pairs _ key]
  show Option.or _ (find? (FiniteMap.empty : M) key) = _
  rw [find?_empty, Option.or_none, lastPair]

/-- A key that is given twice, once escaped, with values written with a plus and with escapes, among
empty segments. -/
theorem encodesSegments_search :
    EncodesSegments [(ascii "q", ascii "a b"), (ascii "q", ascii "&=")]
      [[], ascii "q=a+b", [], ascii "%71=%26%3d"] := by
  have hfirst : EncodesByte 113 (ascii "q") := .literal (by decide)
  have hsecond : EncodesByte 113 (ascii "%71") :=
    .escape (x := 7) (y := 1) (.inl rfl) (.inl rfl) rfl
  have hvalue : Encodes (ascii "a b") (ascii "a+b") :=
    .cons (.literal (by decide)) (.cons .plus (.cons (.literal (by decide)) .nil))
  have hvalue' : Encodes (ascii "&=") (ascii "%26%3d") :=
    .cons (.escape (x := 2) (y := 6) (.inl rfl) (.inl rfl) rfl)
      (.cons (.escape (x := 3) (y := 13) (.inl rfl) (.inl rfl) rfl) .nil)
  exact .empty (.pair (.cons hfirst .nil) hvalue
    (.empty (.pair (.cons hsecond .nil) hvalue' .nil)))

theorem parse_query_search :
    ∃ request : HttpRequest BytesMap,
      parse (ascii "GET /search?&q=a+b&&%71=%26%3d HTTP/1.1\r\n\r\n") = .ok request ∧
      request.path = ascii "/search" ∧ find? request.queryParams (ascii "q") = some (ascii "&=") ∧
      find? request.queryParams [] = none := by
  have hpath : ∀ c ∈ ascii "? \r\n", c ∉ ascii "/search" := by decide +kernel
  have hmethod : 32 ∉ ascii "GET" ∧ indexOf? crlf (ascii "GET") = none := by decide +kernel
  have hversion : indexOf? crlf (ascii "HTTP/1.1") = none := by decide +kernel
  have hlines : ∀ line ∈ ([] : List Bytes), indexOf? crlf line = none ∧ line ≠ [] ∧ 58 ∈ line :=
    fun _ hline ↦ absurd hline List.not_mem_nil
  obtain ⟨request, hparse, hpath, hparams⟩ :=
    parse_query (M := BytesMap) hpath encodesSegments_search hmethod hversion hlines []
  exact ⟨request, hparse, hpath, (hparams _).trans rfl, (hparams _).trans rfl⟩

end HttpParser

end FalconHTTP
