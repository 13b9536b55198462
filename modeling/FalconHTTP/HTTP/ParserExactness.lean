import FalconHTTP.HTTP.Parser

/-!
# What the parser accepts, and what it makes of it

`parse_encode` says what the parser makes of a message head with a body. Here is the converse: a
text that the parser accepts is a request line with two spaces, header lines with a colon, the empty
line and a body (`RequestText`), and everything else is refused with one of the parser's own three
exceptions. `parse_exact` puts both directions together with what every field of the request is.

Every offset that the source passes to `substr` or `remove_prefix` is that of a found occurrence, or
one past it, and lies within the text, so none of these calls throws.

The header loop of the model takes fuel; `parseHeaderLines_fuel` says that the fuel `parse` gives it
is enough for the loop of the source.
-/

namespace FalconHTTP

namespace HttpParser

open Occurrence Lines FiniteMap

variable {M : Type} [FiniteMap M Bytes Bytes]

/-! ### Exceptions -/

/-- The exception for a request line without two spaces. -/
def malformedRequestLine : Exn := .std (ascii "HttpParser: malformed request line")

/-- The exception for a header line without a colon. -/
def malformedHeaderLine : Exn := .std (ascii "HttpParser: malformed header line")

/-- The exceptions the parser throws, each a `std::runtime_error`. -/
def thrown : List Exn := [missingCrlf, malformedRequestLine, malformedHeaderLine]

theorem extractLine_error {remaining : Bytes} {e : Exn} (h : extractLine remaining = .error e) :
    e ∈ thrown := by
  rw [extractLine] at h
  split at h
  · obtain rfl := Except.error.inj h
    exact List.mem_cons_self
  · exact absurd h (by simp)

theorem parseRequestLine_error {line : Bytes} {request : HttpRequest M} {e : Exn}
    (h : parseRequestLine line request = .error e) : e ∈ thrown := by
  rw [parseRequestLine] at h
  split at h
  · exact absurd h (by simp)
  · obtain rfl := Except.error.inj h
    exact List.mem_cons_of_mem _ List.mem_cons_self

theorem parseHeaderLine_error {line : Bytes} {request : HttpRequest M} {e : Exn}
    (h : parseHeaderLine line request = .error e) : e ∈ thrown := by
  rw [parseHeaderLine] at h
  split at h
  · obtain rfl := Except.error.inj h
    exact List.mem_cons_of_mem _ (List.mem_cons_of_mem _ List.mem_cons_self)
  · exact absurd h (by simp)

/-- A sequence of two computations that fails, fails in one of them. -/
theorem bind_eq_error {α β : Type} {x : Except Exn α} {f : α → Except Exn β} {e : Exn}
    (h : (x >>= f) = .error e) : x = .error e ∨ ∃ a, x = .ok a ∧ f a = .error e := by
  cases x with
  | error e' => exact Or.inl (congrArg Except.error (Except.error.inj h))
  | ok a => exact Or.inr ⟨a, rfl, h⟩

/-- A sequence of two computations that succeeds, succeeds in both. -/
theorem bind_eq_ok {α β : Type} {x : Except Exn α} {f : α → Except Exn β} {b : β}
    (h : (x >>= f) = .ok b) : ∃ a, x = .ok a ∧ f a = .ok b := by
  cases x with
  | error e => cases h
  | ok a => exact ⟨a, rfl, h⟩

theorem parseHeaderLines_error {fuel : ℕ} {remaining : Bytes} {request : HttpRequest M} {e : Exn}
    (h : parseHeaderLines fuel remaining request = .error e) : e ∈ thrown := by
  induction fuel generalizing remaining request with
  | zero =>
    obtain rfl := Except.error.inj h
    exact List.mem_cons_self
  | succ fuel ih =>
    rw [parseHeaderLines] at h
    rcases bind_eq_error h with hline | ⟨⟨line, rest⟩, -, h⟩
    · exact extractLine_error hline
    simp only at h
    split at h
    · cases h
    rcases bind_eq_error h with hheader | ⟨request', -, h⟩
    · exact parseHeaderLine_error hheader
    · exact ih h

/-- **The parser throws its own exceptions only.** -/
theorem parse_error {raw : Bytes} {e : Exn} (h : parse (M := M) raw = .error e) : e ∈ thrown := by
  rw [parse] at h
  rcases bind_eq_error h with hline | ⟨⟨line, remaining⟩, -, h⟩
  · exact extractLine_error hline
  rcases bind_eq_error h with hfirst | ⟨request, -, h⟩
  · exact parseRequestLine_error hfirst
  rcases bind_eq_error h with hheaders | ⟨p, -, h⟩
  · exact parseHeaderLines_error hheaders
  · cases h

/-! ### Termination -/

/-- An extracted line and its terminator have been consumed. -/
theorem extractLine_ok {remaining line rest : Bytes}
    (h : extractLine remaining = .ok (line, rest)) :
    remaining = line ++ (13 :: 10 :: rest) ∧ Clean 13 10 line := by
  rw [extractLine] at h
  split at h
  · cases h
  · rename_i pos hpos
    obtain ⟨rfl, rfl⟩ := Prod.mk.inj (Except.ok.inj h)
    exact ⟨eq_append_of_indexOf? hpos, clean_take hpos⟩

/-- Two runs of the header loop with fuel for every byte that is left are the same. -/
private theorem parseHeaderLines_eq {fuel fuel' : ℕ} {remaining : Bytes}
    (hfuel : remaining.length ≤ fuel) (hfuel' : remaining.length ≤ fuel')
    (request : HttpRequest M) :
    parseHeaderLines fuel remaining request = parseHeaderLines fuel' remaining request := by
  have hempty : ∀ n, parseHeaderLines n [] request = .error missingCrlf := by
    rintro (- | n) <;> rfl
  induction fuel generalizing fuel' remaining request with
  | zero =>
    obtain rfl := List.length_eq_zero_iff.1 (Nat.le_zero.1 hfuel)
    rw [hempty, hempty]
  | succ fuel ih =>
    rcases fuel' with - | fuel'
    · obtain rfl := List.length_eq_zero_iff.1 (Nat.le_zero.1 hfuel')
      rw [hempty, hempty]
    rw [parseHeaderLines, parseHeaderLines]
    rcases hextract : extractLine remaining with e | ⟨line, rest⟩
    · rfl
    have hlen := congrArg List.length (extractLine_ok hextract).1
    simp only [List.length_append, List.length_cons] at hlen
    show (if line = [] then _ else _) = (if line = [] then _ else _)
    split
    · rfl
    rcases parseHeaderLine line request with e | request'
    · rfl
    · exact ih (by omega) (by omega) request' (by rintro (- | n) <;> rfl)

/-- **The header loop ends**: with fuel for every byte that is left, more fuel changes nothing. -/
theorem parseHeaderLines_fuel {fuel : ℕ} {remaining : Bytes} (hfuel : remaining.length ≤ fuel)
    (request : HttpRequest M) :
    parseHeaderLines fuel remaining request =
      parseHeaderLines remaining.length remaining request :=
  parseHeaderLines_eq hfuel (Nat.le_refl _) request

/-! ### Header lines -/

/-- A text without a symbol is before the first place of that symbol. -/
theorem takeWhile_bne_append {c : UInt8} {text : Bytes} (h : c ∉ text) (rest : Bytes) :
    (text ++ rest).takeWhile (· != c) = text ++ rest.takeWhile (· != c) :=
  List.takeWhile_append_of_pos fun d hd ↦ by simpa using ne_of_mem_of_not_mem hd h

/-- The name and the value of a header line: the text before its first colon, and the text after it
without leading spaces. -/
def headerEntry (line : Bytes) : Bytes × Bytes :=
  (line.takeWhile (· != 58), dropSpaces ((line.dropWhile (· != 58)).drop 1))

/-- The value of the last of some lines with a name, in any case. -/
def lastLineValue (name : Bytes) (lines : List Bytes) : Option Bytes :=
  (lines.reverse.find? fun line ↦ toLowerAscii name = toLowerAscii (headerEntry line).1).map
    fun line ↦ (headerEntry line).2

/-- A line with a colon is stored. -/
theorem parseHeaderLine_of_mem {line : Bytes} (hcolon : 58 ∈ line) (request : HttpRequest M) :
    parseHeaderLine line request =
      .ok (request.setHeader (headerEntry line).1 (headerEntry line).2) := by
  obtain ⟨name, value, rfl, hname⟩ := List.eq_append_cons_of_mem hcolon
  have hne : ∀ c ∈ name, (c != 58) = true := fun c hc ↦ by
    simpa using ne_of_mem_of_not_mem hc hname
  have hentry : headerEntry (name ++ 58 :: value) = (name, dropSpaces value) := by
    rw [headerEntry, takeWhile_bne_append hname, List.dropWhile_append_of_pos hne]
    simp
  rw [parseHeaderLine, indexOf?_singleton_append hname, hentry]
  simp only [List.take_left, ← List.drop_drop, List.drop_left, List.drop_succ_cons, List.drop_zero]

theorem mem_of_parseHeaderLine {line : Bytes} {request request' : HttpRequest M}
    (h : parseHeaderLine line request = .ok request') : 58 ∈ line := by
  rw [parseHeaderLine] at h
  split at h
  · cases h
  · rename_i colon hcolon
    rw [eq_append_of_indexOf? hcolon]
    simp

/-- The headers of some lines, folded over a request. -/
theorem foldHeaderLines_of_mem {lines : List Bytes} (hcolon : ∀ line ∈ lines, 58 ∈ line)
    (request : HttpRequest M) :
    foldHeaderLines lines request =
      .ok { request with headers := request.headers.setHeaders (lines.map headerEntry) } := by
  induction lines generalizing request with
  | nil => rfl
  | cons line lines ih =>
    rw [foldHeaderLines, List.foldlM_cons, parseHeaderLine_of_mem (hcolon line List.mem_cons_self)]
    exact ih (fun l hl ↦ hcolon l (List.mem_cons_of_mem _ hl)) _

/-- **The last line with a name wins.** -/
theorem find?_setHeaders_map (lines : List Bytes) (name : Bytes) :
    ((HeaderMap.empty : HeaderMap M).setHeaders (lines.map headerEntry)).find? name =
      lastLineValue name lines := by
  have hput : ∀ (m : M) (line j : Bytes),
      find? (put m (toLowerAscii (headerEntry line).1) (headerEntry line).2) j =
        if j = toLowerAscii (headerEntry line).1 then some (headerEntry line).2 else find? m j :=
    fun m _ j ↦ find?_put m _ _ j
  rw [HeaderMap.find?, HeaderMap.map_setHeaders, List.foldl_map, FiniteMap.find?_foldl hput]
  show (Option.or _ (FiniteMap.find? FiniteMap.empty (toLowerAscii name))) = _
  rw [FiniteMap.find?_empty, Option.or_none]
  rfl

/-- A successful header loop has consumed lines with a colon and the empty line. -/
theorem parseHeaderLines_ok {fuel : ℕ} {remaining body : Bytes} {request request' : HttpRequest M}
    (h : parseHeaderLines fuel remaining request = .ok (request', body)) :
    ∃ lines, remaining = joinLines 13 10 lines ++ (13 :: 10 :: body) ∧
      ∀ line ∈ lines, Clean 13 10 line ∧ line ≠ [] ∧ 58 ∈ line := by
  induction fuel generalizing remaining request with
  | zero => cases h
  | succ fuel ih =>
    rw [parseHeaderLines] at h
    obtain ⟨⟨line, rest⟩, hextract, hloop⟩ := bind_eq_ok h
    obtain ⟨rfl, hclean⟩ := extractLine_ok hextract
    simp only at hloop
    split at hloop
    · rename_i hempty
      obtain ⟨-, rfl⟩ := Prod.mk.inj (Except.ok.inj hloop)
      exact ⟨[], by rw [hempty]; rfl, by simp⟩
    · rename_i hne
      obtain ⟨request'', hheader, hrest⟩ := bind_eq_ok hloop
      obtain ⟨lines, rfl, hlines⟩ := ih hrest
      refine ⟨line :: lines, by simp [joinLines], List.forall_mem_cons.2 ⟨?_, hlines⟩⟩
      exact ⟨hclean, hne, mem_of_parseHeaderLine hheader⟩

/-! ### Exactness -/

/-- A text is a request: a first line that its first two spaces cut into method, target and version,
header lines with a colon, the empty line, and the body. -/
structure RequestText (raw method target version : Bytes) (lines : List Bytes) (body : Bytes) :
    Prop where
  /-- The text is these parts, each line ended by CR LF. -/
  raw_eq : raw = method ++ 32 :: (target ++ 32 :: version) ++ crlf ++ joinLines 13 10 lines ++
    crlf ++ body
  /-- The method ends at the first space. -/
  space_notMem_method : 32 ∉ method
  /-- The target ends at the second space. -/
  space_notMem_target : 32 ∉ target
  /-- The first line ends at its CR LF. -/
  first_clean : indexOf? crlf (method ++ 32 :: (target ++ 32 :: version)) = none
  /-- A header line ends at its CR LF, is not empty and has a colon. -/
  lines_spec : ∀ line ∈ lines, indexOf? crlf line = none ∧ line ≠ [] ∧ 58 ∈ line

namespace RequestText

variable {raw method target version body : Bytes} {lines : List Bytes}

/-- The head of a request. -/
def head (h : RequestText raw method target version lines body) : MessageHead where
  first := method ++ 32 :: (target ++ 32 :: version)
  rest := lines
  first_clean := clean_crlf_iff.2 h.first_clean
  rest_clean line hline := clean_crlf_iff.2 (h.lines_spec line hline).1
  rest_ne_nil line hline := (h.lines_spec line hline).2.1

theorem raw_eq_encode (h : RequestText raw method target version lines body) :
    raw = h.head.encode ++ body :=
  h.raw_eq.trans (by simp [head, Head.encode, crlf])

/-- The body starts after the first blank line. -/
theorem drop_headerEnd (h : RequestText raw method target version lines body) :
    ∃ headerEnd, indexOf? blankLine raw = some headerEnd ∧ raw.drop (headerEnd + 4) = body := by
  obtain ⟨head, rfl⟩ : ∃ head : MessageHead, raw = head.encode ++ body := ⟨_, h.raw_eq_encode⟩
  refine ⟨_, indexOf?_blankLine_encode head body, ?_⟩
  rw [Nat.sub_add_cancel head.four_le_length_encode, List.drop_left]

/-- The request that a text is parsed to. -/
def request (M : Type) [FiniteMap M Bytes Bytes] (method target version : Bytes)
    (lines : List Bytes) (body : Bytes) : HttpRequest M :=
  { parsePath target { (HttpRequest.new : HttpRequest M) with
      method := methodFromString method } with
    version
    headers := HeaderMap.empty.setHeaders (lines.map headerEntry)
    body }

/-- **A request is parsed** to its parts. -/
theorem parse_eq (h : RequestText raw method target version lines body) :
    parse raw = .ok (request M method target version lines body) := by
  have hline := parseRequestLine_append h.space_notMem_method h.space_notMem_target version
    (HttpRequest.new : HttpRequest M)
  have hheaders := headers_parseRequestLine hline
  rw [h.raw_eq_encode, parse_encode, parseHead]
  show ((parseRequestLine (method ++ 32 :: (target ++ 32 :: version)) .new >>= fun request ↦
    foldHeaderLines lines request).map _) = _
  rw [hline]
  show (foldHeaderLines lines _).map _ = _
  rw [foldHeaderLines_of_mem fun line hl ↦ (h.lines_spec line hl).2.2, hheaders]
  rfl

end RequestText

/-- A request line that is accepted has two spaces. -/
theorem parseRequestLine_ok {line : Bytes} {request request' : HttpRequest M}
    (h : parseRequestLine line request = .ok request') :
    ∃ method target version, line = method ++ 32 :: (target ++ 32 :: version) ∧ 32 ∉ method ∧
      32 ∉ target := by
  rw [parseRequestLine] at h
  rcases hfirst : indexOf? [32] line with - | firstSpace
  · simp [hfirst] at h
  rcases hsecond : indexOf? [32] (line.drop (firstSpace + 1)) with - | secondSpace
  · simp [hfirst, indexFrom?, succPos, hsecond] at h
  refine ⟨line.take firstSpace, (line.drop (firstSpace + 1)).take secondSpace,
    (line.drop (firstSpace + 1)).drop (secondSpace + 1), ?_, notMem_take_of_indexOf? hfirst,
    notMem_take_of_indexOf? hsecond⟩
  have htarget := eq_append_of_indexOf? hsecond
  have hline := eq_append_of_indexOf? hfirst
  simp only [List.length_singleton, List.singleton_append] at htarget hline
  rw [← htarget, ← hline]

/-- **What is accepted is a request.** -/
theorem exists_requestText {raw : Bytes} {request : HttpRequest M} (h : parse raw = .ok request) :
    ∃ method target version lines body, RequestText raw method target version lines body := by
  rw [parse] at h
  obtain ⟨⟨line, remaining⟩, hextract, hrest⟩ := bind_eq_ok h
  obtain ⟨request', hfirst, hrest⟩ := bind_eq_ok hrest
  obtain ⟨⟨request'', body⟩, hheaders, -⟩ := bind_eq_ok hrest
  obtain ⟨rfl, hclean⟩ := extractLine_ok hextract
  obtain ⟨method, target, version, rfl, hmethod, htarget⟩ := parseRequestLine_ok hfirst
  obtain ⟨lines, rfl, hlines⟩ := parseHeaderLines_ok hheaders
  refine ⟨method, target, version, lines, body, by simp [crlf], hmethod, htarget,
    clean_crlf_iff.1 hclean, fun line hl ↦ ?_⟩
  obtain ⟨hclean, hne, hcolon⟩ := hlines line hl
  exact ⟨clean_crlf_iff.1 hclean, hne, hcolon⟩

/-! ### The target -/

/-- One piece of a query string changes the query parameters only. -/
theorem parsePair_frame (pair : Bytes) (request : HttpRequest M) :
    { parsePair pair request with queryParams := request.queryParams } = request := by
  rw [parsePair]
  split
  · rfl
  · split <;> rfl

/-- A query string changes the query parameters only. -/
theorem parseQuery_frame (fuel : ℕ) (query : Bytes) (request : HttpRequest M) :
    { parseQuery fuel query request with queryParams := request.queryParams } = request := by
  induction fuel generalizing query request with
  | zero => rfl
  | succ fuel ih =>
    rw [parseQuery]
    split
    · rfl
    split
    · exact parsePair_frame query request
    · rename_i ampersand _
      have hrest := congrArg (fun r : HttpRequest M ↦ { r with queryParams := request.queryParams })
        (ih (query.drop (ampersand + 1)) (parsePair (query.take ampersand) request))
      exact hrest.trans (parsePair_frame _ request)

/-- The query parameters after one piece depend on those before it only. -/
theorem queryParams_parsePair (pair : Bytes) {request request' : HttpRequest M}
    (h : request.queryParams = request'.queryParams) :
    (parsePair pair request).queryParams = (parsePair pair request').queryParams := by
  rw [parsePair, parsePair]
  split
  · simp only [HttpRequest.setQueryParam, h]
  · split
    · exact h
    · simp only [HttpRequest.setQueryParam, h]

theorem queryParams_parseQuery (fuel : ℕ) (query : Bytes) {request request' : HttpRequest M}
    (h : request.queryParams = request'.queryParams) :
    (parseQuery fuel query request).queryParams = (parseQuery fuel query request').queryParams := by
  induction fuel generalizing query request request' with
  | zero => exact h
  | succ fuel ih =>
    rw [parseQuery, parseQuery]
    split
    · exact h
    split
    · exact queryParams_parsePair query h
    · exact ih _ (queryParams_parsePair _ h)

/-- **The target** sets the path to the text before its first question mark, and the query
parameters. -/
theorem parsePath_spec (target : Bytes) (request : HttpRequest M) :
    (parsePath target request).method = request.method ∧
      (parsePath target request).path = target.takeWhile (· != 63) ∧
      ∀ request' : HttpRequest M, request.queryParams = request'.queryParams →
        (parsePath target request).queryParams = (parsePath target request').queryParams := by
  rcases hquery : indexOf? [63] target with - | queryStart
  · have hpath : target.takeWhile (· != 63) = target := by
      have htake := takeWhile_bne_append (notMem_of_indexOf?_eq_none hquery) []
      simpa using htake
    simp only [parsePath, hquery, hpath]
    exact ⟨trivial, trivial, fun _ h ↦ h⟩
  · have hframe := parseQuery_frame (target.drop (queryStart + 1)).length
      (target.drop (queryStart + 1)) { request with path := target.take queryStart }
    have hmethod := congrArg HttpRequest.method hframe
    have htarget := congrArg HttpRequest.path hframe
    have hpath : target.takeWhile (· != 63) = target.take queryStart := by
      conv_lhs => rw [eq_append_of_indexOf? hquery,
        takeWhile_bne_append (notMem_take_of_indexOf? hquery)]
      simp
    simp only [parsePath, hquery, hpath]
    exact ⟨hmethod, htarget, fun _ h ↦ queryParams_parseQuery _ _ h⟩

/-- **The parser is exact.** Its header loop ends. It throws its own exceptions only, and it accepts
exactly the texts that are requests. Of such a text the request has the method the token before the
first space names; the path and the query parameters of the target; the version after the second
space; for each name in any case, the value of the last header line with it; and the bytes from the
offset the server calls `bodyStart` as body. -/
theorem parse_exact (raw : Bytes) :
    (∀ line remaining, extractLine raw = .ok (line, remaining) →
      ∀ fuel, remaining.length ≤ fuel → ∀ request : HttpRequest M,
        parseHeaderLines fuel remaining request =
          parseHeaderLines remaining.length remaining request) ∧
    (∀ e, parse (M := M) raw = .error e → e ∈ thrown) ∧
    ((∃ request : HttpRequest M, parse raw = .ok request) ↔
      ∃ method target version lines body, RequestText raw method target version lines body) ∧
    ∀ (method target version : Bytes) (lines : List Bytes) (body : Bytes) (request : HttpRequest M),
      RequestText raw method target version lines body → parse raw = .ok request →
      request.method = methodFromString method ∧
      request.path = target.takeWhile (· != 63) ∧
      request.queryParams = (parsePath target (.new : HttpRequest M)).queryParams ∧
      request.version = version ∧
      (∀ name, request.hasHeader name = (lastLineValue name lines).isSome ∧
        request.header name = (lastLineValue name lines).getD []) ∧
      request.body = body ∧
      ∃ headerEnd, indexOf? blankLine raw = some headerEnd ∧
        request.body = raw.drop (headerEnd + 4) := by
  refine ⟨fun line remaining _ fuel hfuel request ↦ parseHeaderLines_fuel hfuel request,
    fun e ↦ parse_error, ⟨fun ⟨request, h⟩ ↦ exists_requestText h, ?_⟩, ?_⟩
  · rintro ⟨method, target, version, lines, body, htext⟩
    exact ⟨_, htext.parse_eq⟩
  · intro method target version lines body request htext h
    obtain rfl := Except.ok.inj (htext.parse_eq.symm.trans h)
    obtain ⟨hmethod, hpath, hparams⟩ := parsePath_spec target
      { (HttpRequest.new : HttpRequest M) with method := methodFromString method }
    have hvalue := find?_setHeaders_map (M := M) lines
    refine ⟨hmethod, hpath, hparams .new rfl, rfl, fun name ↦ ⟨?_, ?_⟩, rfl, ?_⟩
    · exact congrArg Option.isSome (hvalue name)
    · exact congrArg (·.getD []) (hvalue name)
    · obtain ⟨headerEnd, hfind, hdrop⟩ := htext.drop_headerEnd
      exact ⟨headerEnd, hfind, hdrop.symm⟩

end HttpParser

end FalconHTTP
