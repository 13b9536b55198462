import FalconHTTP.Foundation.Lines
import FalconHTTP.HTTP.Message

/-!
# The request parser

`HttpParser::parse` and the percent-decoder it applies to query strings. The parser walks over the
text one CR LF at a time: the request line, then header lines up to the first empty line, then the
rest as body. It throws when a line has no terminator, when the request line has fewer than two
spaces, and when a header line has no colon.

A loop that consumes its text takes the text's length as fuel. Every turn consumes at least one
byte, so the branch without fuel is only reached on the empty text, and there it answers what the
loop answers on the empty text.

`parse_encode` is the framing law: on a message head followed by a body, the parser reads the
head's first line as request line, its other lines as headers, and exactly the body as body.
-/

namespace FalconHTTP

open Occurrence Lines FiniteMap

/-- The head of a message: a first line and header lines, each ended by CR LF, then an empty
line. -/
abbrev MessageHead := Head (13 : UInt8) 10

/-- A line is clean exactly when it has no CR LF. -/
theorem clean_crlf_iff {line : Bytes} : Clean 13 10 line ↔ indexOf? crlf line = none :=
  clean_iff cr_ne_lf

/-- The blank line of a head ends it, whatever follows. -/
theorem indexOf?_blankLine_encode (head : MessageHead) (body : Bytes) :
    indexOf? blankLine (head.encode ++ body) = some (head.encode.length - 4) :=
  head.indexOf?_encode cr_ne_lf body

/-- The blank line of a head is found in a buffer exactly when the head is complete in it. -/
theorem indexOf?_blankLine_prefix {head : MessageHead} {body raw rest : Bytes}
    (h : raw ++ rest = head.encode ++ body) :
    (∃ body₁, raw = head.encode ++ body₁ ∧ body = body₁ ++ rest ∧
      indexOf? blankLine raw = some (head.encode.length - 4)) ∨
    (raw.length < head.encode.length ∧ indexOf? blankLine raw = none) :=
  head.indexOf?_prefix cr_ne_lf h

/-- A text with a blank line is a head followed by a body. -/
theorem exists_head_of_blankLine {raw : Bytes} {headerEnd : ℕ}
    (h : indexOf? blankLine raw = some headerEnd) :
    ∃ (head : MessageHead) (body : Bytes), raw = head.encode ++ body ∧
      head.encode.length = headerEnd + 4 :=
  exists_head_of_indexOf? cr_ne_lf h

/-! ### Percent-decoding -/

namespace UrlDecoder

/-- The value of a hex digit; `none` where the source returns `-1`. -/
def hexDigitToValue (c : UInt8) : Option UInt8 :=
  if 48 ≤ c.toNat ∧ c.toNat ≤ 57 then some (c - 48)
  else if 97 ≤ c.toNat ∧ c.toNat ≤ 102 then some (c - 97 + 10)
  else if 65 ≤ c.toNat ∧ c.toNat ≤ 70 then some (c - 65 + 10)
  else none

/-- Percent-decode form-encoded text. A `%` that is not followed by two hex digits is literal. -/
def decode : Bytes → Bytes
  | [] => []
  | c :: rest =>
    if c = 43 then 32 :: decode rest
    else if c = 37 then
      match rest with
      | high :: low :: rest' =>
        match hexDigitToValue high, hexDigitToValue low with
        | some h, some l => (h <<< 4 ||| l) :: decode rest'
        | _, _ => c :: decode (high :: low :: rest')
      | rest => c :: decode rest
    else c :: decode rest

example : decode (ascii "a%20b+c%2") = ascii "a b c%2" := by decide +kernel

end UrlDecoder

/-! ### The parser -/

namespace HttpParser

variable {M : Type} [FiniteMap M Bytes Bytes]

/-- The exception for a line without terminator. -/
def missingCrlf : Exn := .std (ascii "HttpParser: malformed request, missing CRLF")

/-- Extract the next terminated line, and the text after its terminator. -/
def extractLine (remaining : Bytes) : Except Exn (Bytes × Bytes) :=
  match indexOf? crlf remaining with
  | none => .error missingCrlf
  | some pos => .ok (remaining.take pos, remaining.drop (pos + 2))

/-- One `&`-separated piece of the query string. -/
def parsePair (pair : Bytes) (request : HttpRequest M) : HttpRequest M :=
  match indexOf? [61] pair with
  | some equals =>
    request.setQueryParam (UrlDecoder.decode (pair.take equals))
      (UrlDecoder.decode (pair.drop (equals + 1)))
  -- a bare key gets an empty value, an empty piece is skipped
  | none => if pair = [] then request else request.setQueryParam (UrlDecoder.decode pair) []

/-- The loop over the query string. -/
def parseQuery : ℕ → Bytes → HttpRequest M → HttpRequest M
  | 0, _, request => request
  | fuel + 1, query, request =>
    if query = [] then request
    else
      match indexOf? [38] query with
      | none => parsePair query request
      | some ampersand =>
        parseQuery fuel (query.drop (ampersand + 1)) (parsePair (query.take ampersand) request)

/-- Split a request target into path and query parameters. -/
def parsePath (rawPath : Bytes) (request : HttpRequest M) : HttpRequest M :=
  match indexOf? [63] rawPath with
  | none => { request with path := rawPath }
  | some queryStart =>
    let query := rawPath.drop (queryStart + 1)
    parseQuery query.length query { request with path := rawPath.take queryStart }

/-- Parse "METHOD path VERSION". -/
def parseRequestLine (line : Bytes) (request : HttpRequest M) : Except Exn (HttpRequest M) :=
  let firstSpace := indexOf? [32] line
  -- without a first space the source searches from `npos + 1`, which is the start
  let secondSpace := indexFrom? [32] line (succPos firstSpace)
  match firstSpace, secondSpace with
  | some firstSpace, some secondSpace =>
    let methodText := line.take firstSpace
    let rawPath := (line.drop (firstSpace + 1)).take (secondSpace - firstSpace - 1)
    let versionText := line.drop (secondSpace + 1)
    let request := parsePath rawPath { request with method := methodFromString methodText }
    .ok { request with version := versionText }
  | _, _ => .error (.std (ascii "HttpParser: malformed request line"))

/-- Parse "Name: value". -/
def parseHeaderLine (line : Bytes) (request : HttpRequest M) : Except Exn (HttpRequest M) :=
  match indexOf? [58] line with
  | none => .error (.std (ascii "HttpParser: malformed header line"))
  | some colon =>
    .ok (request.setHeader (line.take colon) (dropSpaces (line.drop (colon + 1))))

/-- The loop over the header lines, up to and including the empty one. -/
def parseHeaderLines : ℕ → Bytes → HttpRequest M → Except Exn (HttpRequest M × Bytes)
  | 0, _, _ => .error missingCrlf
  | fuel + 1, remaining, request => do
    let (line, remaining) ← extractLine remaining
    if line = [] then return (request, remaining)
    let request ← parseHeaderLine line request
    parseHeaderLines fuel remaining request

/-- Parse a complete request. -/
def parse (raw : Bytes) : Except Exn (HttpRequest M) := do
  let (line, remaining) ← extractLine raw
  let request ← parseRequestLine line .new
  let (request, remaining) ← parseHeaderLines remaining.length remaining request
  return { request with body := remaining }

/-! ### The framing law -/

/-- The header lines of a head, folded over a request. -/
def foldHeaderLines (lines : List Bytes) (request : HttpRequest M) : Except Exn (HttpRequest M) :=
  lines.foldlM (fun request line ↦ parseHeaderLine line request) request

/-- A head without its body. -/
def parseHead (head : MessageHead) : Except Exn (HttpRequest M) := do
  let request ← parseRequestLine head.first .new
  foldHeaderLines head.rest request

/-- A request line without further spaces is read as it was written. -/
theorem parseRequestLine_append {method path : Bytes} (hmethod : 32 ∉ method) (hpath : 32 ∉ path)
    (version : Bytes) (request : HttpRequest M) :
    parseRequestLine (method ++ 32 :: (path ++ 32 :: version)) request =
      .ok { parsePath path { request with method := methodFromString method } with
        version := version } := by
  have hfirst : indexOf? [32] (method ++ 32 :: (path ++ 32 :: version)) = some method.length :=
    indexOf?_singleton_append hmethod
  have hdrop : (method ++ 32 :: (path ++ 32 :: version)).drop (method.length + 1) =
      path ++ 32 :: version := by
    rw [← List.drop_drop, List.drop_left]
    rfl
  have hsecond : indexFrom? [32] (method ++ 32 :: (path ++ 32 :: version))
      (succPos (some method.length)) = some (path.length + (method.length + 1)) := by
    rw [indexFrom?, succPos, hdrop, indexOf?_singleton_append hpath, Option.map_some]
  have hlen : path.length + (method.length + 1) - method.length - 1 = path.length := by omega
  have hversion : (method ++ 32 :: (path ++ 32 :: version)).drop
      (path.length + (method.length + 1) + 1) = version := by
    rw [show path.length + (method.length + 1) + 1 = method.length + 1 + (path.length + 1) by omega,
      ← List.drop_drop, hdrop, ← List.drop_drop, List.drop_left]
    rfl
  rw [parseRequestLine, hfirst, hsecond]
  show Except.ok _ = _
  rw [hdrop, hlen, hversion, List.take_left, List.take_left]

theorem headers_parsePair (pair : Bytes) (request : HttpRequest M) :
    (parsePair pair request).headers = request.headers := by
  rw [parsePair]
  split
  · rfl
  · split <;> rfl

theorem headers_parseQuery (fuel : ℕ) (query : Bytes) (request : HttpRequest M) :
    (parseQuery fuel query request).headers = request.headers := by
  induction fuel generalizing query request with
  | zero => rfl
  | succ fuel ih =>
    rw [parseQuery]
    split
    · rfl
    · split
      · exact headers_parsePair query request
      · exact (ih _ _).trans (headers_parsePair _ request)

/-- A request line sets no headers. -/
theorem headers_parseRequestLine {line : Bytes} {request request' : HttpRequest M}
    (h : parseRequestLine line request = .ok request') : request'.headers = request.headers := by
  rw [parseRequestLine] at h
  split at h
  · obtain rfl := Except.ok.inj h
    show (parsePath _ _).headers = _
    rw [parsePath]
    split
    · rfl
    · exact headers_parseQuery _ _ _
  · exact absurd h (by simp)

/-- A target without a query is its path. -/
theorem parsePath_of_notMem {path : Bytes} (hpath : 63 ∉ path) (request : HttpRequest M) :
    parsePath path request = { request with path := path } := by
  rw [parsePath, indexOf?_singleton_eq_none hpath]

/-- The line before a terminator is extracted, with the text after it. -/
theorem extractLine_append {line : Bytes} (hline : Clean 13 10 line) (rest : Bytes) :
    extractLine (line ++ (13 :: 10 :: rest)) = .ok (line, rest) := by
  rw [extractLine, crlf, hline.indexOf?_append]
  simp only [List.take_left, ← List.drop_drop, List.drop_left, List.drop_succ_cons, List.drop_zero]

/-- The header loop folds over the lines up to the empty one and leaves the text after it. -/
theorem parseHeaderLines_joinLines (lines : List Bytes) (hclean : ∀ l ∈ lines, Clean 13 10 l)
    (hne : ∀ l ∈ lines, l ≠ []) (body : Bytes) (fuel : ℕ) (hfuel : lines.length < fuel)
    (request : HttpRequest M) :
    parseHeaderLines fuel (joinLines 13 10 lines ++ (13 :: 10 :: body)) request =
      (foldHeaderLines lines request).map fun request ↦ (request, body) := by
  induction lines generalizing fuel request with
  | nil =>
    obtain ⟨fuel, rfl⟩ := Nat.exists_eq_succ_of_ne_zero (Nat.ne_of_gt hfuel)
    have hempty : extractLine (13 :: 10 :: body) = .ok ([], body) :=
      extractLine_append (clean_of_notMem List.not_mem_nil) body
    rw [parseHeaderLines, joinLines, List.nil_append, hempty]
    rfl
  | cons line lines ih =>
    obtain ⟨fuel, rfl⟩ := Nat.exists_eq_succ_of_ne_zero (Nat.ne_of_gt (Nat.zero_lt_of_lt hfuel))
    have hline := extractLine_append (hclean line List.mem_cons_self)
      (joinLines 13 10 lines ++ (13 :: 10 :: body))
    have hrest := ih (fun l hl ↦ hclean l (List.mem_cons_of_mem _ hl))
      (fun l hl ↦ hne l (List.mem_cons_of_mem _ hl)) fuel (Nat.lt_of_succ_lt_succ hfuel)
    rw [parseHeaderLines, joinLines, List.append_assoc, List.cons_append, List.cons_append, hline,
      foldHeaderLines, List.foldlM_cons]
    show (if line = [] then _ else _) = _
    rw [if_neg (hne line List.mem_cons_self)]
    rcases parseHeaderLine line request with e | request
    · rfl
    · exact hrest request

omit [FiniteMap M Bytes Bytes] in
/-- There are at most as many lines as bytes. -/
private theorem length_le_length_joinLines (lines : List Bytes) :
    lines.length ≤ (joinLines (13 : UInt8) 10 lines).length := by
  induction lines with
  | nil => exact Nat.le_refl _
  | cons line lines ih =>
    simp only [joinLines, List.length_cons, List.length_append]
    omega

/-- **The framing law**: on a head followed by a body, the parser parses the head and takes exactly
the body as body. -/
theorem parse_encode (head : MessageHead) (body : Bytes) :
    parse (head.encode ++ body) =
      (parseHead head : Except Exn (HttpRequest M)).map fun request ↦ { request with body } := by
  have hline := extractLine_append head.first_clean
    (joinLines 13 10 head.rest ++ (13 :: 10 :: body))
  have hraw : head.encode ++ body =
      head.first ++ (13 :: 10 :: (joinLines 13 10 head.rest ++ (13 :: 10 :: body))) := by
    simp [Head.encode]
  rw [parse, hraw, hline, parseHead]
  show (parseRequestLine head.first .new >>= fun request ↦ _) = _
  rcases parseRequestLine head.first (M := M) .new with e | request
  · rfl
  · have hfuel : head.rest.length < (joinLines 13 10 head.rest ++ (13 :: 10 :: body)).length := by
      have := length_le_length_joinLines head.rest
      simp only [List.length_append, List.length_cons]
      omega
    show (parseHeaderLines _ _ request >>= fun p ↦ _) = _
    rw [parseHeaderLines_joinLines head.rest head.rest_clean head.rest_ne_nil body _ hfuel]
    show _ = (foldHeaderLines head.rest request).map _
    rcases foldHeaderLines head.rest request with e | request <;> rfl

end HttpParser

end FalconHTTP
