import FalconHTTP.Foundation.Decimal
import FalconHTTP.Foundation.FiniteMap

/-!
# HTTP messages

The data model of `FalconHTTP::HTTP`: methods, statuses, requests and responses. A `std::string` is
the list of its bytes (`Bytes`), and `size_t` has 64 bits.

Header maps keep their representation invariant in the type: `HeaderMap` stores lowercase names
only. `setHeader`, `hasHeader` and `header` are the same code in `HttpRequest` and `HttpResponse`,
so they are stated once for `HeaderMap` and each class applies them to its own map.

`HashMap` is a library the repository depends on, so the map type `M` is a parameter that satisfies
`FiniteMap`; nothing is assumed about the order in which it iterates.
-/

namespace FalconHTTP

/-- The bytes of a `std::string`. -/
abbrev Bytes := List UInt8

/-- The bytes of an ASCII literal. -/
def ascii (s : String) : Bytes :=
  s.toList.map fun c ↦ UInt8.ofNat c.toNat

/-- The line terminator CR LF. -/
def crlf : Bytes := [13, 10]

/-- The terminator of a header block, CR LF CR LF. -/
def blankLine : Bytes := [13, 10, 13, 10]

/-- The number of values of `size_t`. -/
def sizeRange : ℕ := UInt64.size

/-- `std::string::npos + 1` in `size_t` arithmetic: it wraps to `0`. -/
def succPos : Option ℕ → ℕ
  | some pos => pos + 1
  | none => 0

/-- `std::tolower` of one byte in the "C" locale. -/
def toLower (c : UInt8) : UInt8 :=
  if 65 ≤ c.toNat ∧ c.toNat ≤ 90 then c + 32 else c

/-- Lowercase every byte (`toLowerAscii`, and `lowercase` in the client). -/
def toLowerAscii (text : Bytes) : Bytes :=
  text.map toLower

@[simp] theorem toLower_toLower (c : UInt8) : toLower (toLower c) = toLower c := by
  by_cases h : 65 ≤ c.toNat ∧ c.toNat ≤ 90
  · have hc : (c + 32).toNat = c.toNat + 32 := by
      rw [UInt8.toNat_add]
      exact Nat.mod_eq_of_lt (show c.toNat + 32 < 256 by omega)
    rw [toLower, toLower, if_pos h, if_neg (by omega)]
  · rw [toLower, toLower, if_neg h, if_neg h]

@[simp] theorem toLowerAscii_toLowerAscii (text : Bytes) :
    toLowerAscii (toLowerAscii text) = toLowerAscii text := by
  rw [toLowerAscii, toLowerAscii, List.map_map]
  exact List.map_congr_left fun c _ ↦ toLower_toLower c

/-- A byte below the lowercase letters comes from itself only. -/
theorem notMem_toLowerAscii {c : UInt8} (hc : c.toNat < 97) {text : Bytes} (h : c ∉ text) :
    c ∉ toLowerAscii text := by
  intro hmem
  obtain ⟨d, hd, hlower⟩ := List.mem_map.1 hmem
  rw [toLower] at hlower
  split at hlower
  · rename_i hupper
    have hsum : (d + 32).toNat = d.toNat + 32 := by
      rw [UInt8.toNat_add]
      exact Nat.mod_eq_of_lt (show d.toNat + 32 < 256 by omega)
    rw [← hlower, hsum] at hc
    omega
  · exact h (hlower ▸ hd)

theorem cr_ne_lf : (13 : UInt8) ≠ 10 := by
  decide

theorem cr_notMem_version : (13 : UInt8) ∉ ascii "HTTP/1.1" := by
  decide +kernel

/-- Drop leading spaces: `while (!value.empty() && value.front() == ' ') value.remove_prefix(1)`. -/
def dropSpaces (value : Bytes) : Bytes :=
  value.dropWhile (· == 32)

/-! ### Exceptions -/

/-- What a handler or the parser can throw: a `std::exception` with its message, or any other
value. -/
inductive Exn
  /-- A `std::exception`. -/
  | std (what : Bytes)
  /-- Any other thrown value. -/
  | other
  deriving DecidableEq

/-- Whether `catch (const std::exception&)` catches the exception. -/
def Exn.isStd : Exn → Bool
  | std _ => true
  | other => false

/-! ### Methods -/

/-- The request methods. -/
inductive HttpMethod
  | get | post | put | delete | patch | head | options | unknown
  deriving DecidableEq

/-- The method a token names; matching is exact-case. -/
def methodFromString (text : Bytes) : HttpMethod :=
  if text = ascii "GET" then .get
  else if text = ascii "POST" then .post
  else if text = ascii "PUT" then .put
  else if text = ascii "DELETE" then .delete
  else if text = ascii "PATCH" then .patch
  else if text = ascii "HEAD" then .head
  else if text = ascii "OPTIONS" then .options
  else .unknown

/-- The token of a method. -/
def methodToString : HttpMethod → Bytes
  | .get => ascii "GET"
  | .post => ascii "POST"
  | .put => ascii "PUT"
  | .delete => ascii "DELETE"
  | .patch => ascii "PATCH"
  | .head => ascii "HEAD"
  | .options => ascii "OPTIONS"
  | .unknown => ascii "UNKNOWN"

/-- A token consists of capital letters. -/
theorem notMem_methodToString {c : UInt8} (hc : c.toNat < 65) (method : HttpMethod) :
    c ∉ methodToString method := by
  have hletters : ∀ d ∈ methodToString method, 65 ≤ d.toNat := by
    cases method <;> decide +kernel
  exact fun hmem ↦ absurd (hletters c hmem) (Nat.not_le.2 hc)

/-- The token of a method names it. -/
theorem methodFromString_methodToString (m : HttpMethod) :
    methodFromString (methodToString m) = m := by
  cases m <;> rfl

/-! ### Statuses -/

/-- The response statuses. -/
inductive HttpStatus
  | ok | created | noContent | found | temporaryRedirect | permanentRedirect | badRequest
  | unauthorized | forbidden | notFound | methodNotAllowed | payloadTooLarge
  | requestHeaderFieldsTooLarge | tooManyRequests | internalServerError | notImplemented
  | serviceUnavailable
  deriving DecidableEq

/-- The numeric status code. -/
def HttpStatus.code : HttpStatus → ℕ
  | ok => 200
  | created => 201
  | noContent => 204
  | found => 302
  | temporaryRedirect => 307
  | permanentRedirect => 308
  | badRequest => 400
  | unauthorized => 401
  | forbidden => 403
  | notFound => 404
  | methodNotAllowed => 405
  | payloadTooLarge => 413
  | requestHeaderFieldsTooLarge => 431
  | tooManyRequests => 429
  | internalServerError => 500
  | notImplemented => 501
  | serviceUnavailable => 503

/-- The reason phrase of a status. -/
def statusReasonPhrase : HttpStatus → Bytes
  | .ok => ascii "OK"
  | .created => ascii "Created"
  | .noContent => ascii "No Content"
  | .found => ascii "Found"
  | .temporaryRedirect => ascii "Temporary Redirect"
  | .permanentRedirect => ascii "Permanent Redirect"
  | .badRequest => ascii "Bad Request"
  | .unauthorized => ascii "Unauthorized"
  | .forbidden => ascii "Forbidden"
  | .notFound => ascii "Not Found"
  | .methodNotAllowed => ascii "Method Not Allowed"
  | .payloadTooLarge => ascii "Payload Too Large"
  | .requestHeaderFieldsTooLarge => ascii "Request Header Fields Too Large"
  | .tooManyRequests => ascii "Too Many Requests"
  | .internalServerError => ascii "Internal Server Error"
  | .notImplemented => ascii "Not Implemented"
  | .serviceUnavailable => ascii "Service Unavailable"

/-! ### Header maps -/

open FiniteMap

/-- A concrete map, for runs on concrete input. -/
abbrev BytesMap := AList fun _ : Bytes ↦ Bytes

/-- A header map: every stored name is its own lowercase form. -/
structure HeaderMap (M : Type) [FiniteMap M Bytes Bytes] where
  /-- The stored map. -/
  map : M
  /-- Stored names are lowercase. -/
  lower : ∀ {k v}, find? map k = some v → toLowerAscii k = k

namespace HeaderMap

variable {M : Type} [FiniteMap M Bytes Bytes]

/-- The header map without headers. -/
def empty : HeaderMap M where
  map := FiniteMap.empty
  lower h := absurd h (by rw [find?_empty]; simp)

/-- Store a value under a name, in lowercase: `update`, and `insert` when there was none. -/
def setHeader (headers : HeaderMap M) (name value : Bytes) : HeaderMap M where
  map := put headers.map (toLowerAscii name) value
  lower {k v} h := by
    rw [find?_put] at h
    split at h
    · rename_i hk
      rw [hk, toLowerAscii_toLowerAscii]
    · exact headers.lower h

/-- The value stored under a name in any case. -/
def find? (headers : HeaderMap M) (name : Bytes) : Option Bytes :=
  FiniteMap.find? headers.map (toLowerAscii name)

/-- Whether a name is stored, in any case. -/
def hasHeader (headers : HeaderMap M) (name : Bytes) : Bool :=
  (headers.find? name).isSome

/-- The value stored under a name in any case, empty when there is none. -/
def header (headers : HeaderMap M) (name : Bytes) : Bytes :=
  (headers.find? name).getD []

@[simp] theorem find?_empty (name : Bytes) : (empty : HeaderMap M).find? name = none :=
  FiniteMap.find?_empty _

/-- **Case-insensitive last write wins.** -/
theorem find?_setHeader (headers : HeaderMap M) (name value n : Bytes) :
    (headers.setHeader name value).find? n =
      if toLowerAscii n = toLowerAscii name then some value else headers.find? n :=
  find?_put headers.map (toLowerAscii name) value (toLowerAscii n)

/-- Setting a list of headers in order. -/
def setHeaders (headers : HeaderMap M) (es : List (Bytes × Bytes)) : HeaderMap M :=
  es.foldl (fun headers e ↦ headers.setHeader e.1 e.2) headers

theorem map_setHeaders (headers : HeaderMap M) (es : List (Bytes × Bytes)) :
    (headers.setHeaders es).map =
      es.foldl (fun m e ↦ put m (toLowerAscii e.1) e.2) headers.map := by
  induction es generalizing headers with
  | nil => rfl
  | cons e es ih => exact ih (headers.setHeader e.1 e.2)

/-- Names that are pairwise distinct ignoring case each get the value set. -/
theorem find?_setHeaders_of_mem {es : List (Bytes × Bytes)}
    (hdistinct : es.Pairwise fun d e ↦ toLowerAscii d.1 ≠ toLowerAscii e.1)
    (headers : HeaderMap M) {e : Bytes × Bytes} (he : e ∈ es) {n : Bytes}
    (hn : toLowerAscii n = toLowerAscii e.1) : (headers.setHeaders es).find? n = some e.2 := by
  rw [find?, map_setHeaders, hn]
  exact find?_foldl_of_mem (fun m e j ↦ find?_put m (toLowerAscii e.1) e.2 j) hdistinct
    headers.map he

end HeaderMap

/-! ### Requests and responses -/

/-- An incoming request. -/
structure HttpRequest (M : Type) [FiniteMap M Bytes Bytes] where
  /-- The method; `unknown` until parsed. -/
  method : HttpMethod
  /-- The path, not percent-decoded. -/
  path : Bytes
  /-- The version text of the request line. -/
  version : Bytes
  /-- The headers. -/
  headers : HeaderMap M
  /-- The decoded query parameters. -/
  queryParams : M
  /-- The path parameters a matched route bound. -/
  pathParams : M
  /-- The body. -/
  body : Bytes

/-- An outgoing response. -/
structure HttpResponse (M : Type) [FiniteMap M Bytes Bytes] where
  /-- The status. -/
  status : HttpStatus
  /-- The headers. -/
  headers : HeaderMap M
  /-- The body. -/
  body : Bytes

variable {M : Type} [FiniteMap M Bytes Bytes]

namespace HttpRequest

/-- A default-constructed request. -/
def new : HttpRequest M where
  method := .unknown
  path := []
  version := []
  headers := .empty
  queryParams := FiniteMap.empty
  pathParams := FiniteMap.empty
  body := []

/-- Set a header. -/
def setHeader (request : HttpRequest M) (name value : Bytes) : HttpRequest M :=
  { request with headers := request.headers.setHeader name value }

/-- Set a query parameter; names are case-sensitive. -/
def setQueryParam (request : HttpRequest M) (name value : Bytes) : HttpRequest M :=
  { request with queryParams := put request.queryParams name value }

/-- Set a path parameter; names are case-sensitive. -/
def setPathParam (request : HttpRequest M) (name value : Bytes) : HttpRequest M :=
  { request with pathParams := put request.pathParams name value }

/-- Whether a header is set. -/
def hasHeader (request : HttpRequest M) (name : Bytes) : Bool :=
  request.headers.hasHeader name

/-- A header's value, empty when it is not set. -/
def header (request : HttpRequest M) (name : Bytes) : Bytes :=
  request.headers.header name

end HttpRequest

namespace HttpResponse

/-- A response with a status, no headers and no body. -/
def new (status : HttpStatus) : HttpResponse M where
  status := status
  headers := .empty
  body := []

/-- Set the status. -/
def setStatus (response : HttpResponse M) (status : HttpStatus) : HttpResponse M :=
  { response with status := status }

/-- Set a header. -/
def setHeader (response : HttpResponse M) (name value : Bytes) : HttpResponse M :=
  { response with headers := response.headers.setHeader name value }

/-- Set the body. -/
def setBody (response : HttpResponse M) (body : Bytes) : HttpResponse M :=
  { response with body := body }

/-- Set a JSON body, given as the text it is dumped to, and the type. -/
def setJson (response : HttpResponse M) (dump : Bytes) : HttpResponse M :=
  (response.setBody dump).setHeader (ascii "Content-Type") (ascii "application/json")

/-- Whether a header is set. -/
def hasHeader (response : HttpResponse M) (name : Bytes) : Bool :=
  response.headers.hasHeader name

/-- A header's value, empty when it is not set. -/
def header (response : HttpResponse M) (name : Bytes) : Bytes :=
  response.headers.header name

end HttpResponse

/-! ### Serialization -/

namespace HttpSerializer

open Decimal

/-- Append "HTTP/1.1 {code} {reason}" and a line terminator. -/
def appendStatusLine (output : Bytes) (response : HttpResponse M) : Bytes :=
  output ++ ascii "HTTP/1.1 " ++ decimal response.status.code ++ ascii " " ++
    statusReasonPhrase response.status ++ crlf

/-- Append one header line. -/
def appendHeaderLine (output : Bytes) (entry : Bytes × Bytes) : Bytes :=
  output ++ entry.1 ++ ascii ": " ++ entry.2 ++ crlf

/-- Append the stored headers, the two headers the serializer computes itself, and the empty line.
Stored values for the computed names are skipped. -/
def appendHeaders (output : Bytes) (response : HttpResponse M) : Bytes :=
  let output := (entries response.headers.map).foldl (fun output entry ↦
    if entry.1 = ascii "content-length" ∨ entry.1 = ascii "connection" then output
    else appendHeaderLine output entry) output
  output ++ ascii "Content-Length: " ++ decimal response.body.length ++ crlf ++
    ascii "Connection: close\r\n" ++ crlf

/-- The response on the wire. -/
def serialize (response : HttpResponse M) : Bytes :=
  appendHeaders (appendStatusLine [] response) response ++ response.body

end HttpSerializer

end FalconHTTP
