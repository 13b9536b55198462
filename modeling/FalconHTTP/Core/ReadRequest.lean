import FalconHTTP.Core.Connection
import FalconHTTP.HTTP.Parser

/-!
# Reading a request

The first half of `Server::handleConnection`, up to the point where a request is handed to
`runChain`: wait for the end of the header block, scan the block for a `Content-Length`, wait for
the declared body, parse. Each `receiveAvailable` of the source takes the next chunk of a list; past
the list it returns empty.

Reading ends in one of three ways (`ReadOutcome`): a request is handed on, a response that rejects
it is sent, or the connection is closed without a response. An exception of the parser is one of
the rejections: the `catch` block of `handleConnection` answers it with a 500.
-/

namespace FalconHTTP

open Occurrence

/-- How reading a request ends. -/
inductive ReadOutcome (M : Type) [FiniteMap M Bytes Bytes]
  /-- The request is handed to `runChain`. -/
  | request (request : HttpRequest M)
  /-- The response is sent and the connection closed. -/
  | rejected (response : HttpResponse M)
  /-- The connection is closed without a response. -/
  | closed

/-- How the wait for the header block ends. -/
inductive HeaderWait
  /-- The buffer holds the header block, whose blank line starts at `headerEnd`. -/
  | complete (raw : Bytes) (headerEnd : ℕ) (chunks : Chunks)
  /-- The buffer outgrew the cap without a blank line. -/
  | tooLarge (chunks : Chunks)
  /-- The data ended without a blank line. -/
  | endOfData

/-- The size caps of a server, `size_t` values. -/
structure SizeCaps where
  /-- Cap on the request line and header block. -/
  maxHeaderSize : ℕ
  /-- Cap on the declared body. -/
  maxBodySize : ℕ
  /-- The header cap is a `size_t`. -/
  maxHeaderSize_lt : maxHeaderSize < sizeRange
  /-- The body cap is a `size_t`. -/
  maxBodySize_lt : maxBodySize < sizeRange

/-- Case-insensitive comparison of header names. -/
def equalsIgnoreCase (a b : Bytes) : Bool :=
  a.length == b.length && (a.zip b).all fun p ↦ toLower p.1 == toLower p.2

theorem equalsIgnoreCase_iff {a b : Bytes} :
    equalsIgnoreCase a b = true ↔ toLowerAscii a = toLowerAscii b := by
  rw [equalsIgnoreCase, Bool.and_eq_true, beq_iff_eq]
  induction a generalizing b with
  | nil => cases b <;> simp [toLowerAscii]
  | cons x a ih =>
    cases b with
    | nil => simp [toLowerAscii]
    | cons y b =>
      simp only [toLowerAscii, List.map_cons, List.cons.injEq] at ih ⊢
      rw [← ih]
      simp only [List.length_cons, Nat.add_right_cancel_iff, List.zip_cons_cons, List.all_cons,
        Bool.and_eq_true, beq_iff_eq]
      exact and_left_comm

/-- The wait for the end of the header block. -/
def awaitHeader (maxHeaderSize : ℕ) (raw : Bytes) (chunks : Chunks) : HeaderWait :=
  match indexOf? blankLine raw with
  -- a buffer that holds the blank line is not compared with the cap
  | some headerEnd => .complete raw headerEnd chunks
  | none =>
    if raw.length > maxHeaderSize then .tooLarge chunks
    else
      match chunks with
      | [] => .endOfData
      | more :: chunks => awaitHeader maxHeaderSize (raw ++ more.bytes) chunks

/-- The value of a `Content-Length` header: spaces, then a number that fills the rest. -/
def contentLengthValue (value : Bytes) : Option ℕ :=
  match Decimal.readDecimal? sizeRange (dropSpaces value) with
  | some (n, []) => some n
  | _ => none

/-- One line of the scan for a `Content-Length`; `none` when its value is malformed. -/
def scanLine (line : Bytes) (contentLength : ℕ) : Option ℕ :=
  match indexOf? [58] line with
  | none => some contentLength
  | some colon =>
    -- a later declaration overwrites an earlier one
    if equalsIgnoreCase (line.take colon) (ascii "Content-Length") then
      contentLengthValue (line.drop (colon + 1))
    else some contentLength

/-- The scan over the lines that end at `headerEnd` or before. -/
def scanContentLength (raw : Bytes) (headerEnd : ℕ) : ℕ → ℕ → ℕ → Option ℕ
  | 0, _, contentLength => some contentLength
  | fuel + 1, headerSearchPos, contentLength =>
    let lineStart := headerSearchPos
    match indexFrom? crlf raw lineStart with
    | none => some contentLength
    | some lineEnd =>
      if lineEnd > headerEnd then some contentLength
      else
        match scanLine ((raw.drop lineStart).take (lineEnd - lineStart)) contentLength with
        | none => none
        | some contentLength => scanContentLength raw headerEnd fuel (lineEnd + 2) contentLength

/-- The wait for the declared body; `none` when the data ends before. -/
def awaitBody (contentLength : ℕ) (raw : Bytes) (bodyBytesSoFar : ℕ) (chunks : Chunks) :
    Option (Bytes × Chunks) :=
  if bodyBytesSoFar < contentLength then
    match chunks with
    | [] => none
    | more :: chunks =>
      awaitBody contentLength (raw ++ more.bytes) (bodyBytesSoFar + more.bytes.length) chunks
  else some (raw, chunks)

variable {M : Type} [FiniteMap M Bytes Bytes]

/-- The response of a rejection. -/
def errorResponse (status : HttpStatus) (body : Bytes) : HttpResponse M :=
  (HttpResponse.new status).setBody body

/-- 431: the header block outgrew the cap. -/
def headerTooLarge : HttpResponse M :=
  errorResponse .requestHeaderFieldsTooLarge (ascii "Request header too large")

/-- 400: the `Content-Length` is malformed. -/
def malformedContentLength : HttpResponse M :=
  errorResponse .badRequest (ascii "Malformed Content-Length header")

/-- 413: the declared body exceeds the cap. -/
def bodyTooLarge : HttpResponse M :=
  errorResponse .payloadTooLarge (ascii "Request body too large")

/-- 500: an exception reached `handleConnection`. -/
def internalServerError : HttpResponse M :=
  errorResponse .internalServerError (ascii "Internal Server Error")

/-- Everything after the header block has arrived: scan, wait for the body, parse. -/
def readBody (caps : SizeCaps) (raw : Bytes) (headerEnd : ℕ) (chunks : Chunks) :
    ReadOutcome M × Chunks :=
  match scanContentLength raw headerEnd (raw.length + 1) 0 0 with
  | none => (.rejected malformedContentLength, chunks)
  | some contentLength =>
    if contentLength > caps.maxBodySize then (.rejected bodyTooLarge, chunks)
    else
      let bodyStart := headerEnd + 4
      match awaitBody contentLength raw (raw.length - bodyStart) chunks with
      | none => (.closed, [])
      | some (raw, chunks) =>
        -- the whole buffer is parsed, bytes past the declared body included
        match HttpParser.parse raw with
        | .error _ => (.rejected internalServerError, chunks)
        | .ok request => (.request request, chunks)

/-- Read one request from a connection's chunks; the second component is what was not read. -/
def readRequest (caps : SizeCaps) (chunks : Chunks) : ReadOutcome M × Chunks :=
  match chunks with
  | [] => (.closed, [])
  | first :: chunks =>
    match awaitHeader caps.maxHeaderSize first.bytes chunks with
    | .tooLarge chunks => (.rejected headerTooLarge, chunks)
    | .endOfData => (.closed, [])
    | .complete raw headerEnd chunks => readBody caps raw headerEnd chunks

end FalconHTTP
