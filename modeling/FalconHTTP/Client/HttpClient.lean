import Mathlib.Data.List.DropRight
import FalconHTTP.Core.Connection
import FalconHTTP.HTTP.HeaderLines

/-!
# The HTTP client

`HttpClient::send`: build a request, write it, and read the response until it is complete. The
response is complete once its declared length has arrived, or at the end of the data when it
declares none.

What the operating system does in one exchange is a `Peer`: whether a socket is created and
connected and its timeouts are set, and the endpoint of the connection. The timeouts of
`ClientOptions` only reach the system calls, so they are part of the peer.

`parseHead` returns its result, `none` where the source returns `false`; there the caller gives up
and nothing reads what was parsed so far.
-/

namespace FalconHTTP

open Occurrence Decimal FiniteMap

/-- A parsed response. -/
structure ClientResponse (M : Type) [FiniteMap M Bytes Bytes] where
  /-- The status code. -/
  statusCode : ℕ
  /-- The headers. -/
  headers : M
  /-- The body. -/
  body : Bytes

/-- The limits of a client. -/
structure ClientOptions where
  /-- Responses whose head and body exceed this are abandoned. -/
  maxResponseSize : ℕ
  /-- The limit is a `size_t`. -/
  maxResponseSize_lt : maxResponseSize < sizeRange

/-- What the operating system does in one exchange. -/
structure Peer where
  /-- The created socket. -/
  socket : Socket
  /-- The address is valid and the connection is established in time. -/
  connected : Bool
  /-- The send timeout is set. -/
  sendTimeoutSet : Bool
  /-- The receive timeout is set. -/
  receiveTimeoutSet : Bool
  /-- The endpoint of the connection. -/
  endpoint : Endpoint

namespace HttpClient

/-! ### Reading a head -/

/-- A space or a tab. -/
def isBlank (c : UInt8) : Bool :=
  c == 32 || c == 9

/-- Drop blanks at the start, and blanks and carriage returns at the end. -/
def trim (text : Bytes) : Bytes :=
  (text.dropWhile isBlank).rdropWhile fun c ↦ isBlank c || c == 13

/-- Read a trimmed text as a `size_t`. -/
def parseNumber (text : Bytes) : Option ℕ :=
  if trim text = [] then none
  else
    match readDecimal? sizeRange (trim text) with
    | some (n, []) => some n
    | _ => none

variable {M : Type} [FiniteMap M Bytes Bytes]

/-- The response before anything is parsed. -/
def emptyResponse : ClientResponse M where
  statusCode := 0
  headers := FiniteMap.empty
  body := []

/-- Parse the status line. -/
def parseStatusLine (statusLine : Bytes) (out : ClientResponse M) : Option (ClientResponse M) :=
  match indexOf? [32] statusLine with
  | none => none
  | some firstSpace =>
    if ¬ (ascii "HTTP/").isPrefixOf statusLine then none
    else
      let afterVersion := statusLine.drop (firstSpace + 1)
      let codeText :=
        match indexOf? [32] afterVersion with
        | none => afterVersion
        | some secondSpace => afterVersion.take secondSpace
      match parseNumber codeText with
      | none => none
      | some code => if code < 100 ∨ code > 599 then none else some { out with statusCode := code }

/-- Parse one header line. -/
def parseHeadLine (line : Bytes) (out : ClientResponse M) : Option (ClientResponse M) :=
  match indexOf? [58] line with
  | none => none
  | some colon =>
    let name := toLowerAscii (trim (line.take colon))
    some { out with headers := assign out.headers name (trim (line.drop (colon + 1))) }

/-- The loop over the header lines; the last one has no terminator. -/
def parseHeadLines : ℕ → Bytes → ClientResponse M → Option (ClientResponse M)
  | 0, _, out => some out
  | fuel + 1, rest, out =>
    if rest = [] then some out
    else
      match indexOf? crlf rest with
      | none => parseHeadLine rest out
      | some next =>
        match parseHeadLine (rest.take next) out with
        | none => none
        | some out => parseHeadLines fuel (rest.drop (next + 2)) out

/-- Parse everything before the blank line. -/
def parseHead (head : Bytes) (out : ClientResponse M) : Option (ClientResponse M) :=
  match indexOf? crlf head with
  | none => parseStatusLine head out
  | some lineEnd =>
    match parseStatusLine (head.take lineEnd) out with
    | none => none
    | some out =>
      let rest := head.drop (lineEnd + 2)
      parseHeadLines rest.length rest out

/-! ### Building a request -/

/-- The headers the client owns. -/
def clientOwned (key : Bytes) : Bool :=
  let name := toLowerAscii key
  name == ascii "host" || name == ascii "connection" || name == ascii "content-length"

/-- The request on the wire. -/
def buildRequest (method : HttpMethod) (host : Bytes) (port : UInt16) (path body : Bytes)
    (headers : M) : Bytes :=
  let request := methodToString method ++ ascii " " ++ path ++ ascii " HTTP/1.1\r\nHost: " ++
    host ++ ascii ":" ++ decimal port.toNat ++ ascii "\r\nConnection: close\r\nContent-Length: " ++
    decimal body.length ++ crlf
  let request := (entries headers).foldl (fun request entry ↦
    if clientOwned entry.1 then request
    else request ++ entry.1 ++ ascii ": " ++ entry.2 ++ crlf) request
  request ++ crlf ++ body

/-! ### Sending -/

/-- The variables of the receive loop. -/
structure Receiving (M : Type) [FiniteMap M Bytes Bytes] where
  /-- The response parsed so far. -/
  response : ClientResponse M
  /-- All bytes received. -/
  received : Bytes
  /-- Where the body starts, once the head has arrived. -/
  headEnd : Option ℕ
  /-- The declared length. -/
  expectedBody : ℕ
  /-- Whether a length is declared. -/
  hasLength : Bool

namespace Receiving

/-- Before the first receive. -/
def start : Receiving M where
  response := emptyResponse
  received := []
  headEnd := none
  expectedBody := 0
  hasLength := false

/-- Where the body starts, when the response is complete without the end of the data. -/
def complete? (r : Receiving M) : Option ℕ :=
  match r.headEnd with
  | none => none
  | some headEnd =>
    if r.hasLength ∧ r.received.length - headEnd ≥ r.expectedBody then some headEnd else none

/-- The response with its body. -/
def finish (r : Receiving M) (headEnd : ℕ) : ClientResponse M :=
  let body := r.received.drop headEnd
  { r.response with body := if r.hasLength then body.take r.expectedBody else body }

/-- At the end of the data: complete when the head arrived, and the declared length if there is
one. -/
def atEof (r : Receiving M) : Option (ClientResponse M) :=
  match r.headEnd with
  | none => none
  | some headEnd =>
    if r.hasLength ∧ r.received.length - headEnd < r.expectedBody then none
    else some (r.finish headEnd)

/-- The head has arrived: parse it and take the declared length. -/
def readHead (r : Receiving M) (maxResponseSize blank : ℕ) : Option (Receiving M) :=
  match parseHead (r.received.take blank) r.response with
  | none => none
  | some response =>
    let r := { r with response := response, headEnd := some (blank + 4) }
    match find? response.headers (ascii "content-length") with
    | none => some r
    | some value =>
      match parseNumber value with
      | none => none
      | some n =>
        -- a declared length above the limit is refused before the body arrives
        if n > maxResponseSize then none else some { r with expectedBody := n, hasLength := true }

/-- Take in what one receive returned; `none` when the response is abandoned. -/
def append (r : Receiving M) (maxResponseSize : ℕ) (got : Bytes) : Option (Receiving M) :=
  let r := { r with received := r.received ++ got }
  -- the limit is on everything received, head included
  if r.received.length > maxResponseSize then none
  else
    match r.headEnd with
    | some _ => some r
    | none =>
      match indexOf? blankLine r.received with
      | none => some r
      | some blank => r.readHead maxResponseSize blank

end Receiving

/-- The receive loop. -/
def receiveLoop (maxResponseSize : ℕ) (ending : StreamEnd) (chunks : Chunks) (r : Receiving M) :
    Option (ClientResponse M) :=
  match r.complete? with
  | some headEnd => some (r.finish headEnd)
  | none =>
    match chunks with
    | [] =>
      match ending with
      | .error => none
      | .eof => r.atEof
    | chunk :: chunks =>
      match r.append maxResponseSize chunk.bytes with
      | none => none
      | some r => receiveLoop maxResponseSize ending chunks r

section ReceiveLoop

variable {maxResponseSize : ℕ} {ending : StreamEnd} {chunk : Chunk defaultReadChunk}
  {chunks : Chunks} {r r' : Receiving M}

theorem receiveLoop_of_complete {headEnd : ℕ} (h : r.complete? = some headEnd) :
    receiveLoop maxResponseSize ending chunks r = some (r.finish headEnd) := by
  rw [receiveLoop.eq_def, h]

theorem receiveLoop_nil (h : r.complete? = none) :
    receiveLoop maxResponseSize ending [] r =
      match ending with
      | .error => none
      | .eof => r.atEof := by
  rw [receiveLoop.eq_def, h]

theorem receiveLoop_cons (h : r.complete? = none)
    (happend : r.append maxResponseSize chunk.bytes = some r') :
    receiveLoop maxResponseSize ending (chunk :: chunks) r =
      receiveLoop maxResponseSize ending chunks r' := by
  rw [receiveLoop.eq_def, h]
  show (match r.append maxResponseSize chunk.bytes with | none => none | some r => _) = _
  rw [happend]

theorem receiveLoop_cons_of_none (h : r.complete? = none)
    (happend : r.append maxResponseSize chunk.bytes = none) :
    receiveLoop maxResponseSize ending (chunk :: chunks) r = none := by
  rw [receiveLoop.eq_def, h]
  show (match r.append maxResponseSize chunk.bytes with | none => none | some r => _) = _
  rw [happend]

end ReceiveLoop

/-- Send a request and read the response. The second component is the connection's endpoint after
the request was written. -/
def send (options : ClientOptions) (peer : Peer) (method : HttpMethod) (host : Bytes)
    (port : UInt16) (path body : Bytes) (headers : M) : Option (ClientResponse M) × Endpoint :=
  if ¬ peer.socket.isValid ∨ ¬ peer.connected ∨ ¬ peer.sendTimeoutSet ∨
      ¬ peer.receiveTimeoutSet then
    (none, peer.endpoint)
  else
    let request := buildRequest method host port path body headers
    match peer.socket.writeLoop request request.length 0 peer.endpoint with
    | (false, endpoint) => (none, endpoint)
    | (true, endpoint) =>
      (receiveLoop options.maxResponseSize endpoint.ending endpoint.incoming .start, endpoint)

/-- The exchange gets as far as writing the request. -/
structure Ready (peer : Peer) : Prop where
  /-- The socket was created. -/
  isValid : peer.socket.isValid
  /-- It is connected. -/
  connected : peer.connected
  /-- The send timeout is set. -/
  sendTimeoutSet : peer.sendTimeoutSet
  /-- The receive timeout is set. -/
  receiveTimeoutSet : peer.receiveTimeoutSet

/-- The test that `send` makes before it writes. -/
theorem ready_iff {peer : Peer} :
    Ready peer ↔ ¬ (¬ peer.socket.isValid ∨ ¬ peer.connected ∨ ¬ peer.sendTimeoutSet ∨
      ¬ peer.receiveTimeoutSet) := by
  simp only [not_or, not_not]
  constructor
  · rintro ⟨hvalid, hconnected, hsend, hreceive⟩
    exact ⟨hvalid, hconnected, hsend, hreceive⟩
  · rintro ⟨hvalid, hconnected, hsend, hreceive⟩
    exact ⟨hvalid, hconnected, hsend, hreceive⟩

/-- An exchange that does not get as far as writing the request does nothing. -/
theorem send_of_not_ready {peer : Peer} (hready : ¬ Ready peer) (options : ClientOptions)
    (method : HttpMethod) (host : Bytes) (port : UInt16) (path body : Bytes) (headers : M) :
    send options peer method host port path body headers = (none, peer.endpoint) :=
  if_pos (not_not.1 (ready_iff.not.1 hready))

/-- An exchange that gets as far as writing the request writes it, and then reads the response. -/
theorem send_of_ready {peer : Peer} (hready : Ready peer) (options : ClientOptions)
    (method : HttpMethod) (host : Bytes) (port : UInt16) (path body : Bytes) (headers : M)
    {ok : Bool} {endpoint : Endpoint}
    (hwrite : peer.socket.writeLoop (buildRequest method host port path body headers)
      (buildRequest method host port path body headers).length 0 peer.endpoint = (ok, endpoint)) :
    send options peer method host port path body headers =
      (if ok then receiveLoop options.maxResponseSize endpoint.ending endpoint.incoming .start
        else none, endpoint) := by
  rw [send, if_neg (ready_iff.1 hready)]
  simp only [hwrite]
  rcases ok with - | -
  · rfl
  · rfl

/-- When no write fails, the result is what the receive loop makes of the incoming data. -/
theorem send_fst_of_acceptsWrites {peer : Peer} (hready : Ready peer)
    (haccepts : peer.endpoint.AcceptsWrites) (options : ClientOptions) (method : HttpMethod)
    (host : Bytes) (port : UInt16) (path body : Bytes) (headers : M) :
    (send options peer method host port path body headers).1 =
      receiveLoop options.maxResponseSize peer.endpoint.ending peer.endpoint.incoming .start := by
  obtain ⟨endpoint, hwrite, hwrote⟩ := Socket.writeLoop_of_acceptsWrites hready.isValid
    (buildRequest method host port path body headers) (Nat.le_add_left _ 0) haccepts
  rw [send_of_ready hready options method host port path body headers hwrite, if_pos rfl,
    hwrote.incoming, hwrote.ending]

end HttpClient

end FalconHTTP
