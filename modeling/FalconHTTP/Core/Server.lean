import FalconHTTP.Core.ReadRequest
import FalconHTTP.Routing.Router

/-!
# The server's handling of one connection

`runChain` runs the middlewares from outside in and ends at a route; `handleConnection` reads a
request, runs the chain and writes the response, unless a stream handler took the connection.

A middleware is an arbitrary program that reaches the rest of the chain only by calling `next`
(`MiddlewareProgram`): it may call it any number of times, with any request and response, look at
what comes back, catch what is thrown, and return or throw. A call of `next` answers with what it
left in the request and the response also when it throws.

`activeStreams_` is shared by all connections. Here only its traffic with one connection is seen:
the values that the `fetch_add`s to come will return are part of the state, and the operations on
the counter are recorded in order.
-/

namespace FalconHTTP

open FiniteMap

/-! ### Middlewares -/

/-- A call of `next`: the request and the response it is given. -/
abbrev NextCall (M : Type) [FiniteMap M Bytes Bytes] := HttpRequest M × HttpResponse M

/-- How a call of `next`, or a middleware, ends: whether it throws, and what it leaves in the
request and the response. -/
abbrev NextResult (M : Type) [FiniteMap M Bytes Bytes] :=
  Except Exn Unit × HttpRequest M × HttpResponse M

/-- A middleware at work. -/
abbrev MiddlewareProgram (M : Type) [FiniteMap M Bytes Bytes] :=
  Interaction (NextCall M) (fun _ ↦ NextResult M) (NextResult M)

/-- A middleware. -/
abbrev MiddlewareFn (M : Type) [FiniteMap M Bytes Bytes] :=
  HttpRequest M → HttpResponse M → MiddlewareProgram M

/-- What a server is configured with. -/
structure Server (M : Type) [FiniteMap M Bytes Bytes] where
  /-- The routes of the bound router. -/
  routes : List (Route M)
  /-- The middlewares, in registration order. -/
  middleware : List (MiddlewareFn M)
  /-- The size caps. -/
  caps : SizeCaps
  /-- The cap on concurrent streaming connections. -/
  maxStreamingConnections : ℕ
  /-- The cap is never stored as `0`. -/
  maxStreamingConnections_pos : 0 < maxStreamingConnections

/-- `0` means half of the pool, and at least one. -/
def resolveMaxStreamingConnections (configured threadCount : ℕ) : ℕ :=
  if configured ≠ 0 then configured
  else if threadCount / 2 = 0 then 1
  else threadCount / 2

/-- The resolved cap is never `0`. -/
theorem resolveMaxStreamingConnections_pos (configured threadCount : ℕ) :
    0 < resolveMaxStreamingConnections configured threadCount := by
  rw [resolveMaxStreamingConnections]
  split
  · rename_i hconfigured
    exact Nat.pos_of_ne_zero hconfigured
  · split
    · exact Nat.one_pos
    · rename_i hhalf
      exact Nat.pos_of_ne_zero hhalf

variable {M : Type} [FiniteMap M Bytes Bytes]

/-- The server the constructors build from a configuration. -/
def Server.ofConfig (routes : List (Route M)) (middleware : List (MiddlewareFn M))
    (caps : SizeCaps) (configured threadCount : ℕ) : Server M where
  routes := routes
  middleware := middleware
  caps := caps
  maxStreamingConnections := resolveMaxStreamingConnections configured threadCount
  maxStreamingConnections_pos := resolveMaxStreamingConnections_pos configured threadCount

/-! ### The chain -/

/-- An operation on `activeStreams_`. -/
inductive CounterOp
  /-- `fetch_add(1)` with the value it returned. -/
  | fetchAdd (old : ℕ)
  /-- `fetch_sub(1)`. -/
  | fetchSub
  deriving DecidableEq

/-- What a chain works on besides the request and the response. -/
structure ChainState where
  /-- The connection, which a stream takes over. -/
  connection : Connection
  /-- The endpoint of its socket. -/
  endpoint : Endpoint
  /-- The values that the `fetch_add`s to come return; `0` past the list. -/
  fetched : List ℕ
  /-- The operations on the counter so far. -/
  counterOps : List CounterOp

/-- How a chain ends: what it returns or throws, and what it leaves behind. -/
structure ChainEnd (M : Type) [FiniteMap M Bytes Bytes] where
  /-- Whether the connection was consumed, or the exception. -/
  result : Except Exn Bool
  /-- The request. -/
  request : HttpRequest M
  /-- The response. -/
  response : HttpResponse M
  /-- The state. -/
  state : ChainState

namespace Server

variable (server : Server M)

/-- A stream on a connection that has been taken over: build it, run the handler, destroy it. -/
def runStream (streamHandler : StreamHandler M) (request : HttpRequest M)
    (response : HttpResponse M) (s : ChainState) : Except Exn Unit × ChainState :=
  let stream := SseConnection.new s.connection response.headers.map s.endpoint
  let (result, sse, endpoint) := (streamHandler request).run sseCall stream
  (result, { s with
    connection := .movedFrom
    endpoint := sse.destroy endpoint
    -- the guard was built before the stream, so it subtracts after the stream is gone
    counterOps := s.counterOps ++ [.fetchSub] })

/-- The end of the chain: a stream route, if one matches, or the dispatcher. -/
def endOfChain (request : HttpRequest M) (response : HttpResponse M) (s : ChainState) :
    ChainEnd M :=
  match Router.matchStream request server.routes with
  | some (streamHandler, request) =>
    let old := s.fetched.headD 0
    let s := { s with
      fetched := s.fetched.tail
      counterOps := s.counterOps ++ [.fetchAdd old] }
    -- the addition has taken place whatever the comparison says
    if old ≥ server.maxStreamingConnections then
      let response := (response.setStatus .serviceUnavailable).setBody
        (ascii "Too many concurrent streaming connections")
      ⟨.ok false, request, response, { s with counterOps := s.counterOps ++ [.fetchSub] }⟩
    else
      match runStream streamHandler request response s with
      | (.ok (), s) => ⟨.ok true, request, response, s⟩
      | (.error e, s) => ⟨.error e, request, response, s⟩
  | none =>
    match Router.dispatch server.routes request response with
    | (.error e, request, response) => ⟨.error e, request, response, s⟩
    | (.ok .notFound, request, response) =>
      ⟨.ok false, request, (response.setStatus .notFound).setBody (ascii "Not Found"), s⟩
    | (.ok .methodNotAllowed, request, response) =>
      ⟨.ok false, request,
        (response.setStatus .methodNotAllowed).setBody (ascii "Method Not Allowed"), s⟩
    | (.ok .matched, request, response) => ⟨.ok false, request, response, s⟩

/-- One call of `next`: it runs the rest of the chain and, when that returns, overwrites the flag of
the level it was called from. -/
def nextCall (rest : HttpRequest M → HttpResponse M → ChainState → ChainEnd M) (call : NextCall M)
    (s : Bool × ChainState) : NextResult M × Bool × ChainState :=
  let e := rest call.1 call.2 s.2
  match e.result with
  | .ok streamed => ((.ok (), e.request, e.response), streamed, e.state)
  | .error exn => ((.error exn, e.request, e.response), s.1, e.state)

/-- Run the middlewares that are left, and the end of the chain. `runChain(index, ...)` of the
source is this function on the middlewares from `index` on. -/
def runChain : List (MiddlewareFn M) → HttpRequest M → HttpResponse M → ChainState → ChainEnd M
  | [], request, response, s => server.endOfChain request response s
  | middleware :: rest, request, response, s =>
    let (r, streamed, s) := (middleware request response).run (nextCall (runChain rest)) (false, s)
    match r with
    | (.ok (), request, response) => ⟨.ok streamed, request, response, s⟩
    | (.error e, request, response) => ⟨.error e, request, response, s⟩

/-! ### The connection -/

/-- Close the connection. -/
def closeConnection (s : ChainState) : ChainState :=
  let (connection, endpoint) := s.connection.close s.endpoint
  { s with connection := connection, endpoint := endpoint }

/-- Write a response, whether or not that succeeds. -/
def sendResponse (response : HttpResponse M) (s : ChainState) : ChainState :=
  { s with endpoint := (s.connection.sendAll (HttpSerializer.serialize response) s.endpoint).2 }

/-- Everything after a request has been parsed. An exception that is not a `std::exception`
escapes. -/
def respond (request : HttpRequest M) (s : ChainState) : Option Exn × ChainState :=
  let e := server.runChain server.middleware request (.new .ok) s
  match e.result with
  -- a stream has written and closed for itself
  | .ok true => (none, e.state)
  | .ok false => (none, closeConnection (sendResponse e.response e.state))
  | .error (.std _) =>
    (none, closeConnection (sendResponse (internalServerError : HttpResponse M) e.state))
  | .error .other => (some .other, e.state)

/-- Handle one connection. The last step is the destructor of the connection, a parameter that was
moved in. -/
def handleConnection (s : ChainState) : Option Exn × ChainState :=
  if ¬ s.connection.isOpen then (none, s)
  else
    let (outcome, incoming) : ReadOutcome M × Chunks :=
      readRequest server.caps s.endpoint.incoming
    let s := { s with endpoint := { s.endpoint with incoming := incoming } }
    let (escaped, s) :=
      match outcome with
      | .closed => (none, closeConnection s)
      | .rejected response => (none, closeConnection (sendResponse response s))
      | .request request => server.respond request s
    (escaped, closeConnection s)

end Server

end FalconHTTP
