import FalconHTTP.Core.OneResponse

/-!
# Requests that never complete

A stream may end before the request in it does: in the header block, or in the declared body
(`Incomplete`). Reading such a stream hands no request on, so that handling the connection does not
depend on the middlewares or on the routes: it closes the descriptor, and writes at most the one
response by which the stream had already been rejected (`handleConnection_of_incomplete`).
-/

namespace FalconHTTP

open Occurrence Lines

variable {M : Type} [FiniteMap M Bytes Bytes]

/-! ### Reading -/

/-- A stream that ends before its request does: it has no blank line, or fewer bytes after it than
its header block declares. -/
def Incomplete (stream : Bytes) : Prop :=
  ∀ headerEnd, indexOf? blankLine stream = some headerEnd →
    ∃ n, streamDeclaredLength stream = some n ∧ stream.length < headerEnd + 4 + n

/-- **Reading an incomplete stream** ends without a response, with a 431 or with a 413. -/
theorem readRequest_of_incomplete (caps : SizeCaps) {chunks : Chunks}
    (h : Incomplete chunks.stream) :
    (readRequest caps chunks (M := M)).1 = .closed ∨
      (readRequest caps chunks (M := M)).1 = .rejected headerTooLarge ∨
      (readRequest caps chunks (M := M)).1 = .rejected bodyTooLarge := by
  rcases hfind : indexOf? blankLine chunks.stream with - | headerEnd
  · rw [readRequest_of_no_blankLine hfind]
    split
    · exact Or.inr (Or.inl rfl)
    · exact Or.inl rfl
  obtain ⟨n, hdecl, hshort⟩ := h headerEnd hfind
  obtain ⟨head, body, hstream, hend⟩ := exists_head_of_blankLine hfind
  rw [hstream, streamDeclaredLength_encode] at hdecl
  rcases readRequest_of_head (M := M) hstream with ⟨-, hspec⟩ | ⟨-, hout⟩
  · have hbody : body.length < n := by
      rw [hstream, List.length_append] at hshort
      omega
    rw [requestSpec, hdecl] at hspec
    simp only [if_pos hbody] at hspec
    split at hspec
    · exact Or.inr (Or.inr hspec)
    · exact Or.inl hspec
  · exact Or.inr (Or.inl hout)

/-! ### Handling -/

namespace Server

/-- What handling a connection comes to when no request is handed on: it depends on the size caps
alone, and `response` is all that is written, as far as the socket takes it. -/
structure Unhandled (server : Server M) (s : ChainState) (response : Bytes) : Prop where
  /-- No request is handed to the chain. -/
  not_handed : ∀ request : HttpRequest M,
    (readRequest server.caps s.endpoint.incoming).1 ≠ .request request
  /-- Other middlewares and routes would have made no difference. -/
  independent : ∀ server' : Server M, server'.caps = server.caps →
    server'.handleConnection s = server.handleConnection s
  /-- No exception escapes. -/
  not_escaped : (server.handleConnection s).1 = none
  /-- The counter of streams was left alone. -/
  counterOps : (server.handleConnection s).2.counterOps = s.counterOps
  /-- The descriptor is closed. -/
  closed : (server.handleConnection s).2.endpoint.closed = true
  /-- The socket took a prefix of the response, and all of it if no send failed. -/
  sent : ∃ accepted, (server.handleConnection s).2.endpoint.sent = s.endpoint.sent ++ accepted ∧
    accepted <+: response ∧ (s.endpoint.AcceptsWrites → accepted = response)

section Unhandled

variable {server : Server M} {s : ChainState}

/-- Closing an open connection closes its descriptor. -/
theorem closeConnection_of_isOpen (hopen : s.connection.isOpen) :
    closeConnection s =
      { s with connection := .movedFrom, endpoint := { s.endpoint with closed := true } } := by
  rw [closeConnection, Connection.close_of_isOpen hopen]

/-- So the destructor of a connection that has been closed does nothing. -/
theorem closeConnection_closeConnection (hopen : s.connection.isOpen) :
    closeConnection (closeConnection s) = closeConnection s := by
  refine closeConnection_of_not_isOpen ?_
  rw [closeConnection_of_isOpen hopen]
  rfl

/-- Handling a connection whose data ends too early. -/
theorem handleConnection_of_closed (hopen : s.connection.isOpen)
    (h : (readRequest server.caps s.endpoint.incoming (M := M)).1 = .closed) :
    server.handleConnection s = (none, closeConnection (afterRead server s)) := by
  have hclose := closeConnection_closeConnection
    (show (afterRead server s).connection.isOpen from hopen)
  exact (handleConnection_of_isOpen hopen h).trans (congrArg _ hclose)

/-- Handling a connection whose data is rejected. -/
theorem handleConnection_of_rejected {response : HttpResponse M} (hopen : s.connection.isOpen)
    (h : (readRequest server.caps s.endpoint.incoming).1 = .rejected response) :
    server.handleConnection s =
      (none, closeConnection (sendResponse response (afterRead server s))) := by
  have hclose := closeConnection_closeConnection
    (show (sendResponse response (afterRead server s)).connection.isOpen from hopen)
  exact (handleConnection_of_isOpen hopen h).trans (congrArg _ hclose)

/-- The state after reading depends on the caps alone. -/
theorem afterRead_congr {server' : Server M} (h : server'.caps = server.caps) :
    afterRead server' s = afterRead server s := by
  rw [afterRead, afterRead, h]

/-- What a server does with a request depends on its chain on this request. -/
theorem handleConnection_congr_of_read {server' : Server M} (hcaps : server.caps = server'.caps)
    (hopen : s.connection.isOpen) {request : HttpRequest M}
    (hread : (readRequest server.caps s.endpoint.incoming).1 = .request request)
    (hchain : server.runChain server.middleware request (.new .ok) (afterRead server s) =
      server'.runChain server'.middleware request (.new .ok) (afterRead server s)) :
    server.handleConnection s = server'.handleConnection s := by
  have hrespond : server.respond request (afterRead server s) =
      server'.respond request (afterRead server' s) := by
    rw [← afterRead_congr hcaps, respond, respond, hchain]
  rw [handleConnection_of_isOpen hopen hread, handleConnection_of_isOpen hopen (hcaps ▸ hread),
    settle, settle, hrespond]

/-- Without a response nothing is written. -/
theorem unhandled_of_closed (hopen : s.connection.isOpen)
    (h : (readRequest server.caps s.endpoint.incoming (M := M)).1 = .closed) :
    server.Unhandled s [] := by
  have hhandle := handleConnection_of_closed hopen h
  have hclose := closeConnection_of_isOpen (show (afterRead server s).connection.isOpen from hopen)
  refine ⟨fun request ↦ by rw [h]; simp, fun server' hcaps ↦ ?_, congrArg Prod.fst hhandle, ?_, ?_,
    [], ?_, List.nil_prefix, fun _ ↦ rfl⟩
  · rw [hhandle, handleConnection_of_closed hopen (hcaps ▸ h), afterRead_congr hcaps]
  · rw [hhandle, hclose]
    rfl
  · rw [hhandle, hclose]
  · rw [hhandle, hclose, List.append_nil]
    rfl

/-- With a response, that response is written. -/
theorem unhandled_of_rejected {response : HttpResponse M} (hopen : s.connection.isOpen)
    (h : (readRequest server.caps s.endpoint.incoming).1 = .rejected response) :
    server.Unhandled s (HttpSerializer.serialize response) := by
  have hhandle := handleConnection_of_rejected hopen h
  have hclose := closeConnection_of_isOpen
    (show (sendResponse response (afterRead server s)).connection.isOpen from hopen)
  obtain ⟨accepted, endpoint, hsend, hprefix, htook⟩ := Connection.sendAll_spec s.connection
    (HttpSerializer.serialize response) (afterRead server s).endpoint
  have hwritten : (sendResponse response (afterRead server s)).endpoint = endpoint :=
    congrArg Prod.snd hsend
  refine ⟨fun request ↦ by rw [h]; simp, fun server' hcaps ↦ ?_, congrArg Prod.fst hhandle, ?_, ?_,
    accepted, ?_, hprefix, fun haccepts ↦ ?_⟩
  · rw [hhandle, handleConnection_of_rejected hopen (hcaps ▸ h), afterRead_congr hcaps]
  · rw [hhandle, hclose]
    rfl
  · rw [hhandle, hclose]
  · rw [hhandle, hclose]
    show (sendResponse response (afterRead server s)).endpoint.sent = _
    rw [hwritten]
    exact htook.sent
  · obtain ⟨endpoint', hall, -⟩ := Connection.sendAll_of_acceptsWrites hopen
      (show (afterRead server s).endpoint.AcceptsWrites from haccepts)
      (HttpSerializer.serialize response)
    exact of_decide_eq_true (congrArg Prod.fst (hsend.symm.trans hall))

end Unhandled

/-- **A request that never completes has no effect.** On an open connection, for every byte stream
and every cutting of it into chunks:

* an incomplete stream ends without a response or in a rejection, a 431, a 400 or a 413;
* either way the connection is `Unhandled`, and so it is after every rejection. -/
theorem handleConnection_of_incomplete (server : Server M) (s : ChainState)
    (hopen : s.connection.isOpen) :
    (Incomplete s.endpoint.incoming.stream →
      ((readRequest server.caps s.endpoint.incoming (M := M)).1 = .closed ∧
        server.Unhandled s []) ∨
      ∃ response ∈ [headerTooLarge, malformedContentLength, bodyTooLarge],
        (readRequest server.caps s.endpoint.incoming (M := M)).1 = .rejected response ∧
          server.Unhandled s (HttpSerializer.serialize response)) ∧
    ∀ response : HttpResponse M,
      (readRequest server.caps s.endpoint.incoming).1 = .rejected response →
        server.Unhandled s (HttpSerializer.serialize response) := by
  refine ⟨fun h ↦ ?_, fun response ↦ unhandled_of_rejected hopen⟩
  rcases readRequest_of_incomplete (M := M) server.caps h with hclosed | hlarge | hlarge
  · exact Or.inl ⟨hclosed, unhandled_of_closed hopen hclosed⟩
  · exact Or.inr ⟨_, by simp, hlarge, unhandled_of_rejected hopen hlarge⟩
  · exact Or.inr ⟨_, by simp, hlarge, unhandled_of_rejected hopen hlarge⟩

/-- A connection whose peer declares a body of three bytes and closes after one. -/
def cutState : ChainState :=
  { tickState with endpoint := { tickState.endpoint with
      incoming := [⟨ascii "POST / HTTP/1.1\r\nContent-Length: 3\r\n", by decide +kernel,
        by decide +kernel⟩, ⟨ascii "\r\na", by decide +kernel, by decide +kernel⟩] } }

theorem handleConnection_cutState :
    (tickServer.handleConnection cutState).2.endpoint.closed = true ∧
      (tickServer.handleConnection cutState).2.counterOps = [] := by
  have hcut : Incomplete cutState.endpoint.incoming.stream := by
    intro headerEnd hend
    have hblank : indexOf? blankLine cutState.endpoint.incoming.stream = some 34 := by
      decide +kernel
    obtain rfl := Option.some.inj (hblank.symm.trans hend)
    exact ⟨3, by decide +kernel, by decide +kernel⟩
  rcases (handleConnection_of_incomplete tickServer cutState rfl).1 hcut with
    ⟨-, h⟩ | ⟨response, -, -, h⟩
  · exact ⟨h.closed, h.counterOps⟩
  · exact ⟨h.closed, h.counterOps⟩

end Server

end FalconHTTP
