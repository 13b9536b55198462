import FalconHTTP.Core.Chain
import FalconHTTP.Core.ReadGuarantees
import FalconHTTP.Middleware.Recovery

/-!
# At most one response on a connection

Every state of a run of the chain is *untouched* (nothing written, the connection open) or
*streamed* (one stream was written and its connection closed). A streamed state stays as it is: the
connection that the outer levels still hold owns no socket, so their writes and further streams
write nothing (`endOfChain_streamed`). So what `handleConnection` writes is one response or one
stream (`handleConnection_one_response`).

Two things are asked of the server's middlewares and handlers: that they throw nothing but
`std::exception`s (`ThrowsStd`), since anything else escapes `handleConnection`, and that stream
handlers do not move their connection away (`KeepsStreams`).
-/

namespace FalconHTTP

open FiniteMap

variable {M : Type} [FiniteMap M Bytes Bytes]

/-- Nothing but a `std::exception` is thrown. -/
def OnlyStd {α : Type} (result : Except Exn α) : Prop :=
  ∀ e, result = .error e → e.isStd = true

theorem onlyStd_ok {α : Type} (a : α) : OnlyStd (.ok a : Except Exn α) :=
  fun _ h ↦ absurd h (by simp)

theorem OnlyStd.map {α β : Type} {result : Except Exn α} (h : OnlyStd result) (f : α → β) :
    OnlyStd (result.map f) := by
  rcases result with e | a
  · intro e' he
    obtain rfl := Except.error.inj he
    exact h e rfl
  · exact onlyStd_ok (f a)

namespace Server

variable (server : Server M)

/-- No middleware and no handler throws anything but a `std::exception`. -/
structure ThrowsStd : Prop where
  /-- A middleware does not, as long as `next` does not. -/
  middleware : ∀ m ∈ server.middleware, ∀ request response,
    (m request response).Ensures (fun _ r ↦ OnlyStd r.1) fun r ↦ OnlyStd r.1
  /-- A route handler does not. -/
  normal : ∀ route ∈ server.routes, ∀ handler, route.target = .normal handler →
    ∀ request response, OnlyStd (handler request response).1
  /-- A stream handler does not. -/
  stream : ∀ route ∈ server.routes, ∀ streamHandler, route.target = .stream streamHandler →
    ∀ request, (streamHandler request).Ensures (fun _ _ ↦ True) OnlyStd

/-- No stream handler moves its connection away. -/
def KeepsStreams : Prop :=
  ∀ route ∈ server.routes, ∀ streamHandler, route.target = .stream streamHandler →
    ∀ request, (streamHandler request).CallsOnly SseOp.Keeps

/-- One stream of a registered handler: its preamble, and the frames of the events that the handler
sends while the stream is alive. -/
def WroteStream (sent : Bytes) : Prop :=
  ∃ route ∈ server.routes, ∃ streamHandler, route.target = .stream streamHandler ∧
    ∃ (request : HttpRequest M) (extraHeaders : HeaderMap M) (stream : SseConnection × Endpoint),
      stream.1.alive = true ∧ sent = SseConnection.preamble extraHeaders.map ++
        frames (sentEvents ((streamHandler request).calls sseCall stream))

/-! ### The two kinds of states -/

/-- Nothing has been written, and the connection is open. -/
structure Untouched (s : ChainState) : Prop where
  /-- The connection is open. -/
  isOpen : s.connection.isOpen = true
  /-- The socket accepts writes. -/
  accepts : s.endpoint.AcceptsWrites
  /-- The descriptor is open. -/
  not_closed : s.endpoint.closed = false
  /-- Nothing has been sent. -/
  sent_eq : s.endpoint.sent = []

/-- One stream has been written, and its connection is closed. -/
structure Streamed (s : ChainState) : Prop where
  /-- The connection was moved away. -/
  not_isOpen : s.connection.isOpen = false
  /-- The descriptor is closed. -/
  closed : s.endpoint.closed = true
  /-- One stream was written. -/
  wrote : server.WroteStream s.endpoint.sent

variable {server} {request : HttpRequest M} {response : HttpResponse M} {s : ChainState}

/-- A stream on a connection that was moved away leaves a streamed state as it is. -/
theorem endOfChain_streamed (h : server.Streamed s) :
    server.Streamed (server.endOfChain request response s).state := by
  rcases enters_or server request s with ⟨streamHandler, request', henters⟩ | hnot
  · obtain ⟨hnew, hendpoint⟩ := SseConnection.disconnected_new h.not_isOpen response.headers.map
      s.endpoint
    obtain ⟨hrun, hsame⟩ := hnew.run (p := streamHandler request')
    rw [(endOfChain_of_enters response henters).2]
    have hfinal := hrun.destroy.trans (hsame.trans hendpoint)
    exact ⟨rfl, (congrArg Endpoint.closed hfinal).trans h.closed,
      (congrArg Endpoint.sent hfinal).symm ▸ h.wrote⟩
  · obtain ⟨-, hconnection, hendpoint⟩ := endOfChain_of_not_enters response hnot
    exact ⟨hconnection ▸ h.not_isOpen, hendpoint ▸ h.closed, hendpoint ▸ h.wrote⟩

/-- The end of the chain leaves an untouched state untouched, and says so, or streams. -/
theorem endOfChain_untouched (hkeep : server.KeepsStreams) (h : Untouched s) :
    (Untouched (server.endOfChain request response s).state ∧
      (server.endOfChain request response s).result ≠ .ok true) ∨
    server.Streamed (server.endOfChain request response s).state := by
  rcases enters_or server request s with ⟨streamHandler, request', henters⟩ | hnot
  · obtain ⟨route, hroute, htarget⟩ := Router.mem_of_matchStream henters.1
    obtain ⟨hnew, hpreamble⟩ := SseConnection.streaming_new h.isOpen h.accepts h.not_closed
      response.headers.map
    obtain ⟨hrun, hsent⟩ := hnew.run (hkeep route hroute streamHandler htarget request')
    obtain ⟨hclosed, hfinal⟩ := hrun.destroy
    rw [(endOfChain_of_enters response henters).2]
    refine Or.inr ⟨rfl, hclosed, route, hroute, streamHandler, htarget, request', response.headers,
      startStream response s, hnew.alive_eq.trans h.isOpen, ?_⟩
    rw [h.sent_eq, List.nil_append] at hpreamble
    exact hfinal.trans (hsent.trans (congrArg (· ++ _) hpreamble))
  · obtain ⟨hresult, hconnection, hendpoint⟩ := endOfChain_of_not_enters response hnot
    exact Or.inl ⟨⟨hconnection ▸ h.isOpen, hendpoint ▸ h.accepts, hendpoint ▸ h.not_closed,
      hendpoint ▸ h.sent_eq⟩, hresult⟩

/-! ### The chain -/

/-- **The chain streams once or leaves the connection alone.** -/
theorem runChain_one_stream (hkeep : server.KeepsStreams) (middlewares : List (MiddlewareFn M))
    (request : HttpRequest M) (response : HttpResponse M) (s : ChainState) :
    (server.Streamed s → server.Streamed (server.runChain middlewares request response s).state) ∧
    (Untouched s →
      (Untouched (server.runChain middlewares request response s).state ∧
        (server.runChain middlewares request response s).result ≠ .ok true) ∨
      server.Streamed (server.runChain middlewares request response s).state) := by
  refine ⟨runChain_invariant (fun request response t ht ↦ endOfChain_streamed ht) middlewares
    request response s, fun h ↦ ?_⟩
  induction middlewares generalizing request response s with
  | nil => exact endOfChain_untouched hkeep h
  | cons middleware rest ih =>
    obtain ⟨hresult, hstate⟩ := runChain_cons server middleware rest request response s
    rw [hresult, hstate]
    -- the flag of this level is still clear as long as nothing has been streamed
    have hinv := Interaction.run_invariant
      (p := (middleware request response)) (h := nextCall (server.runChain rest)) (s := (false, s))
      (I := fun t : Bool × ChainState ↦ (Untouched t.2 ∧ t.1 = false) ∨ server.Streamed t.2) ?_
      (Or.inl ⟨h, rfl⟩)
    · rcases hinv with ⟨huntouched, hflag⟩ | hstreamed
      · refine Or.inl ⟨huntouched, ?_⟩
        rw [hflag]
        rcases ((middleware request response).run (nextCall (server.runChain rest))
          (false, s)).1.1 with e | -
        · simp [Except.map]
        · simp [Except.map]
      · exact Or.inr hstreamed
    · rintro call ⟨streamed, t⟩ ht
      rw [nextCall_state, nextCall_flag]
      rcases ht with ⟨huntouched, hflag⟩ | hstreamed
      · rcases ih call.1 call.2 t huntouched with ⟨hrest, hnot⟩ | hrest
        · refine Or.inl ⟨hrest, ?_⟩
          show ((server.runChain rest call.1 call.2 t).result.toOption).getD streamed = false
          rcases hres : (server.runChain rest call.1 call.2 t).result with e | b
          · exact hflag
          · cases b with
            | false => rfl
            | true => exact absurd hres hnot
        · exact Or.inr hrest
      · exact Or.inr (runChain_invariant (fun request response t ht ↦ endOfChain_streamed ht) rest
          call.1 call.2 t hstreamed)

/-- Under a server that throws nothing else, the chain throws `std::exception`s only. -/
theorem runChain_onlyStd (hstd : server.ThrowsStd) {middlewares : List (MiddlewareFn M)}
    (hsub : ∀ m ∈ middlewares, m ∈ server.middleware) (request : HttpRequest M)
    (response : HttpResponse M) (s : ChainState) :
    OnlyStd (server.runChain middlewares request response s).result := by
  induction middlewares generalizing request response s with
  | nil =>
    show OnlyStd (server.endOfChain request response s).result
    rcases enters_or server request s with ⟨streamHandler, request', henters⟩ | hnot
    · obtain ⟨route, hroute, htarget⟩ := Router.mem_of_matchStream henters.1
      rw [(endOfChain_of_enters response henters).1]
      exact ((hstd.stream route hroute streamHandler htarget request').run
        fun op s ↦ trivial).map _
    · intro e he
      rw [endOfChain] at he
      split at he
      · rename_i streamHandler request' hmatch
        rw [if_pos (Nat.le_of_not_lt fun hlt ↦ hnot streamHandler request' ⟨hmatch, hlt⟩)] at he
        exact absurd he (by simp)
      · split at he
        · rename_i hdispatch
          obtain rfl := Except.error.inj he
          obtain ⟨route, hroute, handler, htarget, request', hthrows⟩ :=
            Router.error_of_dispatch (congrArg Prod.fst hdispatch)
          exact hstd.normal route hroute handler htarget request' response _ hthrows
        all_goals exact absurd he (by simp)
  | cons middleware rest ih =>
    rw [(runChain_cons server middleware rest request response s).1]
    refine OnlyStd.map ?_ _
    refine (hstd.middleware middleware (hsub middleware List.mem_cons_self) request response).run ?_
    intro call t
    rw [nextCall_result]
    exact (ih (fun m hm ↦ hsub m (List.mem_cons_of_mem _ hm)) call.1 call.2 t.2).map _

/-! ### The connection -/

/-- Closing a connection that is not open changes nothing. -/
theorem closeConnection_of_not_isOpen (h : s.connection.isOpen = false) :
    closeConnection s = s := by
  rw [closeConnection, Connection.close_of_not_isOpen (by simp [h])]

/-- In an untouched state a response is written and the descriptor is closed. -/
theorem answer_untouched (h : Untouched s) (response : HttpResponse M) :
    (closeConnection (sendResponse response s)).connection.isOpen = false ∧
      (closeConnection (sendResponse response s)).endpoint.closed = true ∧
      (closeConnection (sendResponse response s)).endpoint.sent =
        HttpSerializer.serialize response := by
  obtain ⟨endpoint, hsend, hwrote⟩ := Connection.sendAll_of_acceptsWrites h.isOpen h.accepts
    (HttpSerializer.serialize response)
  have hopen : (sendResponse response s).connection.isOpen := h.isOpen
  rw [closeConnection, Connection.close_of_isOpen hopen, sendResponse, hsend]
  refine ⟨rfl, rfl, ?_⟩
  show endpoint.sent = _
  rw [hwrote.sent, h.sent_eq, List.nil_append]

/-- In a streamed state a response goes nowhere. -/
theorem answer_streamed (h : server.Streamed s) (response : HttpResponse M) :
    closeConnection (sendResponse response s) = s := by
  have hsend : sendResponse response s = s := by
    rw [sendResponse, Connection.sendAll_of_not_isOpen (by simp [h.not_isOpen])]
  rw [hsend, closeConnection_of_not_isOpen h.not_isOpen]

/-- The bytes on the wire after a request was handled: the response the chain left, the 500 of the
`catch` block, or one stream. -/
def WroteOne (server : Server M) (e : ChainEnd M) (sent : Bytes) : Prop :=
  (e.result = .ok false ∧ sent = HttpSerializer.serialize e.response) ∨
  ((∃ exn, e.result = .error exn) ∧
    sent = HttpSerializer.serialize (internalServerError : HttpResponse M)) ∨
  server.WroteStream sent

/-- After a request has been parsed, one response or one stream is written, and the descriptor is
closed. -/
theorem respond_untouched (hstd : server.ThrowsStd) (hkeep : server.KeepsStreams)
    (h : Untouched s) (request : HttpRequest M) :
    (server.respond request s).1 = none ∧
      (server.respond request s).2.connection.isOpen = false ∧
      (server.respond request s).2.endpoint.closed = true ∧
      server.WroteOne (server.runChain server.middleware request (.new .ok) s)
        (server.respond request s).2.endpoint.sent := by
  have hone := (runChain_one_stream hkeep server.middleware request (.new .ok) s).2 h
  have honly := runChain_onlyStd hstd (fun _ hm ↦ hm) request (.new .ok) s
  rw [respond]
  generalize server.runChain server.middleware request (.new .ok) s = e at hone honly
  -- an answer ends the connection in both kinds of states
  have hanswer : ∀ response : HttpResponse M,
      (closeConnection (sendResponse response e.state)).connection.isOpen = false ∧
      (closeConnection (sendResponse response e.state)).endpoint.closed = true ∧
      ((closeConnection (sendResponse response e.state)).endpoint.sent =
          HttpSerializer.serialize response ∨
        server.WroteStream (closeConnection (sendResponse response e.state)).endpoint.sent) := by
    intro response
    rcases hone with ⟨huntouched, -⟩ | hstreamed
    · obtain ⟨hopen, hclosed, hsent⟩ := answer_untouched huntouched response
      exact ⟨hopen, hclosed, Or.inl hsent⟩
    · rw [answer_streamed hstreamed]
      exact ⟨hstreamed.not_isOpen, hstreamed.closed, Or.inr hstreamed.wrote⟩
  rcases hresult : e.result with exn | b
  · obtain ⟨hopen, hclosed, hsent⟩ := hanswer internalServerError
    cases exn with
    | std what =>
      refine ⟨rfl, hopen, hclosed, ?_⟩
      rcases hsent with hsent | hsent
      · exact Or.inr (Or.inl ⟨⟨_, hresult⟩, hsent⟩)
      · exact Or.inr (Or.inr hsent)
    | other => exact absurd (honly _ hresult) (by decide)
  · cases b with
    | false =>
      obtain ⟨hopen, hclosed, hsent⟩ := hanswer e.response
      refine ⟨rfl, hopen, hclosed, ?_⟩
      rcases hsent with hsent | hsent
      · exact Or.inl ⟨hresult, hsent⟩
      · exact Or.inr (Or.inr hsent)
    | true =>
      rcases hone with ⟨-, hnot⟩ | hstreamed
      · exact absurd hresult hnot
      · exact ⟨rfl, hstreamed.not_isOpen, hstreamed.closed, Or.inr (Or.inr hstreamed.wrote)⟩

/-- The state in which a request is handed to the chain: its bytes have been received. -/
def afterRead (server : Server M) (s : ChainState) : ChainState :=
  { s with endpoint := { s.endpoint with
      incoming := (readRequest server.caps s.endpoint.incoming (M := M)).2 } }

/-- What is done with what was read. -/
def settle (server : Server M) (s : ChainState) : ReadOutcome M → Option Exn × ChainState
  | .closed => (none, closeConnection s)
  | .rejected response => (none, closeConnection (sendResponse response s))
  | .request request => server.respond request s

/-- **Handling an open connection**: it is read, what was read is settled, and the destructor closes
what is still open. -/
theorem handleConnection_of_isOpen {server : Server M} {s : ChainState}
    (hopen : s.connection.isOpen) {outcome : ReadOutcome M}
    (h : (readRequest server.caps s.endpoint.incoming).1 = outcome) :
    server.handleConnection s =
      ((server.settle (afterRead server s) outcome).1,
        closeConnection (server.settle (afterRead server s) outcome).2) := by
  subst h
  rw [handleConnection, if_neg (not_not_intro hopen), afterRead]
  rcases readRequest server.caps s.endpoint.incoming (M := M) with ⟨outcome, incoming⟩
  cases outcome with
  | closed => rfl
  | rejected response => rfl
  | request request => rfl

/-- **At most one response on a connection.** On a fresh connection whose socket accepts writes, a
complete request is answered by exactly one serialized response, the chain's own or the 500, or by
exactly one stream; and the descriptor is closed. -/
theorem handleConnection_one_response (server : Server M) (s : ChainState)
    (request : HttpRequest M) (hfresh : Untouched s)
    (hcomplete : (readRequest server.caps s.endpoint.incoming).1 = .request request)
    (hstd : server.ThrowsStd) (hkeep : server.KeepsStreams) :
    (server.handleConnection s).1 = none ∧
      (server.handleConnection s).2.endpoint.closed = true ∧
      server.WroteOne
        (server.runChain server.middleware request (.new .ok) (afterRead server s))
        (server.handleConnection s).2.endpoint.sent := by
  have hread : Untouched (afterRead server s) :=
    ⟨hfresh.isOpen, hfresh.accepts, hfresh.not_closed, hfresh.sent_eq⟩
  obtain ⟨hescaped, hopen, hclosed, hwrote⟩ := respond_untouched hstd hkeep hread request
  have hhandle : server.handleConnection s =
      ((server.respond request (afterRead server s)).1,
        closeConnection (server.respond request (afterRead server s)).2) :=
    handleConnection_of_isOpen hfresh.isOpen hcomplete
  rw [hhandle, closeConnection_of_not_isOpen hopen]
  exact ⟨hescaped, hclosed, hwrote⟩

/-! ### A server on concrete input -/

/-- A stream handler that sends one event and throws. -/
def tickThenThrow : StreamHandler BytesMap := fun _ ↦
  .call (.send (ascii "tick") (ascii "1")) fun _ ↦ .done (.error (.std (ascii "lost")))

/-- A server with the recovery middleware and one stream route. -/
def tickServer : Server BytesMap where
  routes := [⟨.get, ascii "/events", .stream tickThenThrow⟩]
  middleware := [recovery]
  caps := smallCaps
  maxStreamingConnections := 1
  maxStreamingConnections_pos := Nat.one_pos

/-- A connection that delivers a request for the stream. -/
def tickState : ChainState where
  connection := ⟨⟨some 3⟩⟩
  endpoint :=
    { incoming := [⟨ascii "GET /events HTTP/1.1\r\n\r\n", by decide +kernel, by decide +kernel⟩]
      ending := .eof
      sendResults := [7]
      sent := []
      closed := false }
  fetched := []
  counterOps := []

/-- The request it delivers. -/
def tickRequest : HttpRequest BytesMap :=
  { (.new : HttpRequest BytesMap) with method := .get, path := ascii "/events" }

theorem tickServer_throwsStd : tickServer.ThrowsStd where
  middleware m hm request response := by
    obtain rfl := List.mem_singleton.1 hm
    refine (recovery_ensures_ok request response _).mono fun r hr ↦ ?_
    rw [hr]
    exact onlyStd_ok ()
  normal route hroute handler htarget := by
    obtain rfl := List.mem_singleton.1 hroute
    exact absurd htarget (by simp)
  stream route hroute streamHandler htarget request := by
    obtain rfl := List.mem_singleton.1 hroute
    obtain rfl := RouteTarget.stream.inj htarget
    rintro sent - e he
    obtain rfl := Except.error.inj he
    rfl

theorem tickServer_keepsStreams : tickServer.KeepsStreams := by
  intro route hroute streamHandler htarget request
  obtain rfl := List.mem_singleton.1 hroute
  obtain rfl := RouteTarget.stream.inj htarget
  exact ⟨SseOp.noConfusion, fun _ ↦ trivial⟩

theorem handleConnection_tickState :
    (tickServer.handleConnection tickState).1 = none ∧
      (tickServer.handleConnection tickState).2.endpoint.closed = true := by
  have hbody : ReadOutcome.handedBody?
      (readRequest tickServer.caps tickState.endpoint.incoming (M := BytesMap)).1 = some [] := by
    decide +kernel
  obtain ⟨request, hcomplete, -⟩ := ReadOutcome.exists_of_handedBody? hbody
  have h := handleConnection_one_response tickServer tickState request
    ⟨rfl, by decide, rfl, rfl⟩ hcomplete tickServer_throwsStd tickServer_keepsStreams
  exact ⟨h.1, h.2.1⟩

/-- What is written is the preamble and the frame of the event, and no response. -/
example : (tickServer.handleConnection tickState).2.endpoint.sent =
    SseConnection.preamble (FiniteMap.empty : BytesMap) ++
      ascii "event: tick\ndata: 1\n\n" := by
  decide +kernel

end Server

end FalconHTTP
