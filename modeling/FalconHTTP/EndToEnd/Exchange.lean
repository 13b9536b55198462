import FalconHTTP.EndToEnd.Parties

/-!
# A call from the client to the server

`HttpClient::send` and `Server::handleConnection` at the two ends of one connection, as an
`Exchange` of the library: the client writes the bytes of `buildRequest`, the server reads them and
writes its reply, and the client reads that. The writes may be partial, the reads may cut the
streams anywhere, the steps of the two sides interleave, each direction holds at most `room` bytes,
and the connection may break or time out at any point.

* `exchange_refines`: whatever is written, each side does in the exchange what `handleConnection`
  and `send` do with the chunks it has read.
* `exchange_safe`: a call that can be written (`Call`) and that fits the server and the client
  (`Call.Fits`) is handled at most once, and as it was made; a response that the client returns is
  the server's answer to it.
* `exchange_completes`: the exchange of such a call ends after a bounded number of steps, and unless
  the connection breaks it ends with the answer at the client.

The server has no stream routes here, and throws nothing but `std::exception`s.
-/

namespace FalconHTTP

open FiniteMap HttpClient

variable {M : Type} [FiniteMap M Bytes Bytes]

/-- A client and a server on one connection. -/
def exchange (server : Server M) (options : ClientOptions) (request : Bytes) (room : ℕ)
    (hroom : 0 < room) :
    Exchange UInt8 (Chunk defaultReadChunk) (ReadPoint M) (ResponsePoint M) (ReadOutcome M)
      (Option (ClientResponse M)) where
  pieces := chunkPieces
  request := request
  server := requestReader M server.caps
  reply := server.replyTo
  client := responseReader M options.maxResponseSize
  unsent := none
  room := room
  room_pos := hroom

/-- The state of such an exchange. -/
abbrev ExchangePoint (M : Type) [FiniteMap M Bytes Bytes] :=
  ExchangeState UInt8 (Chunk defaultReadChunk) (ReadOutcome M) (Option (ClientResponse M))

/-! ### Calls -/

/-- A serialized response is not empty. -/
theorem HttpSerializer.serialize_ne_nil (response : HttpResponse M) :
    HttpSerializer.serialize response ≠ [] := by
  rw [serialize_eq]
  simp

/-- A call that the client can write as it is. -/
structure Call (M : Type) [FiniteMap M Bytes Bytes] where
  /-- The method. -/
  method : HttpMethod
  /-- The address. -/
  host : Bytes
  /-- The port. -/
  port : UInt16
  /-- The path. -/
  path : Bytes
  /-- The body. -/
  body : Bytes
  /-- The caller's headers. -/
  headers : M
  /-- Nothing in it is read as something else. -/
  safe : WireSafe host path headers

namespace Call

variable (call : Call M)

/-- What the client writes. -/
def bytes : Bytes :=
  buildRequest call.method call.host call.port call.path call.body call.headers

/-- What the server is to read. -/
def request : HttpRequest M :=
  sentRequest call.method call.host call.port call.path call.body call.headers

/-- The server answers, it does not stream; the call fits its caps, and the answer the limit of the
client; the headers of the answer can be written as they are. -/
structure Fits (server : Server M) (options : ClientOptions) : Prop where
  /-- No stream route is registered. -/
  noStreams : server.NoStreams
  /-- Nothing but `std::exception`s is thrown. -/
  throwsStd : server.ThrowsStd
  /-- The head of the request. -/
  header : call.bytes.length - call.body.length ≤ server.caps.maxHeaderSize
  /-- The body of the request. -/
  body : call.body.length ≤ server.caps.maxBodySize
  /-- The headers of the answer. -/
  headers : ∀ name value, find? (server.answer call.request).headers.map name = some value →
    HeaderSafe name value
  /-- The size of the answer. -/
  size : (HttpSerializer.serialize (server.answer call.request)).length ≤ options.maxResponseSize

variable {call}

/-- The messages of a call that fits are delimited. -/
theorem Fits.delimited {server : Server M} {options : ClientOptions} (h : call.Fits server options)
    (room : ℕ) (hroom : 0 < room) :
    (exchange server options call.bytes room hroom).Delimited (.request call.request) .closed
      (some (receivedResponse (server.answer call.request))) where
  request := delimits_buildRequest call.safe h.header h.body
  reply := delimits_serialize (fun name value hstored ↦ (h.headers name value hstored).readable)
    h.size
  reply_ne_nil := HttpSerializer.serialize_ne_nil _
  reply_lost := rfl

end Call

/-! ### A call on concrete input -/

/-- A server with one route, behind the recovery middleware. -/
def helloServer : Server BytesMap where
  routes := [⟨.get, ascii "/hello", .normal fun _ response ↦
    (.ok (), response.setBody (ascii "hi"))⟩]
  middleware := [recovery]
  caps := ⟨128, 8, by decide, by decide⟩
  maxStreamingConnections := 1
  maxStreamingConnections_pos := Nat.one_pos

theorem helloServer_noStreams : helloServer.NoStreams := by
  intro route hroute
  obtain rfl := List.mem_singleton.1 hroute
  exact ⟨_, rfl⟩

theorem helloServer_throwsStd : helloServer.ThrowsStd where
  middleware m hm request response := by
    obtain rfl := List.mem_singleton.1 hm
    refine (recovery_ensures_ok request response _).mono fun r hr ↦ ?_
    rw [hr]
    exact onlyStd_ok ()
  normal route hroute handler htarget request response e he := by
    obtain rfl := List.mem_singleton.1 hroute
    obtain rfl := RouteTarget.normal.inj htarget
    cases he
  stream route hroute streamHandler htarget request := by
    obtain rfl := List.mem_singleton.1 hroute
    exact absurd htarget (by simp)

/-- A call of its route. -/
def helloCall : Call BytesMap where
  method := .get
  host := ascii "127.0.0.1"
  port := 80
  path := ascii "/hello"
  body := []
  headers := FiniteMap.empty
  safe :=
    { host_dotted := by decide +kernel
      space_notMem := by decide +kernel
      query_notMem := by decide +kernel
      cr_notMem := by decide +kernel
      plain := fun name value h ↦ absurd ((find?_empty name).symm.trans h) (by simp)
      distinct := fun n₁ v₁ n₂ v₂ h₁ _ _ ↦ absurd ((find?_empty n₁).symm.trans h₁) (by simp) }

/-- A client with a limit of one kilobyte. -/
def helloOptions : ClientOptions := ⟨1024, by decide⟩

theorem helloCall_fits : helloCall.Fits helloServer helloOptions where
  noStreams := helloServer_noStreams
  throwsStd := helloServer_throwsStd
  header := by decide +kernel
  body := by decide +kernel
  headers name value h := by
    have hempty : entries (helloServer.answer helloCall.request).headers.map = [] := by
      decide +kernel
    have hmem : (name, value) ∈ entries (helloServer.answer helloCall.request).headers.map :=
      mem_entries.2 h
    rw [hempty] at hmem
    exact absurd hmem List.not_mem_nil
  size := by decide +kernel

/-- The call, with at most fifty bytes in flight. -/
def helloExchange :
    Exchange UInt8 (Chunk defaultReadChunk) (ReadPoint BytesMap) (ResponsePoint BytesMap)
      (ReadOutcome BytesMap) (Option (ClientResponse BytesMap)) :=
  exchange helloServer helloOptions helloCall.bytes 50 (by decide)

/-- The answer on the wire. -/
def helloAnswer : Bytes :=
  HttpSerializer.serialize (helloServer.answer helloCall.request)

/-- The first chunk of the call. -/
def helloCallFront : Chunk defaultReadChunk :=
  ⟨helloCall.bytes.take 50, by decide +kernel, by decide +kernel⟩

/-- The rest of the call. -/
def helloCallBack : Chunk defaultReadChunk :=
  ⟨helloCall.bytes.drop 50, by decide +kernel, by decide +kernel⟩

/-- The first chunk of the answer. -/
def helloAnswerFront : Chunk defaultReadChunk :=
  ⟨helloAnswer.take 50, by decide +kernel, by decide +kernel⟩

/-- The rest of the answer. -/
def helloAnswerBack : Chunk defaultReadChunk :=
  ⟨helloAnswer.drop 50, by decide +kernel, by decide +kernel⟩

/-- A run in which the server reads while the client still writes, and closes before the client has
read everything. -/
def helloRun : List (ExchangeAction (Chunk defaultReadChunk)) :=
  [.clientWrite 50, .serverRead helloCallFront, .clientWrite (helloCall.bytes.length - 50),
    .clientTurn, .serverRead helloCallBack, .serverWrite 50, .clientRead helloAnswerFront,
    .serverWrite (helloAnswer.length - 50), .serverClose, .clientRead helloAnswerBack]

theorem run_helloRun : ∃ s, helloExchange.system.run helloRun = some s ∧
    s.client = .returned ∧ s.server = .closed ∧ s.broken = false ∧ s.handled.length = 1 := by
  have hrun : (helloExchange.system.run helloRun).map (fun s ↦
      (s.client, s.server, s.broken, s.handled.length)) = some (.returned, .closed, false, 1) := by
    decide +kernel
  obtain ⟨s, hs, hparts⟩ := Option.map_eq_some_iff.1 hrun
  simp only [Prod.mk.injEq] at hparts
  exact ⟨s, hs, hparts⟩

/-! ### The steps are those of the code -/

section Refinement

variable {server : Server M} {options : ClientOptions} {request : Bytes} {room : ℕ}
  {hroom : 0 < room} {as : List (ExchangeAction (Chunk defaultReadChunk))} {s : ExchangePoint M}

/-- What the server does with the chunks it has taken is what `handleConnection` does with them. -/
theorem handleConnection_of_handled (hno : server.NoStreams) (hstd : server.ThrowsStd)
    {outcome : ReadOutcome M} (h : (exchange server options request room hroom).Handled s outcome)
    {t : ChainState} (hopen : t.connection.isOpen) (haccepts : t.endpoint.AcceptsWrites)
    (hincoming : t.endpoint.incoming = s.taken) (hsent : t.endpoint.sent = []) :
    (readRequest server.caps s.taken).1 = outcome ∧ (server.handleConnection t).1 = none ∧
      (server.handleConnection t).2.endpoint.closed = true ∧
      (server.handleConnection t).2.endpoint.sent =
        Chunks.stream s.received ++ s.toClient ++ s.toReply := by
  obtain ⟨e, hread⟩ := h.read
  have hrequest : (readRequest server.caps s.taken).1 = outcome := by
    rw [hread]
    exact (read_requestReader s.taken e).symm
  obtain ⟨hescaped, hclosed, accepted, hwritten, -, hall⟩ :=
    Server.handleConnection_of_outcome hno hstd hopen (hincoming ▸ hrequest)
  refine ⟨hrequest, hescaped, hclosed, ?_⟩
  rw [hwritten, hsent, List.nil_append, hall haccepts]
  have hreply := h.reply_eq
  rw [show (exchange server options request room hroom).pieces = chunkPieces from rfl,
    stream_chunkPieces] at hreply
  exact hreply.symm

/-- What the client makes of the chunks it has received is what the receive loop makes of them. -/
theorem receiveLoop_of_returned {result : Option (ClientResponse M)}
    (h : (exchange server options request room hroom).Returned s result) :
    (s.toWrite = [] ∧ ∃ ending,
      result = HttpClient.receiveLoop options.maxResponseSize ending s.received .start) ∨
    (s.broken = true ∧ s.received = [] ∧ result = none) := by
  rcases h.read with ⟨hwritten, e, hread⟩ | ⟨hunsent, hreceived, hbroken⟩
  · exact Or.inl ⟨hwritten, streamEnd e, hread.trans (read_responseReader s.received e)⟩
  · exact Or.inr ⟨hbroken, hreceived, hunsent⟩

/-- **The exchange refines the code of both sides.** In every run, whatever bytes the client writes:

* the server replies at most once, to what `readRequest` makes of the chunks it has taken, and on a
  socket that delivers these chunks `handleConnection` writes the bytes that the client has
  received, that are in flight and that are left;
* a result of the client, which has written everything, is what `send` returns on a socket that
  delivers the chunks it has received; or the connection broke before anything was received, and
  the client returned nothing. -/
theorem exchange_refines (server : Server M) (hno : server.NoStreams) (hstd : server.ThrowsStd)
    (options : ClientOptions) (method : HttpMethod) (host : Bytes) (port : UInt16)
    (path body : Bytes) (headers : M) (room : ℕ) (hroom : 0 < room)
    (as : List (ExchangeAction (Chunk defaultReadChunk))) (s : ExchangePoint M)
    (h : (exchange server options (buildRequest method host port path body headers) room
      hroom).system.run as = some s) :
    s.handled.length ≤ 1 ∧
    (∀ outcome ∈ s.handled, (readRequest server.caps s.taken).1 = outcome ∧
      ∀ t : ChainState, t.connection.isOpen → t.endpoint.AcceptsWrites →
        t.endpoint.incoming = s.taken → t.endpoint.sent = [] →
        (server.handleConnection t).1 = none ∧
          (server.handleConnection t).2.endpoint.closed = true ∧
          (server.handleConnection t).2.endpoint.sent =
            Chunks.stream s.received ++ s.toClient ++ s.toReply) ∧
    ∀ result, s.result = some result →
      (s.toWrite = [] ∧ ∃ ending, ∀ peer : Peer, Ready peer → peer.endpoint.AcceptsWrites →
        peer.endpoint.incoming = s.received → peer.endpoint.ending = ending →
        (send options peer method host port path body headers).1 = result) ∨
      (s.broken = true ∧ s.received = [] ∧ result = none) := by
  have hinv := Exchange.inv_of_run h
  refine ⟨?_, fun outcome houtcome ↦ ?_, fun result hresult ↦ ?_⟩
  · by_cases hserver : s.server = .reading
    · rw [(hinv.server.reading hserver).1]
      exact Nat.zero_le _
    · obtain ⟨outcome, hr⟩ := hinv.handled hserver
      rw [hr.handled_eq]
      exact Nat.le_refl _
  · have hserver : s.server ≠ .reading := fun hreading ↦ by
      rw [(hinv.server.reading hreading).1] at houtcome
      exact absurd houtcome List.not_mem_nil
    obtain ⟨outcome', hr⟩ := hinv.handled hserver
    rw [hr.handled_eq] at houtcome
    obtain rfl := List.mem_singleton.1 houtcome
    obtain ⟨e, hread⟩ := hr.read
    refine ⟨?_, fun t hopen haccepts hincoming hsent ↦
      (handleConnection_of_handled hno hstd hr hopen haccepts hincoming hsent).2⟩
    rw [hread]
    exact (read_requestReader s.taken e).symm
  · rcases hclient : s.client with - | - | -
    · exact absurd ((hinv.client.writing hclient).1.symm.trans hresult) (by simp)
    · exact absurd ((hinv.client.reading hclient).1.symm.trans hresult) (by simp)
    · obtain ⟨result', hb⟩ := hinv.client.returned hclient
      obtain rfl := Option.some.inj (hresult.symm.trans hb.result_eq)
      rcases receiveLoop_of_returned hb with ⟨hwritten, ending, hloop⟩ | hfailed
      · refine Or.inl ⟨hwritten, ending, fun peer hready haccepts hincoming hending ↦ ?_⟩
        rw [send_fst_of_acceptsWrites hready haccepts, hincoming, hending, hloop]
      · exact Or.inr hfailed

theorem exchange_refines_helloRun : ∃ s outcome, helloExchange.system.run helloRun = some s ∧
    outcome ∈ s.handled ∧ (readRequest helloServer.caps s.taken).1 = outcome := by
  obtain ⟨s, hs, -, -, -, hone⟩ := run_helloRun
  obtain ⟨outcome, hhandled⟩ := List.length_eq_one_iff.1 hone
  have hmem : outcome ∈ s.handled := by rw [hhandled]; exact List.mem_singleton_self outcome
  obtain ⟨-, hread, -⟩ := exchange_refines helloServer helloServer_noStreams helloServer_throwsStd
    helloOptions helloCall.method helloCall.host helloCall.port helloCall.path helloCall.body
    helloCall.headers 50 (by decide) helloRun s hs
  exact ⟨s, outcome, hs, hmem, (hread outcome hmem).1⟩

end Refinement

/-! ### What a call comes to -/

section Calls

variable {server : Server M} {options : ClientOptions} {call : Call M} {room : ℕ}
  {as : List (ExchangeAction (Chunk defaultReadChunk))} {s : ExchangePoint M}

/-- **Safety of a call** that fits. In every run, at whatever point the connection breaks: the
server has handed on the call at most once, as it was made, and no other request; and a response
that the client has returned is the server's answer to the call, which it has handed on. -/
theorem exchange_safe (hfits : call.Fits server options) (hroom : 0 < room)
    (h : (exchange server options call.bytes room hroom).system.run as = some s) :
    (s.handled = [] ∨ s.handled = [.request call.request] ∨ s.handled = [.closed]) ∧
      ∀ response, s.result = some (some response) →
        response = receivedResponse (server.answer call.request) ∧
          s.handled = [.request call.request] := by
  obtain ⟨hhandled, hresult⟩ := Exchange.safe_of_run (hfits.delimited room hroom) h
  refine ⟨hhandled, fun response hresponse ↦ ?_⟩
  rcases hresult _ hresponse with ⟨heq, hone⟩ | hnone
  · exact ⟨Option.some.inj heq, hone⟩
  · exact absurd hnone (by simp [exchange])

theorem exchange_safe_helloRun : ∃ s, helloExchange.system.run helloRun = some s ∧
    ∀ response, s.result = some (some response) → response.body = ascii "hi" := by
  obtain ⟨s, hs, -⟩ := run_helloRun
  refine ⟨s, hs, fun response hresponse ↦ ?_⟩
  obtain ⟨rfl, -⟩ := (exchange_safe helloCall_fits (by decide) hs).2 response hresponse
  show (helloServer.answer helloCall.request).body = _
  decide +kernel

/-- **A call completes** if it fits. Every run is bounded by the bytes of the request and the
answer, and as long as one of the sides is not done one of them can go on. When neither can, both
are done; and unless the connection broke the call was handed on once, and the client has the
answer. -/
theorem exchange_completes (hfits : call.Fits server options) (hroom : 0 < room)
    (h : (exchange server options call.bytes room hroom).system.run as = some s) :
    as.length ≤ 2 * call.bytes.length +
        2 * (HttpSerializer.serialize (server.answer call.request)).length + 5 ∧
      ((∀ a, a.ofParty → (exchange server options call.bytes room hroom).system.step s a = none) →
        s.client = .returned ∧ s.server = .closed ∧
          (s.broken = false → s.handled = [.request call.request] ∧
            s.result = some (some (receivedResponse (server.answer call.request))))) := by
  refine ⟨Exchange.length_le_of_run (hfits.delimited room hroom) h, fun hstuck ↦ ?_⟩
  obtain ⟨⟨hclient, hserver⟩, hanswer⟩ :=
    Exchange.final_of_stuck (hfits.delimited room hroom) h hstuck
  exact ⟨hclient, hserver, hanswer⟩

theorem exchange_completes_helloRun : ∃ s, helloExchange.system.run helloRun = some s ∧
    s.handled = [.request helloCall.request] ∧
      s.result = some (some (receivedResponse (helloServer.answer helloCall.request))) := by
  obtain ⟨s, hs, hclient, hserver, hbroken, -⟩ := run_helloRun
  obtain ⟨-, hdone⟩ := exchange_completes helloCall_fits (by decide) hs
  obtain ⟨-, -, hanswer⟩ := hdone fun a hparty ↦ Exchange.step_of_final ⟨hclient, hserver⟩ hparty
  exact ⟨s, hs, hanswer hbroken⟩

end Calls

end FalconHTTP
