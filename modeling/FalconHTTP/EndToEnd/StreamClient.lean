import FalconHTTP.Client.ResponseIntegrity
import FalconHTTP.Client.ResponseRoundTrip
import FalconHTTP.EndToEnd.EventDelivery

/-!
# A stream read by the client

`HttpClient::send` knows nothing of event streams: it reads a head without a length, and then takes
all that comes before the end of the data for the body. So a call to a stream route returns when the
stream has ended, with the events in the body.

The client can read the preamble (`foldHead_streamHead`), and by `receiveLoop_stream` what it
returns of any part of a stream is determined by that part and by how the data ended. With the
delivery of events this gives `send_events`: a response that the client returns for a stream has the
headers that the middlewares set, and events that were delivered. It has all of them if the stream
has arrived completely; but a stream that was cut off looks like one that has ended.
-/

namespace FalconHTTP

open Occurrence Lines FiniteMap EventStream

variable {M : Type} [FiniteMap M Bytes Bytes]

namespace HttpClient

/-! ### The head of a stream -/

/-- The entries of a preamble. -/
def streamEntries (M : Type) [FiniteMap M Bytes Bytes] (set : List (Bytes × Bytes)) :
    List (Bytes × Bytes) :=
  preambleEntries ++ entries (withHeaders set : HttpResponse M).headers.map

/-- A name in lowercase is as safe. -/
theorem HeaderSafe.toLowerAscii {name value : Bytes} (h : HeaderSafe name value) :
    HeaderSafe (toLowerAscii name) value := by
  obtain ⟨hcolon, hcr, hspace, htab⟩ := h.notMem_name
  exact ⟨⟨notMem_toLowerAscii (by decide) hcolon, notMem_toLowerAscii (by decide) hcr,
    notMem_toLowerAscii (by decide) hspace, notMem_toLowerAscii (by decide) htab⟩,
    h.cr_notMem_value, h.head_value, h.last_value⟩

section Head

variable {set : List (Bytes × Bytes)} (hheaders : ∀ e ∈ set, HeaderSafe e.1 e.2)

include hheaders

/-- The client can read the lines of a preamble. -/
theorem readable_streamEntries {e : Bytes × Bytes} (he : e ∈ streamEntries M set) :
    Readable e := by
  have hfixed : ∀ d ∈ preambleEntries, Plain d ∧ (∀ c ∈ d.1, isBlank c = false ∧ c ≠ 13) ∧
      ∀ c ∈ d.2, isBlank c = false ∧ c ≠ 13 := by decide +kernel
  rcases List.mem_append.1 he with hpreamble | hstored
  · obtain ⟨hplain, hname, hvalue⟩ := hfixed e hpreamble
    exact ⟨hplain, trimmed_of_forall hname, trimmed_of_forall hvalue⟩
  · obtain ⟨hlower, hlast⟩ := mem_entries_withHeaders.1 hstored
    obtain ⟨d, hd, hname, hvalue⟩ := mem_of_lastValue hlast
    have hsafe := (hheaders d hd).toLowerAscii
    rw [hname, hvalue, hlower] at hsafe
    exact hsafe.readable

/-- The preamble as a head. -/
def streamHead : MessageHead :=
  headOfEntries (ascii "HTTP/1.1 200 OK") (streamEntries M set) (by decide +kernel)
    fun _ he ↦ (readable_streamEntries hheaders he).plain

theorem preamble_eq_encode :
    SseConnection.preamble (withHeaders set : HttpResponse M).headers.map =
      (streamHead (M := M) hheaders).encode := by
  rw [preamble_eq, List.append_nil]
  rfl

omit hheaders in
/-- A response that has an event stream for its body. -/
def streamResponse (set : List (Bytes × Bytes)) (body : Bytes) : ClientResponse M where
  statusCode := 200
  headers := assignAll FiniteMap.empty (streamEntries M set)
  body := body

/-- **The client reads the head of a stream.** -/
theorem foldHead_streamHead :
    foldHead (streamHead (M := M) hheaders) emptyResponse =
      some (streamResponse set [] : ClientResponse M) := by
  have hline : ascii "HTTP/1.1 200 OK" = statusLine .ok := by decide +kernel
  rw [foldHead]
  show (parseStatusLine (ascii "HTTP/1.1 200 OK") emptyResponse).bind _ = _
  rw [hline, parseStatusLine_statusLine]
  exact foldlM_parseHeadLine (fun e he ↦ readable_streamEntries hheaders he) _

end Head

section Headers

variable {set : List (Bytes × Bytes)} {body : Bytes}

/-- A header that the middlewares set has the last value it was set to. -/
theorem find?_streamResponse {name value : Bytes} (hlast : lastValue set name = some value) :
    find? (streamResponse set body : ClientResponse M).headers (toLowerAscii name) =
      some value := by
  have hdistinct := (withHeaders set : HttpResponse M).headers.pairwise_entries.imp
    fun hne heq ↦ hne (toLowerAscii_eq_iff.1 heq)
  have hstored := find?_assignAll_of_mem hdistinct
    (assignAll (FiniteMap.empty : M) preambleEntries) (mem_entries_of_lastValue hlast)
  rw [toLowerAscii_toLowerAscii] at hstored
  refine Eq.trans (congrArg (find? · _) ?_) hstored
  exact List.foldl_append

/-- A stream declares no length, unless a middleware does. -/
theorem find?_contentLength_streamResponse
    (hlength : ∀ e ∈ set, toLowerAscii e.1 ≠ ascii "content-length") :
    find? (streamResponse set body : ClientResponse M).headers (ascii "content-length") =
      none := by
  have hfixed : ∀ d ∈ preambleEntries, ascii "content-length" ≠ toLowerAscii d.1 := by
    decide +kernel
  refine (find?_assignAll_of_ne fun e he ↦ ?_).trans (find?_empty _)
  rcases List.mem_append.1 he with hpreamble | hstored
  · exact hfixed e hpreamble
  · obtain ⟨-, hlast⟩ := mem_entries_withHeaders.1 hstored
    obtain ⟨d, hd, hname, -⟩ := mem_of_lastValue hlast
    rw [← hname]
    exact (hlength d hd).symm

end Headers

/-! ### The receive loop -/

/-- **What the client returns of a part of a stream**: nothing before the end of the head, and
nothing when the data ends with an error; else all the rest is the body. -/
theorem receiveLoop_stream {set : List (Bytes × Bytes)}
    (hheaders : ∀ e ∈ set, HeaderSafe e.1 e.2)
    (hlength : ∀ e ∈ set, toLowerAscii e.1 ≠ ascii "content-length")
    {maxResponseSize : ℕ} (ending : StreamEnd) {chunks : Chunks} {body : Bytes}
    (hpart : chunks.stream <+:
      SseConnection.preamble (withHeaders set : HttpResponse M).headers.map ++ body)
    (hsize : chunks.stream.length ≤ maxResponseSize) :
    receiveLoop maxResponseSize ending chunks (.start : Receiving M) =
      if ending = .eof then (indexOf? blankLine chunks.stream).map fun headEnd ↦
        streamResponse set (chunks.stream.drop (headEnd + 4)) else none := by
  obtain ⟨rest, hrest⟩ := hpart
  rw [preamble_eq_encode hheaders] at hrest
  rcases indexOf?_blankLine_prefix hrest with ⟨body₁, hstream, -, hfound⟩ | ⟨-, hnone⟩
  · have hbody : chunks.stream.drop ((streamHead (M := M) hheaders).encode.length - 4 + 4) =
        body₁ := by
      rw [Nat.sub_add_cancel (Head.four_le_length_encode _), hstream, List.drop_left]
    rw [receiveLoop_of_head hstream hsize, responseSpec, foldHead_streamHead, hfound,
      Option.map_some, hbody]
    simp only [find?_contentLength_streamResponse hlength]
    rfl
  · rw [hnone, Option.map_none, ite_self]
    rcases hreturned : receiveLoop maxResponseSize ending chunks (.start : Receiving M) with
      - | response
    · rfl
    · obtain ⟨blank, -, hblank, -⟩ :=
        receiveLoop_complete (Receiving.sound_start maxResponseSize) hreturned
      exact absurd (hnone.symm.trans hblank) (by simp)

end HttpClient

/-! ### The events in the response -/

namespace Server

variable {server : Server M} {request : HttpRequest M} {sets : List (List (Bytes × Bytes))}

/-- **Events from a handler to the response of a client.** A request reaches a stream route as in
`handleConnection_events`: through middlewares that set headers and pass it on, with a free slot, to
a handler that keeps its connection and sends readable events. The headers are line-safe, the client
can read them, and they declare no length. A client that has written its request receives, in any
chunks and within its limit, some of what the server has written. It returns a response exactly when
the end of the head has arrived and the data ends without an error. Such a response has status 200,
every header that a middleware set, with the last value it was set to, and a body of events that
were delivered, in order; and of all of them, once it has received all that was written. -/
theorem send_events (server : Server M) (s : ChainState) {route : Route M}
    {streamHandler : StreamHandler M} (hopen : s.connection.isOpen)
    (hread : (readRequest server.caps s.endpoint.incoming).1 = .request request)
    (hpasses : List.Forall₂ (PassesOn request) server.middleware sets)
    (hsafe : ∀ e ∈ sets.flatten, LineSafe e)
    (hheaders : ∀ e ∈ sets.flatten, HttpClient.HeaderSafe e.1 e.2)
    (hlength : ∀ e ∈ sets.flatten, toLowerAscii e.1 ≠ ascii "content-length")
    (hfirst : Router.firstStream server.routes request = some route)
    (htarget : route.target = .stream streamHandler)
    (hfree : s.fetched.headD 0 < server.maxStreamingConnections)
    (hp : (streamHandler (route.bindParams request)).CallsOnly SseOp.Delivers)
    (options : ClientOptions) (peer : Peer) (method : HttpMethod) (host : Bytes) (port : UInt16)
    (path body : Bytes) (headers : M) (hready : HttpClient.Ready peer)
    (haccepts : peer.endpoint.AcceptsWrites)
    (hreceived : s.endpoint.sent ++ Chunks.stream peer.endpoint.incoming <+:
      (server.handleConnection s).2.endpoint.sent)
    (hsize : (Chunks.stream peer.endpoint.incoming).length ≤ options.maxResponseSize) :
    let delivered := ((streamHandler (route.bindParams request)).calls sseCall
      (server.streamOf sets s)).filterMap deliveredEvent
    let returned := (HttpClient.send options peer method host port path body headers).1
    (returned.isSome ↔ peer.endpoint.ending = .eof ∧
      (indexOf? blankLine (Chunks.stream peer.endpoint.incoming)).isSome) ∧
    ∀ response, returned = some response → response.statusCode = 200 ∧
      (∀ name value, lastValue sets.flatten name = some value →
        find? response.headers (toLowerAscii name) = some value) ∧
      (EventStream.read response.body).dispatched <+: delivered.map readEvent ∧
      (s.endpoint.sent ++ Chunks.stream peer.endpoint.incoming =
          (server.handleConnection s).2.endpoint.sent →
        (EventStream.read response.body).dispatched = delivered.map readEvent) := by
  intro delivered returned
  obtain ⟨written, hsent, hdispatched, rest, hwritten⟩ := dispatchedOf_stream (M := M) hsafe hp
    s.connection (afterRead server s).endpoint
  have hall : (server.handleConnection s).2.endpoint.sent = s.endpoint.sent ++ written :=
    (sent_handleConnection server s hopen hread hpasses hfirst htarget hfree).trans hsent
  rw [hall, List.prefix_append_right_inj] at hreceived
  -- the client's result in terms of what it has received
  have hreturned : returned = if peer.endpoint.ending = .eof then
      (indexOf? blankLine (Chunks.stream peer.endpoint.incoming)).map fun headEnd ↦
        HttpClient.streamResponse sets.flatten
          ((Chunks.stream peer.endpoint.incoming).drop (headEnd + 4)) else none :=
    (HttpClient.send_fst_of_acceptsWrites hready haccepts options method host port path body
      headers).trans (HttpClient.receiveLoop_stream hheaders hlength _
        (hreceived.trans hwritten) hsize)
  rw [hreturned]
  constructor
  · split
    · rename_i hending
      simp [hending]
    · rename_i hending
      simp [hending]
  intro response hresponse
  split at hresponse
  · obtain ⟨headEnd, hfound, rfl⟩ := Option.map_eq_some_iff.1 hresponse
    have hbody : dispatchedOf (Chunks.stream peer.endpoint.incoming) = (EventStream.read
        ((Chunks.stream peer.endpoint.incoming).drop (headEnd + 4))).dispatched := by
      rw [blankLine] at hfound
      rw [dispatchedOf, hfound]
    refine ⟨rfl, fun name value ↦ HttpClient.find?_streamResponse, ?_, fun hwhole ↦ ?_⟩
    · have hprefix := dispatchedOf_prefix hreceived
      rwa [hbody, hdispatched] at hprefix
    · rw [hall, List.append_cancel_left_eq] at hwhole
      rwa [← hwhole, hbody] at hdispatched
  · cases hresponse

/-- All of the stream that `tickTwiceServer` has written, in two chunks. -/
def tickChunks : Chunks :=
  [⟨(tickTwiceServer.handleConnection lossyState).2.endpoint.sent.take 100, by decide +kernel,
      by decide +kernel⟩,
    ⟨(tickTwiceServer.handleConnection lossyState).2.endpoint.sent.drop 100, by decide +kernel,
      by decide +kernel⟩]

theorem stream_tickChunks :
    tickChunks.stream = (tickTwiceServer.handleConnection lossyState).2.endpoint.sent := by
  rw [tickChunks, Chunks.stream_cons, Chunks.stream_cons, Chunks.stream_nil, List.append_nil,
    List.take_append_drop]

/-- A client that receives it. -/
def tickPeer : Peer where
  socket := ⟨some 4⟩
  connected := true
  sendTimeoutSet := true
  receiveTimeoutSet := true
  endpoint :=
    { incoming := tickChunks
      ending := .eof
      sendResults := [5]
      sent := []
      closed := false }

theorem tickPeer_received :
    lossyState.endpoint.sent ++ Chunks.stream tickPeer.endpoint.incoming =
      (tickTwiceServer.handleConnection lossyState).2.endpoint.sent := by
  have hsent : lossyState.endpoint.sent = [] := rfl
  rw [hsent, List.nil_append]
  exact stream_tickChunks

theorem tickPeer_prefix :
    lossyState.endpoint.sent ++ Chunks.stream tickPeer.endpoint.incoming <+:
      (tickTwiceServer.handleConnection lossyState).2.endpoint.sent := by
  rw [tickPeer_received]

theorem send_events_tickPeer : ∃ response : ClientResponse BytesMap,
    (HttpClient.send ⟨1024, by decide⟩ tickPeer .get (ascii "127.0.0.1") 80 (ascii "/events") []
      (∅ : BytesMap)).1 = some response ∧ response.statusCode = 200 ∧
    find? response.headers (ascii "access-control-allow-origin") = some (ascii "*") ∧
    (EventStream.read response.body).dispatched = [⟨ascii "tick", ascii "1", []⟩] := by
  have hheaders : ∀ e ∈ tickHeaders.flatten, HttpClient.HeaderSafe e.1 e.2 := by
    have hsafe : ∀ e ∈ tickHeaders.flatten, (58 ∉ e.1 ∧ 13 ∉ e.1 ∧ 32 ∉ e.1 ∧ 9 ∉ e.1) ∧
        13 ∉ e.2 ∧ (∀ c ∈ e.2.head?, HttpClient.isBlank c = false) ∧
        ∀ c ∈ e.2.getLast?, HttpClient.isBlank c = false := by decide +kernel
    intro e he
    obtain ⟨hname, hcr, hhead, hlast⟩ := hsafe e he
    exact ⟨hname, hcr, hhead, hlast⟩
  have harrived : (Chunks.stream tickPeer.endpoint.incoming).length ≤ 1024 ∧
      (indexOf? blankLine (Chunks.stream tickPeer.endpoint.incoming)).isSome := by
    decide +kernel
  obtain ⟨request, hread, hpasses, hfirst⟩ := exists_request_lossyState
  obtain ⟨hreturns, hresponse⟩ := send_events tickTwiceServer lossyState rfl hread hpasses
    lineSafe_accessControl hheaders (by decide +kernel) hfirst rfl (by decide)
    (delivers_tickTwice _) ⟨1024, by decide⟩ tickPeer .get (ascii "127.0.0.1") 80
    (ascii "/events") [] (∅ : BytesMap) ⟨rfl, rfl, rfl, rfl⟩ (by decide +kernel)
    tickPeer_prefix harrived.1
  obtain ⟨response, hsome⟩ := Option.isSome_iff_exists.1
    (hreturns.2 ⟨rfl, harrived.2⟩)
  obtain ⟨hstatus, hset, -, hevents⟩ := hresponse response hsome
  refine ⟨response, hsome, hstatus, ?_, ?_⟩
  · exact hset (ascii "Access-Control-Allow-Origin") (ascii "*") (by decide +kernel)
  · exact (hevents tickPeer_received).trans (delivered_lossyState _)

end Server

end FalconHTTP
