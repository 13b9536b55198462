import FalconHTTP.Core.Answer
import FalconHTTP.Core.FirstMatch
import FalconHTTP.Core.StreamPreamble
import FalconHTTP.Middleware.Cors
import FalconHTTP.Streaming.EventFrames
import FalconHTTP.Streaming.WireLog

/-!
# Events from a handler to a client

A stream handler calls `send`, and at the other end of the connection an event source dispatches
events. In between are the middlewares, which may set headers, the preamble, the frames, a socket
that may fail at any byte, and the exceptions of the handler, which the server would answer with a
500 were the connection still its own.

`dispatchedOf` is what the event source has dispatched of the bytes that have come in so far. By
`handleConnection_events` it sees, in order, the events whose `send` returned `true`: a part of
them at any time, all of them once it has received what was written, and never another one.
-/

namespace FalconHTTP

open Occurrence Lines EventStream FiniteMap

/-! ### The event source -/

/-- The events dispatched of the bytes received so far: none before the end of the head. -/
def dispatchedOf (received : Bytes) : List Event :=
  match indexOf? [13, 10, 13, 10] received with
  | none => []
  | some headEnd => (read (received.drop (headEnd + 4))).dispatched

/-- What is dispatched of a head and a body is dispatched of the body. -/
theorem dispatchedOf_of_readsAs {received body : Bytes} {ls : List Bytes}
    (h : ReadsAs 13 10 received ls body) : dispatchedOf received = (read body).dispatched := by
  obtain ⟨headEnd, hfind, hbody, -⟩ := h
  rw [dispatchedOf, hfind, ← hbody]

/-- Reading on keeps what has been dispatched. -/
theorem dispatched_read_append (text rest : Bytes) :
    (read text).dispatched <+: (read (text ++ rest)).dispatched := by
  obtain ⟨ls, hls⟩ := lines_prefix (s := text) (t := rest)
  rw [EventStream.read, EventStream.read, ← hls, List.foldl_append]
  exact Reader.dispatched_prefix_foldl _ ls

/-- **What has been dispatched stays dispatched** when more is received. -/
theorem dispatchedOf_prefix {received written : Bytes} (h : received <+: written) :
    dispatchedOf received <+: dispatchedOf written := by
  obtain ⟨rest, rfl⟩ := h
  rw [dispatchedOf, dispatchedOf]
  rcases hfind : indexOf? [13, 10, 13, 10] received with - | headEnd
  · exact List.nil_prefix
  · have hle : headEnd + 4 ≤ received.length := le_length_of_indexOf? (by simp) hfind
    rw [indexOf?_append_of_eq_some (by simp) hfind]
    simp only
    rw [List.drop_append_of_le_length hle]
    exact dispatched_read_append _ rest

/-! ### The body of a stream -/

/-- An event that is read as it was sent: no line end in the name, no CR in the data. -/
def Readable (event data : Bytes) : Prop :=
  (13 ∉ event ∧ 10 ∉ event) ∧ 13 ∉ data

/-- The event a reader dispatches for one that was sent. -/
def readEvent (e : Bytes × Bytes) : Event :=
  ⟨SseConnection.eventType e.1, e.2, []⟩

/-- **A part of a frame dispatches nothing**: only its last byte ends the empty line. -/
theorem dispatched_foldl_part {event data part : Bytes} (hreadable : Readable event data)
    (hbegins : part <+: SseConnection.eventFrame event data)
    (hpart : part ≠ SseConnection.eventFrame event data) (r : Reader) :
    ((lines part).foldl Reader.readLine r).dispatched = r.dispatched := by
  obtain ⟨hevent, hdata⟩ := hreadable
  rw [SseConnection.eventFrame_eq, ne_eq] at hpart
  rw [SseConnection.eventFrame_eq, List.prefix_concat_iff] at hbegins
  obtain ⟨rest, hrest⟩ := hbegins.resolve_left hpart
  have hlines : lines part <+: SseConnection.nameLines event ++ SseConnection.dataLines data := by
    rw [← SseConnection.lines_frameBody hevent, ← hrest]
    exact lines_prefix
  refine Reader.dispatched_foldl (fun l hl ↦ ?_) r
  rcases List.mem_append.1 (hlines.subset hl) with hname | hline
  · rw [SseConnection.nameLines] at hname
    split at hname
    · exact absurd hname List.not_mem_nil
    · rw [List.mem_singleton.1 hname]
      simp [word]
  · rw [SseConnection.dataLines_of_notMem hdata] at hline
    obtain ⟨line, -, rfl⟩ := List.mem_map.1 hline
    simp [word]

/-- Frames, and what follows them. -/
theorem foldl_frames_append {events : List (Bytes × Bytes)}
    (hreadable : ∀ e ∈ events, Readable e.1 e.2) (rest : Bytes) {r : Reader}
    (hr : SseConnection.Between r) (hid : r.lastEventId = []) :
    (lines (frames events ++ rest)).foldl Reader.readLine r =
      (lines rest).foldl Reader.readLine
        { r with dispatched := r.dispatched ++ events.map readEvent } := by
  induction events generalizing r with
  | nil =>
    rw [List.map_nil, List.append_nil]
    rfl
  | cons e events ih =>
    obtain ⟨⟨hevent, hdata⟩, hrest⟩ := List.forall_mem_cons.1 hreadable
    have hframes : frames (e :: events) ++ rest =
        SseConnection.eventFrame e.1 e.2 ++ (frames events ++ rest) :=
      List.append_assoc (SseConnection.eventFrame e.1 e.2) (frames events) rest
    rw [hframes, SseConnection.lines_eventFrame_append hevent, List.foldl_append,
      SseConnection.foldl_eventFrame hdata hr, ih hrest (r := { r with dispatched :=
        r.dispatched ++ [⟨SseConnection.eventType e.1, e.2, r.lastEventId⟩] })
        ⟨hr.eventType, hr.data⟩ hid, hid]
    simp [readEvent]

/-- **The body of a stream**: the events of its frames, and nothing for a part of one more. -/
theorem dispatched_read_frames {events : List (Bytes × Bytes)}
    (hreadable : ∀ e ∈ events, Readable e.1 e.2) {part : Bytes}
    (hpart : part = [] ∨ ∃ event data, Readable event data ∧
      part <+: SseConnection.eventFrame event data ∧ part ≠ SseConnection.eventFrame event data) :
    (read (frames events ++ part)).dispatched = events.map readEvent := by
  rw [EventStream.read, foldl_frames_append hreadable part ⟨rfl, rfl⟩ rfl]
  rcases hpart with rfl | ⟨event, data, hevent, hprefix, hne⟩
  · rfl
  · rw [dispatched_foldl_part hevent hprefix hne]
    rfl

/-! ### What a handler's program delivers -/

/-- The calls of a handler that keeps its connection and sends readable events. -/
def SseOp.Delivers : SseOp → Prop
  | send event data => Readable event data
  | isConnected => True
  | close => True
  | moveAway => False

section Stream

variable {M : Type} [FiniteMap M Bytes Bytes] {set : List (Bytes × Bytes)} {p : StreamProgram}

/-- Such a handler keeps its connection. -/
theorem keeps_of_delivers (hp : p.CallsOnly SseOp.Delivers) : p.CallsOnly SseOp.Keeps := by
  induction p with
  | done result => trivial
  | call op next ih =>
    refine ⟨?_, fun r ↦ ih r (hp.2 r)⟩
    rintro rfl
    exact hp.1

/-- Each of its calls is one of these. -/
theorem delivers_of_mem_calls (hp : p.CallsOnly SseOp.Delivers) {s : SseConnection × Endpoint} :
    ∀ c ∈ p.calls sseCall s, c.1.Delivers := by
  induction p generalizing s with
  | done result => exact fun c hc ↦ absurd hc List.not_mem_nil
  | call op next ih => exact List.forall_mem_cons.2 ⟨hp.1, ih _ (hp.2 _)⟩

/-- The events it delivers are readable. -/
theorem readable_of_delivered (hp : p.CallsOnly SseOp.Delivers) {s : SseConnection × Endpoint} :
    ∀ e ∈ (p.calls sseCall s).filterMap deliveredEvent, Readable e.1 e.2 := by
  intro e he
  obtain ⟨c, hc, hdelivered⟩ := List.mem_filterMap.1 he
  have hop := delivers_of_mem_calls hp c hc
  obtain ⟨op, t⟩ := c
  cases op with
  | send event data =>
    have hsend : (if (t.1.send event data t.2).1 then some (event, data) else none) = some e :=
      hdelivered
    split at hsend
    · obtain rfl := Option.some.inj hsend
      exact hop
    · cases hsend
  | isConnected => cases hdelivered
  | close => cases hdelivered
  | moveAway => cases hdelivered

/-- **What a client makes of a stream**, whatever its socket does: the events delivered. -/
theorem dispatchedOf_stream (hsafe : ∀ e ∈ set, LineSafe e)
    (hp : p.CallsOnly SseOp.Delivers) (connection : Connection) (endpoint : Endpoint) :
    let stream := SseConnection.new connection (withHeaders set : HttpResponse M).headers.map
      endpoint
    ∃ written, (p.run sseCall stream).2.2.sent = endpoint.sent ++ written ∧
      dispatchedOf written = ((p.calls sseCall stream).filterMap deliveredEvent).map readEvent ∧
      ∃ body, written <+: SseConnection.preamble (withHeaders set : HttpResponse M).headers.map ++
        body := by
  intro stream
  obtain ⟨accepted, endpoint', hnew, hprefix, htook⟩ := SseConnection.new_spec connection
    (withHeaders set : HttpResponse M).headers.map endpoint
  have hstream : stream = (⟨connection, decide (accepted =
      SseConnection.preamble (withHeaders set : HttpResponse M).headers.map)⟩, endpoint') := hnew
  have hreads := readsAs_preamble (M := M) hsafe
  by_cases hwhole : accepted =
      SseConnection.preamble (withHeaders set : HttpResponse M).headers.map
  · have halive : stream.1.alive = true := by
      rw [hstream]
      exact decide_eq_true hwhole
    obtain ⟨part, hsent, hpart⟩ := run_log (keeps_of_delivers hp) halive
    refine ⟨accepted ++ (frames ((p.calls sseCall stream).filterMap deliveredEvent) ++ part),
      ?_, ?_, frames ((p.calls sseCall stream).filterMap deliveredEvent) ++ part, by rw [hwhole]⟩
    · rw [hsent, hstream]
      simp [htook.sent]
    · rw [hwhole, dispatchedOf_of_readsAs (hreads.append _)]
      refine dispatched_read_frames (readable_of_delivered hp) (hpart.imp_right ?_)
      rintro ⟨c, hc, event, data, hop, -, -, -, hpre, hne⟩
      have hdelivers := delivers_of_mem_calls hp c hc
      rw [hop] at hdelivers
      exact ⟨event, data, hdelivers, hpre, hne⟩
  · -- a part of the preamble has no end of the head
    have hdead : stream.1.alive = false := by
      rw [hstream]
      exact decide_eq_false hwhole
    have hover := over_of_not_alive p hdead
    refine ⟨accepted, ?_, ?_, [], (List.append_nil _).symm ▸ hprefix⟩
    · rw [hover.silent, hstream]
      exact htook.sent
    · have hnone := dispatchedOf_prefix hprefix
      rw [dispatchedOf_of_readsAs hreads] at hnone
      rw [hover.delivered_eq_nil, List.map_nil]
      exact List.prefix_nil.1 hnone

end Stream

/-! ### Delivery -/

variable {M : Type} [FiniteMap M Bytes Bytes]

namespace Server

variable {server : Server M} {request : HttpRequest M} {sets : List (List (Bytes × Bytes))}

/-- The stream that a handler is given for a request that has been read. -/
abbrev streamOf (server : Server M) (sets : List (List (Bytes × Bytes))) (s : ChainState) :
    SseConnection × Endpoint :=
  startStream (withHeaders sets.flatten : HttpResponse M) (afterRead server s)

/-- What is written on a connection that a stream takes is what the stream writes. -/
theorem sent_handleConnection (server : Server M) (s : ChainState) {route : Route M}
    {streamHandler : StreamHandler M} (hopen : s.connection.isOpen)
    (hread : (readRequest server.caps s.endpoint.incoming).1 = .request request)
    (hpasses : List.Forall₂ (PassesOn request) server.middleware sets)
    (hfirst : Router.firstStream server.routes request = some route)
    (htarget : route.target = .stream streamHandler)
    (hfree : s.fetched.headD 0 < server.maxStreamingConnections) :
    (server.handleConnection s).2.endpoint.sent =
      ((streamHandler (route.bindParams request)).run sseCall
        (server.streamOf sets s)).2.2.sent := by
  have hchain : (server.runChain server.middleware request (.new .ok) (afterRead server s)).state =
      _ := runChain_of_passesOn hpasses (.new .ok) (afterRead server s)
  have henters : server.Enters request (afterRead server s) streamHandler
      (route.bindParams request) :=
    ⟨Router.matchStream_of_firstStream hfirst htarget, hfree⟩
  rw [(endOfChain_of_enters _ henters).2] at hchain
  rw [handleConnection_of_moved hopen hread (by rw [hchain]; rfl), hchain]
  exact SseConnection.sent_close _ _

/-! ### A stream on concrete input -/

/-- A stream handler that sends two events and throws. -/
def tickTwice : StreamHandler BytesMap := fun _ ↦
  .call (.send (ascii "tick") (ascii "1")) fun _ ↦ .call (.send (ascii "tick") (ascii "2")) fun _ ↦
    .done (.error .other)

/-- A server with its route, behind all three middlewares. -/
def tickTwiceServer : Server BytesMap where
  routes := [⟨.get, ascii "/events", .stream tickTwice⟩]
  middleware := [logger, recovery, cors (ascii "*")]
  caps := smallCaps
  maxStreamingConnections := 1
  maxStreamingConnections_pos := Nat.one_pos

/-- A connection that breaks in the second event. -/
def lossyState : ChainState :=
  { tickState with endpoint := { tickState.endpoint with sendResults := [1000, 1000, 4, -1] } }

/-- The headers that each of the middlewares sets. -/
def tickHeaders : List (List (Bytes × Bytes)) :=
  [[], [], accessControl (ascii "*")]

theorem lineSafe_accessControl : ∀ e ∈ tickHeaders.flatten, LineSafe e := by
  unfold LineSafe
  decide +kernel

theorem delivers_tickTwice (request : HttpRequest BytesMap) :
    (tickTwice request).CallsOnly SseOp.Delivers := by
  have hsends : ∀ data ∈ [ascii "1", ascii "2"], (SseOp.send (ascii "tick") data).Delivers := by
    unfold SseOp.Delivers Readable
    decide +kernel
  exact ⟨hsends _ (by simp), fun _ ↦ ⟨hsends _ (by simp), fun _ ↦ trivial⟩⟩

theorem delivered_lossyState (request : HttpRequest BytesMap) :
    (((tickTwice request).calls sseCall (tickTwiceServer.streamOf tickHeaders
      lossyState)).filterMap deliveredEvent).map readEvent = [⟨ascii "tick", ascii "1", []⟩] := by
  show (((tickTwice HttpRequest.new).calls sseCall (tickTwiceServer.streamOf tickHeaders
    lossyState)).filterMap deliveredEvent).map readEvent = _
  decide +kernel

theorem exists_request_lossyState : ∃ request : HttpRequest BytesMap,
    (readRequest tickTwiceServer.caps lossyState.endpoint.incoming).1 = .request request ∧
      List.Forall₂ (PassesOn request) tickTwiceServer.middleware tickHeaders ∧
      Router.firstStream tickTwiceServer.routes request =
        some ⟨.get, ascii "/events", .stream tickTwice⟩ := by
  have hrequest : (readRequest tickTwiceServer.caps lossyState.endpoint.incoming).1.request?.map
      (fun request : HttpRequest BytesMap ↦ (request.method, request.path)) =
      some (.get, ascii "/events") := by decide +kernel
  rcases hread : (readRequest tickTwiceServer.caps lossyState.endpoint.incoming
    (M := BytesMap)).1 with request | response | -
  · rw [hread] at hrequest
    obtain ⟨hmethod, hpath⟩ := Prod.mk.inj (Option.some.inj hrequest)
    have hserves : (⟨.get, ascii "/events", .stream tickTwice⟩ : Route BytesMap).serves request =
        true := by
      refine Route.serves_iff.2 ⟨hmethod.symm, ?_⟩
      rw [Route.covers, hpath]
      decide +kernel
    have hoptions : request.method ≠ .options := by
      rw [hmethod]
      decide
    exact ⟨request, rfl, .cons (passesOn_logger request) (.cons (passesOn_recovery request)
      (.cons (passesOn_cors hoptions (ascii "*")) .nil)), List.find?_cons_of_pos hserves⟩
  · rw [hread] at hrequest
    cases hrequest
  · rw [hread] at hrequest
    cases hrequest

/-! ### Events that were delivered -/

/-- **Delivery.** A request that was read reaches a stream route through middlewares that set
headers, which have no line ends in them, and pass it on; a slot is free, and the handler keeps its
connection and sends readable events. Then, whatever the socket does and however the handler ends,
an event source that has received all that was written has dispatched exactly the events whose
`send` returned `true`, in order, and one that has received a part of it a part of them. -/
theorem handleConnection_events (server : Server M) (s : ChainState) {route : Route M}
    {streamHandler : StreamHandler M} (hopen : s.connection.isOpen)
    (hread : (readRequest server.caps s.endpoint.incoming).1 = .request request)
    (hpasses : List.Forall₂ (PassesOn request) server.middleware sets)
    (hsafe : ∀ e ∈ sets.flatten, LineSafe e)
    (hfirst : Router.firstStream server.routes request = some route)
    (htarget : route.target = .stream streamHandler)
    (hfree : s.fetched.headD 0 < server.maxStreamingConnections)
    (hp : (streamHandler (route.bindParams request)).CallsOnly SseOp.Delivers) :
    let delivered := ((streamHandler (route.bindParams request)).calls sseCall
      (server.streamOf sets s)).filterMap deliveredEvent
    ∃ written, (server.handleConnection s).2.endpoint.sent = s.endpoint.sent ++ written ∧
      dispatchedOf written = delivered.map readEvent ∧
      ∀ received, received <+: written → dispatchedOf received <+: delivered.map readEvent := by
  intro delivered
  obtain ⟨written, hsent, hdispatched, -⟩ := dispatchedOf_stream (M := M) hsafe hp s.connection
    (afterRead server s).endpoint
  refine ⟨written, ?_, hdispatched, fun received hreceived ↦ ?_⟩
  · exact (sent_handleConnection server s hopen hread hpasses hfirst htarget hfree).trans hsent
  · have hprefix := dispatchedOf_prefix hreceived
    rw [hdispatched] at hprefix
    exact hprefix

theorem handleConnection_events_lossyState : ∃ written,
    (tickTwiceServer.handleConnection lossyState).2.endpoint.sent = [] ++ written ∧
      dispatchedOf written = [⟨ascii "tick", ascii "1", []⟩] := by
  obtain ⟨request, hread, hpasses, hfirst⟩ := exists_request_lossyState
  obtain ⟨written, hsent, hdispatched, -⟩ := handleConnection_events tickTwiceServer lossyState
    rfl hread hpasses lineSafe_accessControl hfirst rfl (by decide) (delivers_tickTwice _)
  exact ⟨written, hsent, hdispatched.trans (delivered_lossyState _)⟩

end Server

end FalconHTTP
