import FalconHTTP.Client.ReceiveLoop

/-!
# What the client returns is what the server sent

`ReceiveLoop` says how the receive loop ends on a stream that fits the size limit. Here nothing is
assumed of the stream: whatever arrives, however it is cut and however it ends, a response that
`send` returns is a complete response of the stream (`CompleteResponse`, `send_complete`).

The argument is an invariant of the loop's variables (`Receiving.Sound`): they describe the bytes
received so far, and these fit the limit. In particular the body starts inside the buffer
(`Receiving.Sound.headEnd_le`), so that `received.size() - headEnd` is the number of body bytes.
-/

namespace FalconHTTP

namespace HttpClient

open Occurrence FiniteMap

variable {M : Type} [FiniteMap M Bytes Bytes]

/-- The response is the complete one a stream starts with: its head ends at the first blank line and
is accepted, its body is the declared number of bytes after the head, or all of them up to a clean
end when no length is declared, and head and body fit the limit. -/
def CompleteResponse (maxResponseSize : ℕ) (ending : StreamEnd) (stream : Bytes)
    (response : ClientResponse M) : Prop :=
  ∃ blank parsed, indexOf? blankLine stream = some blank ∧
    parseHead (stream.take blank) emptyResponse = some parsed ∧
    blank + 4 + response.body.length ≤ maxResponseSize ∧
    match find? parsed.headers (ascii "content-length") with
    | some value => ∃ n, parseNumber value = some n ∧ blank + 4 + n ≤ stream.length ∧
        response = { parsed with body := (stream.drop (blank + 4)).take n }
    | none => ending = .eof ∧ response = { parsed with body := stream.drop (blank + 4) }

/-- A stream starts with at most one complete response. -/
theorem CompleteResponse.unique {maxResponseSize : ℕ} {ending : StreamEnd} {stream : Bytes}
    {response response' : ClientResponse M}
    (h : CompleteResponse maxResponseSize ending stream response)
    (h' : CompleteResponse maxResponseSize ending stream response') : response = response' := by
  obtain ⟨blank, parsed, hblank, hparsed, -, hbody⟩ := h
  obtain ⟨blank', parsed', hblank', hparsed', -, hbody'⟩ := h'
  obtain rfl := Option.some.inj (hblank.symm.trans hblank')
  obtain rfl := Option.some.inj (hparsed.symm.trans hparsed')
  rcases hlength : find? parsed.headers (ascii "content-length") with - | value
  · rw [hlength] at hbody hbody'
    exact hbody.2.trans hbody'.2.symm
  · rw [hlength] at hbody hbody'
    obtain ⟨n, hn, -, hresponse⟩ := hbody
    obtain ⟨n', hn', -, hresponse'⟩ := hbody'
    obtain rfl := Option.some.inj (hn.symm.trans hn')
    exact hresponse.trans hresponse'.symm

/-! ### The invariant of the loop -/

namespace Receiving

/-- The head has been parsed, and its declared length taken. -/
structure Parsed (maxResponseSize : ℕ) (r : Receiving M) (blank : ℕ) : Prop where
  /-- The head ends at the first blank line received. -/
  found : indexOf? blankLine r.received = some blank
  /-- The response is the parsed head. -/
  head : parseHead (r.received.take blank) emptyResponse = some r.response
  /-- The declared length is the one of the head, and within the limit. -/
  declared : match find? r.response.headers (ascii "content-length") with
    | some value => parseNumber value = some r.expectedBody ∧ r.hasLength = true ∧
        r.expectedBody ≤ maxResponseSize
    | none => r.hasLength = false

/-- **The invariant**: the variables describe the bytes received so far. -/
structure Sound (maxResponseSize : ℕ) (r : Receiving M) : Prop where
  /-- Everything received fits the limit. -/
  length_le : r.received.length ≤ maxResponseSize
  /-- Without a head nothing has been parsed. -/
  searching : r.headEnd = none → indexOf? blankLine r.received = none ∧
    r.response = emptyResponse ∧ r.hasLength = false
  /-- With a head it has been parsed. -/
  parsed : ∀ headEnd, r.headEnd = some headEnd →
    ∃ blank, headEnd = blank + 4 ∧ r.Parsed maxResponseSize blank

variable {maxResponseSize : ℕ} {r r' : Receiving M}

theorem sound_start (maxResponseSize : ℕ) : (start : Receiving M).Sound maxResponseSize :=
  ⟨Nat.zero_le _, fun _ ↦ ⟨rfl, rfl, rfl⟩, by simp [start]⟩

/-- The body starts inside the buffer. -/
theorem Sound.headEnd_le (hr : r.Sound maxResponseSize) {headEnd : ℕ}
    (h : r.headEnd = some headEnd) : headEnd ≤ r.received.length := by
  obtain ⟨blank, rfl, hparsed⟩ := hr.parsed headEnd h
  exact le_length_of_indexOf? (by simp [blankLine]) hparsed.found

/-- A parsed head stays the head when more is received. -/
theorem Parsed.append {blank : ℕ} (h : r.Parsed maxResponseSize blank) (got : Bytes) :
    ({ r with received := r.received ++ got } : Receiving M).Parsed maxResponseSize blank := by
  have hle := le_length_of_indexOf? (by simp [blankLine]) h.found
  refine ⟨indexOf?_append_of_eq_some (by simp [blankLine]) h.found, ?_, h.declared⟩
  rw [List.take_append_of_le_length (by omega)]
  exact h.head

/-- The turn that completes the head establishes what is known of it. -/
theorem parsed_of_readHead {blank : ℕ} (hfound : indexOf? blankLine r.received = some blank)
    (hresponse : r.response = emptyResponse) (hlength : r.hasLength = false)
    (h : r.readHead maxResponseSize blank = some r') :
    r'.received = r.received ∧ r'.headEnd = some (blank + 4) ∧
      r'.Parsed maxResponseSize blank := by
  rw [readHead, hresponse] at h
  rcases hhead : parseHead (r.received.take blank) (emptyResponse : ClientResponse M) with
    - | response
  · simp [hhead] at h
  rcases hvalue : find? response.headers (ascii "content-length") with - | value
  · simp only [hhead, hvalue] at h
    obtain rfl := Option.some.inj h
    exact ⟨rfl, rfl, hfound, hhead, by rw [hvalue]; exact hlength⟩
  · rcases hnumber : parseNumber value with - | n
    · simp [hhead, hvalue, hnumber] at h
    simp only [hhead, hvalue, hnumber] at h
    split at h
    · exact absurd h (by simp)
    · rename_i hbig
      obtain rfl := Option.some.inj h
      refine ⟨rfl, rfl, hfound, hhead, ?_⟩
      rw [hvalue]
      exact ⟨hnumber, rfl, Nat.le_of_not_gt hbig⟩

/-- **One receive** keeps the invariant. -/
theorem Sound.append (hr : r.Sound maxResponseSize) {got : Bytes}
    (h : r.append maxResponseSize got = some r') :
    r'.received = r.received ++ got ∧ r'.Sound maxResponseSize := by
  rcases Nat.lt_or_ge maxResponseSize (r.received ++ got).length with hbig | hfits
  · exact absurd ((append_of_lt hbig).symm.trans h) (by simp)
  rcases hend : r.headEnd with - | headEnd
  · obtain ⟨-, hresponse, hlength⟩ := hr.searching hend
    rw [append_of_searching hfits hend] at h
    rcases hfound : indexOf? blankLine (r.received ++ got) with - | blank
    · rw [hfound] at h
      obtain rfl := Option.some.inj h
      refine ⟨rfl, hfits, fun _ ↦ ⟨hfound, hresponse, hlength⟩, fun headEnd hsome ↦ ?_⟩
      exact absurd (hend.symm.trans hsome) (by simp)
    · rw [hfound] at h
      obtain ⟨hreceived, hhead, hparsed⟩ := parsed_of_readHead
        (r := { r with received := r.received ++ got }) hfound hresponse hlength h
      refine ⟨hreceived, hreceived ▸ hfits, fun hnone ↦ ?_, fun headEnd hsome ↦ ?_⟩
      · exact absurd (hhead.symm.trans hnone) (by simp)
      · exact ⟨blank, Option.some.inj (hsome.symm.trans hhead), hparsed⟩
  · rw [append_of_headEnd hfits hend] at h
    obtain rfl := Option.some.inj h
    refine ⟨rfl, hfits, fun hnone ↦ ?_, fun headEnd' hsome ↦ ?_⟩
    · have hnone : r.headEnd = none := hnone
      exact absurd (hend.symm.trans hnone) (by simp)
    · obtain ⟨blank, hblank, hparsed⟩ := hr.parsed headEnd' hsome
      exact ⟨blank, hblank, hparsed.append got⟩

/-! ### The ways out of the loop -/

/-- Leaving the loop with the declared length received. -/
theorem Sound.completeResponse_of_length (hr : r.Sound maxResponseSize) {headEnd : ℕ}
    (hend : r.headEnd = some headEnd) (hlength : r.hasLength = true)
    (hbody : r.expectedBody ≤ r.received.length - headEnd) (ending : StreamEnd) (rest : Bytes) :
    CompleteResponse maxResponseSize ending (r.received ++ rest) (r.finish headEnd) := by
  obtain ⟨blank, rfl, hparsed⟩ := hr.parsed headEnd hend
  have hhead := hr.headEnd_le hend
  have hfits := hr.length_le
  have htake : ((r.received ++ rest).drop (blank + 4)).take r.expectedBody =
      (r.received.drop (blank + 4)).take r.expectedBody := by
    rw [List.drop_append_of_le_length hhead, List.take_append_of_le_length]
    rwa [List.length_drop]
  have hfinish : r.finish (blank + 4) =
      { r.response with body := ((r.received ++ rest).drop (blank + 4)).take r.expectedBody } := by
    rw [finish, htake]
    simp only [hlength, if_true]
  refine ⟨blank, r.response, indexOf?_append_of_eq_some (by simp [blankLine]) hparsed.found, ?_, ?_,
    ?_⟩
  · rw [List.take_append_of_le_length (by omega)]
    exact hparsed.head
  · rw [hfinish]
    simp only [List.length_take]
    omega
  · have hdeclared := hparsed.declared
    rcases hvalue : find? r.response.headers (ascii "content-length") with - | value
    · rw [hvalue] at hdeclared
      exact absurd (hdeclared.symm.trans hlength) (by simp)
    · rw [hvalue] at hdeclared
      exact ⟨r.expectedBody, hdeclared.1, by rw [List.length_append]; omega, hfinish⟩

/-- Leaving the loop before the end of the data. -/
theorem Sound.completeResponse_of_complete (hr : r.Sound maxResponseSize) {headEnd : ℕ}
    (h : r.complete? = some headEnd) (ending : StreamEnd) (rest : Bytes) :
    CompleteResponse maxResponseSize ending (r.received ++ rest) (r.finish headEnd) := by
  rw [complete?] at h
  rcases hend : r.headEnd with - | headEnd'
  · simp [hend] at h
  simp only [hend] at h
  split at h
  · rename_i hcomplete
    obtain rfl := Option.some.inj h
    exact hr.completeResponse_of_length hend hcomplete.1 hcomplete.2 ending rest
  · exact absurd h (by simp)

/-- Leaving the loop at the end of the data. -/
theorem Sound.completeResponse_of_eof (hr : r.Sound maxResponseSize) {response : ClientResponse M}
    (h : r.atEof = some response) :
    CompleteResponse maxResponseSize .eof r.received response := by
  rw [atEof] at h
  rcases hend : r.headEnd with - | headEnd
  · simp [hend] at h
  simp only [hend] at h
  split at h
  · exact absurd h (by simp)
  rename_i hshort
  obtain rfl := Option.some.inj h
  rcases hlength : r.hasLength with - | -
  · obtain ⟨blank, rfl, hparsed⟩ := hr.parsed headEnd hend
    have hhead := hr.headEnd_le hend
    have hfits := hr.length_le
    have hfinish : r.finish (blank + 4) =
        { r.response with body := r.received.drop (blank + 4) } := by
      rw [finish]
      simp [hlength]
    refine ⟨blank, r.response, hparsed.found, hparsed.head, ?_, ?_⟩
    · rw [hfinish]
      simp only [List.length_drop]
      omega
    · have hdeclared := hparsed.declared
      rcases hvalue : find? r.response.headers (ascii "content-length") with - | value
      · exact ⟨rfl, hfinish⟩
      · rw [hvalue] at hdeclared
        exact absurd (hlength.symm.trans hdeclared.2.1) (by simp)
  · have hbody : r.expectedBody ≤ r.received.length - headEnd := by
      rw [hlength] at hshort
      simpa using hshort
    have hcomplete := hr.completeResponse_of_length hend hlength hbody .eof []
    rwa [List.append_nil] at hcomplete

end Receiving

/-! ### The loop -/

/-- **The receive loop returns complete responses only.** -/
theorem receiveLoop_complete {maxResponseSize : ℕ} {ending : StreamEnd} {chunks : Chunks}
    {r : Receiving M} (hr : r.Sound maxResponseSize) {response : ClientResponse M}
    (h : receiveLoop maxResponseSize ending chunks r = some response) :
    CompleteResponse maxResponseSize ending (r.received ++ chunks.stream) response := by
  induction chunks generalizing r with
  | nil =>
    rcases hcomplete : r.complete? with - | headEnd
    · rw [receiveLoop_nil hcomplete] at h
      cases ending with
      | error => exact absurd h (by simp)
      | eof =>
        rw [Chunks.stream_nil, List.append_nil]
        exact hr.completeResponse_of_eof h
    · rw [receiveLoop_of_complete hcomplete] at h
      obtain rfl := Option.some.inj h
      exact hr.completeResponse_of_complete hcomplete ending _
  | cons chunk chunks ih =>
    rcases hcomplete : r.complete? with - | headEnd
    · rcases happend : r.append maxResponseSize chunk.bytes with - | r'
      · exact absurd ((receiveLoop_cons_of_none hcomplete happend).symm.trans h) (by simp)
      · obtain ⟨hreceived, hr'⟩ := hr.append happend
        rw [receiveLoop_cons hcomplete happend] at h
        have hrest := ih hr' h
        rwa [hreceived, List.append_assoc] at hrest
    · rw [receiveLoop_of_complete hcomplete] at h
      obtain rfl := Option.some.inj h
      exact hr.completeResponse_of_complete hcomplete ending _

/-- **The client never returns a wrong body.** A response that `send` returns is the complete
response that the server's stream starts with, wherever the stream was cut and however it ended. -/
theorem send_complete (options : ClientOptions) (peer : Peer) (method : HttpMethod) (host : Bytes)
    (port : UInt16) (path body : Bytes) (headers : M) {response : ClientResponse M}
    (h : (send options peer method host port path body headers).1 = some response) :
    CompleteResponse options.maxResponseSize peer.endpoint.ending
      (Chunks.stream peer.endpoint.incoming) response := by
  have hready : Ready peer := by
    by_contra hnot
    rw [send_of_not_ready hnot] at h
    cases h
  obtain ⟨accepted, endpoint', hspec, -, htook⟩ := Socket.writeLoop_spec peer.socket
    (buildRequest method host port path body headers) (Nat.le_add_left _ 0) peer.endpoint
  rcases hwrite : peer.socket.writeLoop (buildRequest method host port path body headers)
    (buildRequest method host port path body headers).length 0 peer.endpoint with
    ⟨written, endpoint⟩
  obtain ⟨-, rfl⟩ := Prod.mk.inj (hspec.symm.trans hwrite)
  rw [send_of_ready hready options method host port path body headers hwrite] at h
  cases written with
  | false => cases h
  | true =>
    have hcomplete := receiveLoop_complete (Receiving.sound_start options.maxResponseSize) h
    rwa [htook.incoming, htook.ending] at hcomplete

/-- A working exchange in which the given data arrives. -/
def workingPeer (incoming : Chunks) (ending : StreamEnd) : Peer where
  socket := ⟨some 3⟩
  connected := true
  sendTimeoutSet := true
  receiveTimeoutSet := true
  endpoint := { incoming, ending, sendResults := [], sent := [], closed := false }

theorem ready_workingPeer (incoming : Chunks) (ending : StreamEnd) :
    Ready (workingPeer incoming ending) :=
  ⟨rfl, rfl, rfl, rfl⟩

theorem acceptsWrites_workingPeer (incoming : Chunks) (ending : StreamEnd) :
    (workingPeer incoming ending).endpoint.AcceptsWrites :=
  fun _ hresult ↦ absurd hresult List.not_mem_nil

/-- A response of two bytes that is followed by two more. -/
def okStream : Bytes :=
  ascii "HTTP/1.1 200 OK\r\nContent-Length: 2\r\n\r\nok!!"

/-- The stream in one chunk. -/
def okWhole : Chunks :=
  [⟨okStream, by decide +kernel, by decide +kernel⟩]

theorem send_complete_okStream : ∃ response : ClientResponse BytesMap,
    (send ⟨1024, by decide⟩ (workingPeer okWhole .error) .get (ascii "127.0.0.1") 80 (ascii "/") []
      (∅ : BytesMap)).1 = some response ∧
    CompleteResponse 1024 .error (Chunks.stream okWhole) response := by
  have hsome : (send ⟨1024, by decide⟩ (workingPeer okWhole .error) .get (ascii "127.0.0.1") 80
      (ascii "/") [] (∅ : BytesMap)).1.isSome := by decide +kernel
  obtain ⟨response, h⟩ := Option.isSome_iff_exists.1 hsome
  exact ⟨response, h, send_complete ⟨1024, by decide⟩ (workingPeer okWhole .error) .get
    (ascii "127.0.0.1") 80 (ascii "/") [] ∅ h⟩

end HttpClient

end FalconHTTP
