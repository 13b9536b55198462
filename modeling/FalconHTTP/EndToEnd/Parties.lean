import FalconHTTP.Client.RequestRoundTrip
import FalconHTTP.Client.ResponseRoundTrip
import FalconHTTP.Client.ResponseSegmentation
import FalconHTTP.Core.Answer
import FalconHTTP.Core.ReadBounds
import FalconHTTP.Foundation.Exchange

/-!
# The two parties as readers

The read loops of the server and of the client are readers of the library: `requestReader` steps
through `ReadPoint`, `responseReader` through the variables of the receive loop. On the chunks of a
list they read what `readRequest` and `receiveLoop` read (`read_requestReader`,
`read_responseReader`).

A request that the client builds and a response that the serializer writes are delimited messages
for them (`delimits_buildRequest`, `delimits_serialize`): read whole they give the request and the
response, and cut short they give nothing.
-/

namespace FalconHTTP

open Occurrence FiniteMap

variable {M : Type} [FiniteMap M Bytes Bytes]

/-- The chunks a byte stream is cut into. -/
def chunkPieces : Pieces UInt8 (Chunk defaultReadChunk) where
  content := Chunk.bytes
  content_ne_nil := Chunk.ne_nil
  single c := ⟨[c], by simp, Nat.succ_le_of_lt (by decide)⟩
  content_single _ := rfl

@[simp] theorem stream_chunkPieces (chunks : Chunks) :
    chunkPieces.stream chunks = chunks.stream := by
  rw [Pieces.stream, List.flatMap_def]
  rfl

/-! ### The server reads a request -/

/-- The server as a reader of requests. -/
def requestReader (M : Type) [FiniteMap M Bytes Bytes] (caps : SizeCaps) :
    Reader (Chunk defaultReadChunk) (ReadPoint M) (ReadOutcome M) where
  start := .first
  feed p more := afterReceive caps p (some more)
  result? := ReadPoint.outcome?
  finish p _ := (afterReceive caps p none).outcome?.getD .closed
  result?_start := rfl

section RequestReader

variable {caps : SizeCaps}

/-- The end of the data closes the connection of a reader that is not done. -/
theorem outcome?_afterReceive_none {p : ReadPoint M} (h : p.outcome? = none) :
    (afterReceive caps p none).outcome? = some .closed := by
  cases p with
  | first => rfl
  | header raw => rfl
  | body raw headerEnd contentLength bodyBytesSoFar => rfl
  | done raw outcome => exact absurd h (by simp [ReadPoint.outcome?])

/-- A reader that is done stays as it is. -/
theorem outcome?_afterReceive_of_done {p : ReadPoint M} {outcome : ReadOutcome M}
    (h : p.outcome? = some outcome) (received : Option (Chunk defaultReadChunk)) :
    (afterReceive caps p received).outcome? = some outcome := by
  cases p with
  | first => cases h
  | header raw => cases h
  | body raw headerEnd contentLength bodyBytesSoFar => cases h
  | done raw outcome' => exact h

/-- **The reader reads what `readRequest` reads**, however the data ends. -/
theorem read_requestReader (chunks : Chunks) (e : EndOfStream) :
    (requestReader M caps).read chunks e = (readRequest caps chunks).1 := by
  have hends : (afterReceive caps ((requestReader M caps).feedAll chunks) none).outcome? =
      some (readRequest caps chunks).1 := by
    have h := outcome?_after (M := M) caps chunks
    rwa [after_getElem?, resume] at h
  rw [Reader.read]
  show (((requestReader M caps).feedAll chunks).outcome?).getD
    ((afterReceive caps ((requestReader M caps).feedAll chunks) none).outcome?.getD .closed) = _
  rw [hends, Option.getD_some]
  rcases hdone : ((requestReader M caps).feedAll chunks).outcome? with - | outcome
  · rfl
  · exact Option.some.inj ((outcome?_afterReceive_of_done hdone none).symm.trans hends)

end RequestReader

/-! ### The client reads a response -/

namespace HttpClient

/-- Where `send` waits for a receive, with its variables, or what it returns. -/
inductive ResponsePoint (M : Type) [FiniteMap M Bytes Bytes]
  /-- The receive in the loop. -/
  | receiving (r : Receiving M)
  /-- The loop is over. -/
  | ended (result : Option (ClientResponse M))

/-- From the return of one receive to the next: take in the bytes, and leave the loop when the
response is complete. -/
def takeIn (maxResponseSize : ℕ) :
    ResponsePoint M → Chunk defaultReadChunk → ResponsePoint M
  | .ended result, _ => .ended result
  | .receiving r, chunk =>
    match r.append maxResponseSize chunk.bytes with
    | none => .ended none
    | some r =>
      match r.complete? with
      | some headEnd => .ended (some (r.finish headEnd))
      | none => .receiving r

/-- From a receive that returns no data to the end. -/
def endOfData : ResponsePoint M → EndOfStream → Option (ClientResponse M)
  | .ended result, _ => result
  | .receiving r, .closed => r.atEof
  | .receiving _, .failed => none

/-- What the loop has returned. -/
def ResponsePoint.result? : ResponsePoint M → Option (Option (ClientResponse M))
  | .receiving _ => none
  | .ended result => some result

/-- The client as a reader of responses. -/
def responseReader (M : Type) [FiniteMap M Bytes Bytes] (maxResponseSize : ℕ) :
    Reader (Chunk defaultReadChunk) (ResponsePoint M) (Option (ClientResponse M)) where
  start := .receiving .start
  feed := takeIn maxResponseSize
  result? := ResponsePoint.result?
  finish := endOfData
  result?_start := rfl

/-- How receives end. -/
def streamEnd : EndOfStream → StreamEnd
  | .closed => .eof
  | .failed => .error

section ResponseReader

variable {maxResponseSize : ℕ}

@[simp] theorem foldl_takeIn_ended (result : Option (ClientResponse M)) (chunks : Chunks) :
    chunks.foldl (takeIn maxResponseSize) (.ended result) = .ended result := by
  induction chunks with
  | nil => rfl
  | cons chunk chunks ih => exact ih

/-- From any turn of the loop on, the points are those of `receiveLoop`. -/
theorem endOfData_foldl_takeIn {r : Receiving M} (h : r.complete? = none) (chunks : Chunks)
    (e : EndOfStream) :
    endOfData (chunks.foldl (takeIn maxResponseSize) (.receiving r)) e =
      receiveLoop maxResponseSize (streamEnd e) chunks r := by
  induction chunks generalizing r with
  | nil =>
    rw [receiveLoop_nil h]
    cases e with
    | closed => rfl
    | failed => rfl
  | cons chunk chunks ih =>
    rw [List.foldl_cons, takeIn]
    rcases happend : r.append maxResponseSize chunk.bytes with - | r'
    · simp only [foldl_takeIn_ended, endOfData, receiveLoop_cons_of_none h happend]
    · rw [receiveLoop_cons h happend]
      simp only
      rcases hcomplete : r'.complete? with - | headEnd
      · exact ih hcomplete
      · simp only [foldl_takeIn_ended, endOfData, receiveLoop_of_complete hcomplete]

/-- **The reader reads what the receive loop reads.** -/
theorem read_responseReader (chunks : Chunks) (e : EndOfStream) :
    (responseReader M maxResponseSize).read chunks e =
      receiveLoop maxResponseSize (streamEnd e) chunks .start := by
  rw [← endOfData_foldl_takeIn rfl, Reader.read]
  show (ResponsePoint.result? (chunks.foldl (takeIn maxResponseSize) (.receiving .start))).getD
    (endOfData (chunks.foldl (takeIn maxResponseSize) (.receiving .start)) e) = _
  rcases chunks.foldl (takeIn maxResponseSize) (.receiving (.start : Receiving M)) with r | result
  · rfl
  · rfl

end ResponseReader

/-! ### The messages are delimited -/

/-- A request that has not arrived completely is not read. -/
theorem readRequest_of_prefix {caps : SizeCaps} {method : HttpMethod} {host : Bytes}
    {port : UInt16} {path body : Bytes} {headers : M} (hsafe : WireSafe host path headers)
    (hheader : (buildRequest method host port path body headers).length - body.length ≤
      caps.maxHeaderSize)
    (hbody : body.length ≤ caps.maxBodySize) {chunks : Chunks} {rest : Bytes} (hrest : rest ≠ [])
    (h : chunks.stream ++ rest = buildRequest method host port path body headers) :
    (readRequest caps chunks (M := M)).1 = .closed := by
  rw [buildRequest_eq_encode hsafe] at h hheader
  rw [List.length_append, Nat.add_sub_cancel] at hheader
  rcases indexOf?_blankLine_prefix h with ⟨body₁, hstream, hbody₁, -⟩ | ⟨hlt, hnone⟩
  · have hpos := List.length_pos_iff.2 hrest
    have hlength := congrArg List.length hbody₁
    rw [List.length_append] at hlength
    have hdecl := declaredLength_requestHead hsafe method port body
      (Nat.lt_of_le_of_lt hbody caps.maxBodySize_lt)
    have hspec : requestSpec caps (requestHead hsafe method port body) body₁ =
        (.closed : ReadOutcome M) := by
      rw [requestSpec, hdecl]
      simp only [if_neg (Nat.not_lt.2 hbody)]
      exact if_pos (by omega)
    rcases readRequest_of_head (M := M) hstream with ⟨-, hends⟩ | ⟨⟨taken, -, hcap, hlen⟩, -⟩
    · rwa [hspec] at hends
    · omega
  · rw [readRequest_of_no_blankLine hnone]
    exact if_neg (by omega)

/-- **A request is delimited** for a server whose caps it fits. -/
theorem delimits_buildRequest {caps : SizeCaps} {method : HttpMethod} {host : Bytes}
    {port : UInt16} {path body : Bytes} {headers : M} (hsafe : WireSafe host path headers)
    (hheader : (buildRequest method host port path body headers).length - body.length ≤
      caps.maxHeaderSize)
    (hbody : body.length ≤ caps.maxBodySize) :
    (requestReader M caps).Delimits chunkPieces
      (buildRequest method host port path body headers)
      (.request (sentRequest method host port path body headers)) .closed := by
  refine Reader.delimits_of_read (fun p c outcome h ↦ outcome?_afterReceive_of_done h (some c))
    (fun p h ↦ ?_) (by simp) (fun chunks hchunks e ↦ ?_) (fun chunks hprefix hne e ↦ ?_)
  · show (afterReceive caps p none).outcome?.getD .closed = _
    rw [outcome?_afterReceive_none h, Option.getD_some]
  · rw [read_requestReader]
    exact readRequest_of_buildRequest hsafe hheader hbody (by rwa [stream_chunkPieces] at hchunks)
  · rw [read_requestReader]
    obtain ⟨rest, hrest⟩ := hprefix
    have hrest' : rest ≠ [] := by
      rintro rfl
      exact hne (by rw [← hrest, List.append_nil])
    rw [stream_chunkPieces] at hrest
    exact readRequest_of_prefix hsafe hheader hbody hrest' hrest

/-- A stream that is accepted with a clean end or without is not accepted with less of its body. -/
theorem responseSpec_of_lt {maxResponseSize : ℕ} {head : MessageHead} {body body₁ : Bytes}
    {response : ClientResponse M}
    (h : responseSpec maxResponseSize .error head body = some response)
    (hlt : body₁.length < response.body.length) (ending : StreamEnd) :
    responseSpec maxResponseSize ending head body₁ = (none : Option (ClientResponse M)) := by
  rw [responseSpec] at h ⊢
  rcases hfold : foldHead head (emptyResponse : ClientResponse M) with - | parsed
  · rfl
  rw [hfold] at h
  simp only at h ⊢
  rcases hlength : find? parsed.headers (ascii "content-length") with - | value
  · simp [hlength] at h
  simp only [hlength] at h ⊢
  rcases hnumber : parseNumber value with - | n
  · rfl
  simp only [hnumber] at h ⊢
  by_cases hbig : n > maxResponseSize
  · rw [if_pos hbig]
  rw [if_neg hbig] at h ⊢
  by_cases hshort : body.length < n
  · rw [if_pos hshort] at h
    cases h
  rw [if_neg hshort] at h
  obtain rfl := Option.some.inj h
  refine if_pos ?_
  simp only [List.length_take] at hlt
  omega

/-- A response that has not arrived completely is not returned. -/
theorem receiveLoop_of_prefix {response : HttpResponse M}
    (hreadable : ∀ name value, find? response.headers.map name = some value →
      Readable (name, value))
    {options : ClientOptions}
    (hsize : (HttpSerializer.serialize response).length ≤ options.maxResponseSize)
    {chunks : Chunks} {rest : Bytes} (hrest : rest ≠ [])
    (h : chunks.stream ++ rest = HttpSerializer.serialize response) (ending : StreamEnd) :
    receiveLoop options.maxResponseSize ending chunks (.start : Receiving M) = none := by
  have hwhole : receiveLoop options.maxResponseSize .error (Chunks.bytewise _) .start =
      some (receivedResponse response) :=
    receiveLoop_serialize hreadable (Chunks.stream_bytewise _) hsize
  have hencode := serialize_eq_encode hreadable
  rw [receiveLoop_of_head ((Chunks.stream_bytewise _).trans hencode)
    (by rwa [Chunks.stream_bytewise])] at hwhole
  have hfits : chunks.stream.length ≤ options.maxResponseSize := by
    have hlength := congrArg List.length h
    rw [List.length_append] at hlength
    omega
  rw [hencode] at h
  rcases indexOf?_blankLine_prefix h with ⟨body₁, hstream, hbody₁, -⟩ | ⟨-, hnone⟩
  · rw [receiveLoop_of_head hstream hfits]
    refine responseSpec_of_lt hwhole ?_ ending
    show body₁.length < response.body.length
    have hpos := List.length_pos_iff.2 hrest
    have hlength := congrArg List.length hbody₁
    rw [List.length_append] at hlength
    omega
  · by_contra hsome
    obtain ⟨received, hsome⟩ := Option.ne_none_iff_exists'.1 hsome
    obtain ⟨blank, -, hfound, -⟩ :=
      receiveLoop_complete (Receiving.sound_start options.maxResponseSize) hsome
    exact absurd (hnone.symm.trans hfound) (by simp)

/-- **A response is delimited** for a client whose limit it fits. -/
theorem delimits_serialize {response : HttpResponse M}
    (hreadable : ∀ name value, find? response.headers.map name = some value →
      Readable (name, value))
    {options : ClientOptions}
    (hsize : (HttpSerializer.serialize response).length ≤ options.maxResponseSize) :
    (responseReader M options.maxResponseSize).Delimits chunkPieces
      (HttpSerializer.serialize response) (some (receivedResponse response)) none := by
  refine Reader.delimits_of_read (fun p c result h ↦ ?_) (fun p h ↦ ?_) (by simp)
    (fun chunks hchunks e ↦ ?_) (fun chunks hprefix hne e ↦ ?_)
  · cases p with
    | receiving r => cases h
    | ended result' => exact h
  · cases p with
    | receiving r => rfl
    | ended result => cases h
  · rw [read_responseReader]
    exact receiveLoop_serialize hreadable (by rwa [stream_chunkPieces] at hchunks) hsize
  · rw [read_responseReader]
    obtain ⟨rest, hrest⟩ := hprefix
    have hrest' : rest ≠ [] := by
      rintro rfl
      exact hne (by rw [← hrest, List.append_nil])
    rw [stream_chunkPieces] at hrest
    exact receiveLoop_of_prefix hreadable hsize hrest' hrest (streamEnd e)

end HttpClient

end FalconHTTP
