import FalconHTTP.Client.ResponseIntegrity

/-!
# When the client's result depends on how the response was cut

The size limit is compared with everything received, before the loop asks whether the response is
complete. Bytes past the declared body count when they arrive in the receive that completes the
response, and are never seen when they arrive later. So a response that fits the limit can be
returned or given up, depending on how the stream was cut.

`receiveLoop_isSome_iff` says when a response with a declared length is returned: when some receive
ends past the response and within the limit. `send_segmentation_iff` says for which streams every
cutting has the same result.
-/

namespace FalconHTTP

/-! ### Cuttings -/

namespace Chunks

@[simp] theorem stream_append (cs ds : Chunks) :
    Chunks.stream (cs ++ ds) = cs.stream ++ ds.stream := by
  rw [stream, List.map_append, List.flatten_append]
  rfl

/-- A prefix of the chunks has a prefix of the stream. -/
theorem stream_prefix {cs ds : Chunks} (h : cs <+: ds) : cs.stream <+: ds.stream := by
  obtain ⟨es, rfl⟩ := h
  rw [stream_append]
  exact List.prefix_append _ _

/-- Less than one receive after any place of the stream, some chunk ends. -/
theorem exists_boundary (cs : Chunks) {place : ℕ} (hpos : 0 < place)
    (hplace : place ≤ cs.stream.length) : ∃ taken : Chunks, taken <+: cs ∧
      place ≤ taken.stream.length ∧ taken.stream.length < place + defaultReadChunk := by
  induction cs generalizing place with
  | nil =>
    rw [stream_nil, List.length_nil] at hplace
    omega
  | cons c cs ih =>
    have hc := c.length_le
    rcases Nat.lt_or_ge c.bytes.length place with hlt | hge
    · rw [stream_cons, List.length_append] at hplace
      obtain ⟨taken, hpre, hle, hlen⟩ := ih (Nat.sub_pos_of_lt hlt)
        (Nat.sub_le_iff_le_add'.2 hplace)
      refine ⟨c :: taken, List.cons_prefix_cons.2 ⟨rfl, hpre⟩, ?_, ?_⟩
      · rw [stream_cons, List.length_append]
        omega
      · rw [stream_cons, List.length_append]
        omega
    · refine ⟨[c], List.cons_prefix_cons.2 ⟨rfl, List.nil_prefix⟩, ?_, ?_⟩
      · simpa using hge
      · simp only [stream_cons, stream_nil, List.append_nil]
        omega

/-- The stream one byte at a time. -/
def bytewise (stream : Bytes) : Chunks :=
  stream.map fun b ↦ ⟨[b], List.cons_ne_nil _ _, by simp [defaultReadChunk]⟩

@[simp] theorem stream_bytewise (stream : Bytes) : (bytewise stream).stream = stream := by
  induction stream with
  | nil => rfl
  | cons b stream ih => exact congrArg (b :: ·) ih

theorem bytewise_prefix (stream : Bytes) (n : ℕ) : bytewise (stream.take n) <+: bytewise stream :=
  List.IsPrefix.map _ (List.take_prefix n stream)

end Chunks

namespace HttpClient

open Occurrence FiniteMap

variable {M : Type} [FiniteMap M Bytes Bytes]

/-! ### Responses with a declared length -/

/-- Where the response that a stream starts with ends, when its head is accepted and declares a
length. -/
def declaredEnd? (M : Type) [FiniteMap M Bytes Bytes] (stream : Bytes) : Option ℕ := do
  let blank ← indexOf? blankLine stream
  let parsed ← parseHead (stream.take blank) (emptyResponse : ClientResponse M)
  let value ← find? parsed.headers (ascii "content-length")
  let n ← parseNumber value
  return blank + 4 + n

theorem declaredEnd?_eq_some_iff {stream : Bytes} {responseEnd : ℕ} :
    declaredEnd? M stream = some responseEnd ↔
      ∃ blank parsed value n, indexOf? blankLine stream = some blank ∧
        parseHead (stream.take blank) (emptyResponse : ClientResponse M) = some parsed ∧
        find? parsed.headers (ascii "content-length") = some value ∧
        parseNumber value = some n ∧ blank + 4 + n = responseEnd := by
  simp [declaredEnd?, Option.bind_eq_some_iff]

namespace Receiving

variable {maxResponseSize responseEnd : ℕ} {r : Receiving M} {rest : Bytes}

/-- Without the head, the response has not arrived. -/
theorem Sound.lt_of_searching (hr : r.Sound maxResponseSize)
    (hdeclared : declaredEnd? M (r.received ++ rest) = some responseEnd) (hend : r.headEnd = none) :
    r.received.length < responseEnd := by
  obtain ⟨blank, parsed, value, n, hblank, -, -, -, rfl⟩ := declaredEnd?_eq_some_iff.1 hdeclared
  have hlt := (indexOf?_prefix_eq_none_iff (by simp [blankLine]) hblank).1 (hr.searching hend).1
  have hfour : blankLine.length = 4 := rfl
  omega

/-- With the head, the variables hold the declared length. -/
theorem Sound.expectedBody_of_headEnd (hr : r.Sound maxResponseSize)
    (hdeclared : declaredEnd? M (r.received ++ rest) = some responseEnd) {headEnd : ℕ}
    (hend : r.headEnd = some headEnd) :
    r.hasLength = true ∧ headEnd + r.expectedBody = responseEnd := by
  obtain ⟨blank, parsed, value, n, hblank, hhead, hvalue, hnumber, rfl⟩ :=
    declaredEnd?_eq_some_iff.1 hdeclared
  obtain ⟨blank', rfl, hparsed⟩ := hr.parsed headEnd hend
  have hle := le_length_of_indexOf? (by simp [blankLine]) hparsed.found
  obtain rfl := Option.some.inj
    ((indexOf?_append_of_eq_some (by simp [blankLine]) hparsed.found).symm.trans hblank)
  rw [List.take_append_of_le_length (by omega)] at hhead
  obtain rfl := Option.some.inj (hparsed.head.symm.trans hhead)
  have hlength := hparsed.declared
  rw [hvalue] at hlength
  obtain rfl := Option.some.inj (hlength.1.symm.trans hnumber)
  exact ⟨hlength.2.1, rfl⟩

/-- The loop is left exactly when the response has arrived. -/
theorem Sound.complete?_eq_none_iff (hr : r.Sound maxResponseSize)
    (hdeclared : declaredEnd? M (r.received ++ rest) = some responseEnd) :
    r.complete? = none ↔ r.received.length < responseEnd := by
  rw [complete?]
  rcases hend : r.headEnd with - | headEnd
  · exact iff_of_true rfl (hr.lt_of_searching hdeclared hend)
  · obtain ⟨hlength, hsum⟩ := hr.expectedBody_of_headEnd hdeclared hend
    have hle := hr.headEnd_le hend
    simp only [hlength, true_and]
    split
    · rename_i hge
      exact iff_of_false (by simp) (by omega)
    · rename_i hlt
      exact iff_of_true rfl (by omega)

/-- The end of the data before the response has arrived gives it up. -/
theorem Sound.atEof_eq_none (hr : r.Sound maxResponseSize)
    (hdeclared : declaredEnd? M (r.received ++ rest) = some responseEnd)
    (hlt : r.received.length < responseEnd) : r.atEof = none := by
  rw [atEof]
  rcases hend : r.headEnd with - | headEnd
  · rfl
  · obtain ⟨hlength, hsum⟩ := hr.expectedBody_of_headEnd hdeclared hend
    have hle := hr.headEnd_le hend
    exact if_pos ⟨hlength, by omega⟩

/-- As long as the response fits the limit, a receive is taken in exactly when all that has been
received fits it. -/
theorem Sound.append_eq_none_iff (hr : r.Sound maxResponseSize) {got : Bytes}
    (hdeclared : declaredEnd? M (r.received ++ got ++ rest) = some responseEnd)
    (hle : responseEnd ≤ maxResponseSize) :
    r.append maxResponseSize got = none ↔ maxResponseSize < (r.received ++ got).length := by
  constructor
  · intro hnone
    by_contra hfits
    replace hfits := Nat.le_of_not_lt hfits
    rcases hend : r.headEnd with - | headEnd
    · rw [append_of_searching hfits hend] at hnone
      rcases hfound : indexOf? blankLine (r.received ++ got) with - | blank
      · simp [hfound] at hnone
      obtain ⟨blank', parsed, value, n, hblank, hhead, hvalue, hnumber, rfl⟩ :=
        declaredEnd?_eq_some_iff.1 hdeclared
      have hlen := le_length_of_indexOf? (by simp [blankLine]) hfound
      obtain rfl := Option.some.inj
        ((indexOf?_append_of_eq_some (by simp [blankLine]) hfound).symm.trans hblank)
      rw [List.take_append_of_le_length (by omega)] at hhead
      have hfits' : ¬ n > maxResponseSize := by omega
      simp [hfound, readHead, (hr.searching hend).2.1, hhead, hvalue, hnumber, hfits'] at hnone
    · simp [append_of_headEnd hfits hend] at hnone
  · exact append_of_lt

end Receiving

section ReceiveLoop

variable {maxResponseSize responseEnd : ℕ} {ending : StreamEnd} {r : Receiving M}

/-- A response that has arrived is returned. -/
private theorem isSome_of_le {chunks : Chunks} (hr : r.Sound maxResponseSize)
    (hdeclared : declaredEnd? M (r.received ++ chunks.stream) = some responseEnd)
    (hge : responseEnd ≤ r.received.length) :
    (receiveLoop maxResponseSize ending chunks r).isSome := by
  rcases hcomplete : r.complete? with - | headEnd
  · exact absurd ((hr.complete?_eq_none_iff hdeclared).1 hcomplete) (Nat.not_lt.2 hge)
  · rw [receiveLoop_of_complete hcomplete]
    rfl

/-- As long as the response has not arrived, the prefixes of the chunks that matter start with the
next chunk. -/
private theorem exists_taken_cons {received : Bytes} {chunk : Chunk defaultReadChunk}
    {chunks : Chunks} (hlt : received.length < responseEnd) :
    (∃ taken : Chunks, taken <+: chunk :: chunks ∧
        responseEnd ≤ (received ++ taken.stream).length ∧
        (received ++ taken.stream).length ≤ maxResponseSize) ↔
      ∃ taken : Chunks, taken <+: chunks ∧
        responseEnd ≤ (received ++ chunk.bytes ++ taken.stream).length ∧
        (received ++ chunk.bytes ++ taken.stream).length ≤ maxResponseSize := by
  constructor
  · rintro ⟨taken, hpre, harrived, hfits⟩
    cases taken with
    | nil =>
      rw [Chunks.stream_nil, List.append_nil] at harrived
      omega
    | cons c taken =>
      obtain ⟨rfl, hpre'⟩ := List.cons_prefix_cons.1 hpre
      exact ⟨taken, hpre', by simpa using harrived, by simpa using hfits⟩
  · rintro ⟨taken, hpre, harrived, hfits⟩
    exact ⟨chunk :: taken, List.cons_prefix_cons.2 ⟨rfl, hpre⟩, by simpa using harrived,
      by simpa using hfits⟩

/-- **When a response with a declared length is returned**: when some receive ends past the response
and within the limit. -/
theorem receiveLoop_isSome_iff (ending : StreamEnd) {chunks : Chunks}
    (hr : r.Sound maxResponseSize)
    (hdeclared : declaredEnd? M (r.received ++ chunks.stream) = some responseEnd)
    (hle : responseEnd ≤ maxResponseSize) :
    (receiveLoop maxResponseSize ending chunks r).isSome ↔
      ∃ taken : Chunks, taken <+: chunks ∧ responseEnd ≤ (r.received ++ taken.stream).length ∧
        (r.received ++ taken.stream).length ≤ maxResponseSize := by
  induction chunks generalizing r with
  | nil =>
    rcases Nat.lt_or_ge r.received.length responseEnd with hlt | hge
    · have hcomplete := (hr.complete?_eq_none_iff hdeclared).2 hlt
      have hnone : receiveLoop maxResponseSize ending [] r = none := by
        rw [receiveLoop_nil hcomplete]
        cases ending with
        | error => rfl
        | eof => exact hr.atEof_eq_none hdeclared hlt
      rw [hnone]
      refine iff_of_false (by simp) ?_
      rintro ⟨taken, hpre, harrived, -⟩
      rw [List.prefix_nil.1 hpre, Chunks.stream_nil, List.append_nil] at harrived
      omega
    · exact iff_of_true (isSome_of_le hr hdeclared hge)
        ⟨[], List.nil_prefix, by simpa using hge, by simpa using hr.length_le⟩
  | cons chunk chunks ih =>
    rcases Nat.lt_or_ge r.received.length responseEnd with hlt | hge
    · have hcomplete := (hr.complete?_eq_none_iff hdeclared).2 hlt
      rw [Chunks.stream_cons, ← List.append_assoc] at hdeclared
      rw [exists_taken_cons hlt]
      rcases happend : r.append maxResponseSize chunk.bytes with - | r'
      · rw [receiveLoop_cons_of_none hcomplete happend]
        refine iff_of_false (by simp) ?_
        rintro ⟨taken, -, -, hfits⟩
        have hbig := (hr.append_eq_none_iff hdeclared hle).1 happend
        rw [List.length_append] at hfits
        omega
      · obtain ⟨hreceived, hr'⟩ := hr.append happend
        rw [receiveLoop_cons hcomplete happend, ← hreceived]
        exact ih hr' (hreceived ▸ hdeclared)
    · exact iff_of_true (isSome_of_le hr hdeclared hge)
        ⟨[], List.nil_prefix, by simpa using hge, by simpa using hr.length_le⟩

end ReceiveLoop

/-! ### Cutting a response off -/

/-- One receive can reach from inside the response, which fits the limit, to past the limit. -/
def CapStraddled (M : Type) [FiniteMap M Bytes Bytes] (maxResponseSize : ℕ) (stream : Bytes) :
    Prop :=
  ∃ responseEnd, declaredEnd? M stream = some responseEnd ∧ responseEnd ≤ maxResponseSize ∧
    maxResponseSize < stream.length ∧ maxResponseSize + 2 ≤ responseEnd + defaultReadChunk

section Cutting

variable {maxResponseSize responseEnd : ℕ} {stream : Bytes}

/-- The cutting in which one receive reaches from the last byte of the response to the first byte
past the limit. -/
def straddling (stream : Bytes) (responseEnd maxResponseSize : ℕ) (hpos : 0 < responseEnd)
    (hle : responseEnd ≤ maxResponseSize) (hlt : maxResponseSize < stream.length)
    (hreach : maxResponseSize + 2 ≤ responseEnd + defaultReadChunk) : Chunks :=
  Chunks.bytewise (stream.take (responseEnd - 1)) ++
    ⟨(stream.take (maxResponseSize + 1)).drop (responseEnd - 1),
      by rw [ne_eq, List.drop_eq_nil_iff, List.length_take]; omega,
      by rw [List.length_drop, List.length_take]; omega⟩ ::
    Chunks.bytewise (stream.drop (maxResponseSize + 1))

theorem stream_straddling (hpos : 0 < responseEnd) (hle : responseEnd ≤ maxResponseSize)
    (hlt : maxResponseSize < stream.length)
    (hreach : maxResponseSize + 2 ≤ responseEnd + defaultReadChunk) :
    (straddling stream responseEnd maxResponseSize hpos hle hlt hreach).stream = stream := by
  have htake : stream.take (responseEnd - 1) =
      (stream.take (maxResponseSize + 1)).take (responseEnd - 1) := by
    rw [List.take_take, Nat.min_eq_left (by omega)]
  rw [straddling, Chunks.stream_append, Chunks.stream_cons, Chunks.stream_bytewise,
    Chunks.stream_bytewise, ← List.append_assoc, htake, List.take_append_drop,
    List.take_append_drop]

/-- In that cutting, no receive ends past the response and within the limit. -/
theorem not_boundary_straddling (hpos : 0 < responseEnd) (hle : responseEnd ≤ maxResponseSize)
    (hlt : maxResponseSize < stream.length)
    (hreach : maxResponseSize + 2 ≤ responseEnd + defaultReadChunk) {taken : Chunks}
    (htaken : taken <+: straddling stream responseEnd maxResponseSize hpos hle hlt hreach) :
    taken.stream.length < responseEnd ∨ maxResponseSize < taken.stream.length := by
  rw [straddling, List.append_cons] at htaken
  rcases List.prefix_or_prefix_of_prefix htaken (List.prefix_append _ _) with hpre | hpre
  · rcases List.prefix_concat_iff.1 hpre with rfl | hbefore
    · refine Or.inr ?_
      simp only [Chunks.stream_append, Chunks.stream_cons, Chunks.stream_bytewise,
        Chunks.stream_nil, List.append_nil, List.length_append, List.length_take, List.length_drop]
      omega
    · refine Or.inl ?_
      have hlen := (Chunks.stream_prefix hbefore).length_le
      rw [Chunks.stream_bytewise, List.length_take] at hlen
      omega
  · refine Or.inr ?_
    have hlen := (Chunks.stream_prefix hpre).length_le
    simp only [Chunks.stream_append, Chunks.stream_cons, Chunks.stream_bytewise,
      Chunks.stream_nil, List.append_nil, List.length_append, List.length_take,
      List.length_drop] at hlen
    omega

end Cutting

/-! ### Segmentation -/

/-- A complete response with a declared length ends inside the stream and within the limit. -/
theorem CompleteResponse.declaredEnd? {maxResponseSize : ℕ} {ending : StreamEnd} {stream : Bytes}
    {response : ClientResponse M} (h : CompleteResponse maxResponseSize ending stream response)
    (hlong : maxResponseSize < stream.length) :
    ∃ responseEnd, HttpClient.declaredEnd? M stream = some responseEnd ∧
      0 < responseEnd ∧ responseEnd ≤ maxResponseSize := by
  obtain ⟨blank, parsed, hblank, hparsed, hfits, hbody⟩ := h
  rcases hvalue : find? parsed.headers (ascii "content-length") with - | value
  · rw [hvalue] at hbody
    rw [hbody.2] at hfits
    simp only [List.length_drop] at hfits
    omega
  · rw [hvalue] at hbody
    obtain ⟨n, hnumber, hle, rfl⟩ := hbody
    simp only [List.length_take, List.length_drop] at hfits
    exact ⟨blank + 4 + n, declaredEnd?_eq_some_iff.2
      ⟨blank, parsed, value, n, hblank, hparsed, hvalue, hnumber, rfl⟩, by omega, by omega⟩

/-- What one cutting returns, every cutting returns, as long as no receive can reach from inside the
response to past the limit. -/
private theorem receiveLoop_eq_some {maxResponseSize : ℕ} {stream : Bytes}
    (hsafe : ¬ CapStraddled M maxResponseSize stream) {chunks₁ chunks₂ : Chunks}
    (h₁ : chunks₁.stream = stream) (h₂ : chunks₂.stream = stream) {response : ClientResponse M}
    (h : receiveLoop maxResponseSize .eof chunks₁ .start = some response) :
    receiveLoop maxResponseSize .eof chunks₂ .start = some response := by
  have hcomplete := receiveLoop_complete (Receiving.sound_start maxResponseSize) h
  rw [show (Receiving.start : Receiving M).received ++ chunks₁.stream = stream from h₁] at hcomplete
  rcases Nat.lt_or_ge maxResponseSize stream.length with hlong | hfits
  · obtain ⟨responseEnd, hdeclared, hpos, hle⟩ := hcomplete.declaredEnd? hlong
    have hreach : responseEnd + defaultReadChunk < maxResponseSize + 2 :=
      Nat.lt_of_not_le fun hreach ↦ hsafe ⟨responseEnd, hdeclared, hle, hlong, hreach⟩
    obtain ⟨taken, hpre, harrived, hlen⟩ :=
      Chunks.exists_boundary chunks₂ hpos (h₂ ▸ hle.trans hlong.le)
    have hsome := (receiveLoop_isSome_iff .eof (Receiving.sound_start maxResponseSize)
      (show HttpClient.declaredEnd? M ([] ++ chunks₂.stream) = some responseEnd from h₂ ▸ hdeclared)
      hle).2 ⟨taken, hpre, harrived, show taken.stream.length ≤ _ by omega⟩
    obtain ⟨response', h'⟩ := Option.isSome_iff_exists.1 hsome
    have hcomplete' := receiveLoop_complete (Receiving.sound_start maxResponseSize) h'
    rw [show (Receiving.start : Receiving M).received ++ chunks₂.stream = stream from h₂]
      at hcomplete'
    rw [h', hcomplete'.unique hcomplete]
  · obtain ⟨blank, parsed, hblank, -⟩ := hcomplete
    obtain ⟨head, body, hstream, -⟩ := exists_head_of_blankLine hblank
    rw [receiveLoop_of_head (h₁.trans hstream) (h₁ ▸ hfits)] at h
    rw [receiveLoop_of_head (h₂.trans hstream) (h₂ ▸ hfits), h]

/-- **Two cuttings of one stream** have the same result, as long as no receive can reach from inside
the response to past the limit. -/
theorem receiveLoop_segmentation {maxResponseSize : ℕ} {stream : Bytes}
    (hsafe : ¬ CapStraddled M maxResponseSize stream) {chunks₁ chunks₂ : Chunks}
    (h₁ : chunks₁.stream = stream) (h₂ : chunks₂.stream = stream) :
    receiveLoop maxResponseSize .eof chunks₁ (.start : Receiving M) =
      receiveLoop maxResponseSize .eof chunks₂ .start := by
  ext response
  exact ⟨receiveLoop_eq_some hsafe h₁ h₂, receiveLoop_eq_some hsafe h₂ h₁⟩

/-- Otherwise two cuttings differ: byte by byte the response is returned, and in the straddling
cutting it is given up. -/
theorem exists_cuttings_of_capStraddled {maxResponseSize : ℕ} {stream : Bytes}
    (h : CapStraddled M maxResponseSize stream) :
    ∃ chunks₁ chunks₂ : Chunks, chunks₁.stream = stream ∧ chunks₂.stream = stream ∧
      (receiveLoop maxResponseSize .eof chunks₁ (.start : Receiving M)).isSome ∧
      ¬ (receiveLoop maxResponseSize .eof chunks₂ (.start : Receiving M)).isSome := by
  obtain ⟨responseEnd, hdeclared, hle, hlt, hreach⟩ := h
  have hpos : 0 < responseEnd := by
    obtain ⟨blank, parsed, value, n, -, -, -, -, rfl⟩ := declaredEnd?_eq_some_iff.1 hdeclared
    omega
  have hbytewise := Chunks.stream_bytewise stream
  have hstraddling := stream_straddling hpos hle hlt hreach
  refine ⟨_, _, hbytewise, hstraddling, ?_, fun hsome ↦ ?_⟩
  · refine (receiveLoop_isSome_iff .eof (Receiving.sound_start maxResponseSize)
      (show declaredEnd? M ([] ++ _) = some responseEnd from hbytewise.symm ▸ hdeclared) hle).2
      ⟨_, Chunks.bytewise_prefix stream responseEnd, ?_, ?_⟩
    · show responseEnd ≤ (Chunks.stream _).length
      rw [Chunks.stream_bytewise, List.length_take]
      omega
    · show (Chunks.stream _).length ≤ maxResponseSize
      rw [Chunks.stream_bytewise, List.length_take]
      omega
  · obtain ⟨taken, hpre, harrived, hfits⟩ :=
      (receiveLoop_isSome_iff .eof (Receiving.sound_start maxResponseSize)
        (show declaredEnd? M ([] ++ _) = some responseEnd from hstraddling.symm ▸ hdeclared) hle).1
        hsome
    have harrived : responseEnd ≤ taken.stream.length := harrived
    have hfits : taken.stream.length ≤ maxResponseSize := hfits
    have hcut := not_boundary_straddling hpos hle hlt hreach hpre
    omega

end HttpClient

/-! ### The exchange -/

/-- The exchange with other data arriving. -/
def Peer.withIncoming (peer : Peer) (incoming : Chunks) : Peer :=
  { peer with endpoint := { peer.endpoint with incoming } }

/-- What a write does to an endpoint does not depend on the data arriving there. -/
theorem Socket.writeLoop_incoming (socket : Socket) (data : Bytes) (fuel totalSent : ℕ)
    (endpoint : Endpoint) (incoming : Chunks) :
    socket.writeLoop data fuel totalSent { endpoint with incoming } =
      ((socket.writeLoop data fuel totalSent endpoint).1,
        { (socket.writeLoop data fuel totalSent endpoint).2 with incoming }) := by
  induction fuel generalizing totalSent endpoint with
  | zero => rfl
  | succ fuel ih =>
    have hsend : socket.send (data.drop totalSent) { endpoint with incoming } =
        ((socket.send (data.drop totalSent) endpoint).1,
          { (socket.send (data.drop totalSent) endpoint).2 with incoming }) := by
      rw [Socket.send, Socket.send]
      rcases socket.fd with - | fd
      · rfl
      simp only [Endpoint.send]
      rcases endpoint.sendResults with - | ⟨result, results⟩
      · rfl
      simp only
      split <;> rfl
    rw [writeLoop, writeLoop]
    split
    · rw [hsend]
      simp only
      split
      · rfl
      · exact ih _ _
    · rfl

namespace HttpClient

open FiniteMap

variable {M : Type} [FiniteMap M Bytes Bytes]

section Exchange

variable (options : ClientOptions) (method : HttpMethod) (host : Bytes) (port : UInt16)
  (path body : Bytes) (headers : M)

/-- An exchange fails before anything is received, whatever would arrive, or its result is the one
of the receive loop. -/
theorem send_withIncoming (peer : Peer) :
    (∀ incoming, (send options (peer.withIncoming incoming) method host port path body headers).1 =
      none) ∨
    ∀ incoming, (send options (peer.withIncoming incoming) method host port path body headers).1 =
      receiveLoop options.maxResponseSize peer.endpoint.ending incoming .start := by
  by_cases hready : Ready peer
  · obtain ⟨accepted, endpoint', hspec, -, htook⟩ := Socket.writeLoop_spec peer.socket
      (buildRequest method host port path body headers) (Nat.le_add_left _ 0) peer.endpoint
    have hsend : ∀ incoming,
        (send options (peer.withIncoming incoming) method host port path body headers).1 =
          if (peer.socket.writeLoop (buildRequest method host port path body headers)
            (buildRequest method host port path body headers).length 0 peer.endpoint).1 then
            receiveLoop options.maxResponseSize peer.endpoint.ending incoming .start
          else none := by
      intro incoming
      have hready' : Ready (peer.withIncoming incoming) :=
        ⟨hready.isValid, hready.connected, hready.sendTimeoutSet, hready.receiveTimeoutSet⟩
      have hwrite := Socket.writeLoop_incoming peer.socket
        (buildRequest method host port path body headers)
        (buildRequest method host port path body headers).length 0 peer.endpoint incoming
      have hresult := congrArg Prod.fst
        (send_of_ready hready' options method host port path body headers hwrite)
      simpa only [hspec, htook.ending] using hresult
    rcases hwritten : (peer.socket.writeLoop (buildRequest method host port path body headers)
      (buildRequest method host port path body headers).length 0 peer.endpoint).1 with - | -
    · exact Or.inl fun incoming ↦ (hsend incoming).trans (if_neg (by simp [hwritten]))
    · exact Or.inr fun incoming ↦ (hsend incoming).trans (if_pos hwritten)
  · refine Or.inl fun incoming ↦ ?_
    have hready' : ¬ Ready (peer.withIncoming incoming) := fun h ↦
      hready ⟨h.isValid, h.connected, h.sendTimeoutSet, h.receiveTimeoutSet⟩
    rw [send_of_not_ready hready']

end Exchange

/-- **When the result does not depend on how the stream was cut**: exactly when no receive can reach
from inside the response to past the limit. -/
theorem send_segmentation_iff (options : ClientOptions) (stream : Bytes) :
    (∀ (peer : Peer) (method : HttpMethod) (host : Bytes) (port : UInt16) (path body : Bytes)
        (headers : M), peer.endpoint.ending = .eof →
      ∀ chunks₁ chunks₂ : Chunks, chunks₁.stream = stream → chunks₂.stream = stream →
        (send options (peer.withIncoming chunks₁) method host port path body headers).1 =
          (send options (peer.withIncoming chunks₂) method host port path body headers).1) ↔
      ¬ CapStraddled M options.maxResponseSize stream := by
  constructor
  · intro hsame hstraddled
    obtain ⟨chunks₁, chunks₂, h₁, h₂, hsome, hnone⟩ := exists_cuttings_of_capStraddled hstraddled
    have heq := hsame (workingPeer [] .eof) .get [] 0 [] [] (FiniteMap.empty : M) rfl
      chunks₁ chunks₂ h₁ h₂
    have hloop : ∀ incoming,
        (send options ((workingPeer [] .eof).withIncoming incoming) .get [] 0 [] []
          (FiniteMap.empty : M)).1 =
          receiveLoop options.maxResponseSize .eof incoming .start := by
      intro incoming
      exact send_fst_of_acceptsWrites (ready_workingPeer incoming .eof)
        (acceptsWrites_workingPeer incoming .eof) options .get [] 0 [] [] FiniteMap.empty
    rw [hloop, hloop] at heq
    exact hnone (heq ▸ hsome)
  · intro hsafe peer method host port path body headers hending chunks₁ chunks₂ h₁ h₂
    rcases send_withIncoming options method host port path body headers peer with hfail | hloop
    · rw [hfail, hfail]
    · rw [hloop, hloop, hending]
      exact receiveLoop_segmentation hsafe h₁ h₂

/-- The stream of `okWhole`, with the response in a chunk of its own. -/
def okCut : Chunks :=
  [⟨okStream.take 40, by decide +kernel, by decide +kernel⟩,
    ⟨okStream.drop 40, by decide +kernel, by decide +kernel⟩]

/-- A response of 40 bytes that fits the limit is given up when the two bytes after it arrive
together with it. -/
theorem not_send_segmentation :
    ¬ ∀ (options : ClientOptions) (peer : Peer) (method : HttpMethod) (host : Bytes) (port : UInt16)
        (path body : Bytes) (headers : BytesMap), peer.endpoint.ending = .eof →
      ∀ chunks₁ chunks₂ : Chunks, chunks₁.stream = chunks₂.stream →
        (send options (peer.withIncoming chunks₁) method host port path body headers).1 =
          (send options (peer.withIncoming chunks₂) method host port path body headers).1 := by
  intro hsame
  have heq := hsame ⟨40, by decide⟩ (workingPeer [] .eof) .get (ascii "127.0.0.1") 80 (ascii "/") []
    ∅ rfl okWhole okCut (by decide +kernel)
  have hwhole : (send ⟨40, by decide⟩ ((workingPeer [] .eof).withIncoming okWhole) .get
      (ascii "127.0.0.1") 80 (ascii "/") [] (∅ : BytesMap)).1.isSome = false := by decide +kernel
  have hcut : (send ⟨40, by decide⟩ ((workingPeer [] .eof).withIncoming okCut) .get
      (ascii "127.0.0.1") 80 (ascii "/") [] (∅ : BytesMap)).1.isSome = true := by decide +kernel
  rw [heq, hcut] at hwhole
  exact absurd hwhole (by simp)

end HttpClient

end FalconHTTP
