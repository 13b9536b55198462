import FalconHTTP.Client.RequestRoundTrip

/-!
# Request splitting

What a reader that knows nothing of the caller's intentions makes of the bytes `HttpClient::send`
writes. The client writes the path, and the caller's names and values, as they are, and recognizes
the headers it owns by their whole name. So the reader sees one request, the one that was meant,
exactly when the arguments are `RequestSafe` (`send_singleRequest_iff`): the path is one token, no
line end is smuggled in, and no name turns into a `Content-Length` at its first colon.
-/

namespace FalconHTTP

namespace HttpClient

open Occurrence Lines Decimal FiniteMap

variable {M : Type} [FiniteMap M Bytes Bytes]

/-- Bytes that a reader takes for one request, with the given target, body and headers. -/
structure SingleRequest (method : HttpMethod) (host : Bytes) (port : UInt16) (path body : Bytes)
    (headers : M) (request : Bytes) : Prop where
  /-- The path is a token without spaces. -/
  token : path ≠ [] ∧ 32 ∉ path
  /-- The first blank line ends the head and the body follows it; the lines of the head are the
  request line, those of the client's headers, and one for each header it does not own. -/
  reads : ReadsAs 13 10 request
    (requestLine method path ::
      (ownedEntries host port body ++ sentEntries headers).map headerLine) body
  /-- One line declares a length, that of the body. -/
  length : valuesOf (ascii "content-length")
    (((ownedEntries host port body ++ sentEntries headers).map headerLine).map readHeaderLine) =
      [decimal body.length]

/-- Arguments that stay within their places in a request. -/
structure RequestSafe (host path : Bytes) (headers : M) : Prop where
  /-- The path is a token without spaces. -/
  token : path ≠ [] ∧ 32 ∉ path
  /-- No line end in the path. -/
  path_clean : indexOf? crlf path = none
  /-- No line end in the host. -/
  host_clean : indexOf? crlf host = none
  /-- No line end in a header that is sent. -/
  headers_clean : ∀ name value, find? headers name = some value → clientOwned name = false →
    indexOf? crlf name = none ∧ indexOf? crlf value = none
  /-- No name that is sent starts like a `Content-Length` header. -/
  no_length : ∀ name value, find? headers name = some value → clientOwned name = false →
    toLowerAscii (name.takeWhile (· != 58)) ≠ ascii "content-length"

/-! ### The lines -/

/-- A request line is clean exactly when its path is. -/
theorem clean_requestLine_iff (method : HttpMethod) (path : Bytes) :
    Clean 13 10 (requestLine method path) ↔ indexOf? crlf path = none := by
  have hmethod : indexOf? crlf (methodToString method) = none :=
    clean_crlf_iff.1 (clean_of_notMem (notMem_methodToString (by decide) method))
  have hversion : indexOf? crlf (ascii "HTTP/1.1") = none :=
    clean_crlf_iff.1 (clean_of_notMem cr_notMem_version)
  rw [clean_crlf_iff, requestLine, crlf_append_space, crlf_append_space]
  simp [hmethod, hversion]

/-- The lines of the client's own headers are clean exactly when the host is. -/
theorem clean_ownedEntries_iff (host : Bytes) (port : UInt16) (body : Bytes) :
    (∀ e ∈ ownedEntries host port body, Clean 13 10 (headerLine e)) ↔
      indexOf? crlf host = none := by
  have hname : indexOf? crlf (ascii "Host") = none := rfl
  have hcolon : ascii ":" = [58] := rfl
  have hport : indexOf? crlf (decimal port.toNat) = none :=
    clean_crlf_iff.1 (clean_of_notMem (notMem_decimal rfl))
  rw [ownedEntries, List.forall_mem_cons, List.forall_mem_cons, List.forall_mem_singleton,
    clean_headerLine_iff, hcolon, List.append_assoc, List.singleton_append, crlf_append_colon]
  simp [hname, hport, plain_connection.clean, (plain_contentLength body.length).clean]

/-- Of the client's own headers, one declares a length. -/
theorem valuesOf_ownedEntries (host : Bytes) (port : UInt16) (body : Bytes) :
    valuesOf (ascii "content-length")
      (((ownedEntries host port body).map headerLine).map readHeaderLine) =
        [decimal body.length] := by
  have hnames : ∀ name ∈ [ascii "Host", ascii "Connection", ascii "Content-Length"],
      58 ∉ name := by decide +kernel
  have hcolon : ∀ e ∈ ownedEntries host port body, 58 ∉ e.1 :=
    fun e he ↦ hnames e.1 (List.mem_map_of_mem he)
  have hother : ∀ name ∈ [ascii "Host", ascii "Connection"],
      toLowerAscii name ≠ ascii "content-length" := by decide +kernel
  have hsplit : ownedEntries host port body = (ownedEntries host port body).take 2 ++
      [(ascii "Content-Length", decimal body.length)] := rfl
  rw [map_readHeaderLine hcolon, hsplit, valuesOf_append,
    valuesOf_eq_nil_iff.2 fun e he ↦ hother e.1 (List.mem_map_of_mem he), valuesOf,
    List.filter_cons, if_pos (by simp [toLowerAscii_contentLength])]
  rfl

/-- **The head that is written reads back** exactly when the arguments are safe. -/
theorem buildRequest_singleRequest_iff (method : HttpMethod) (host : Bytes) (port : UInt16)
    (path body : Bytes) (headers : M) :
    SingleRequest method host port path body headers
        (buildRequest method host port path body headers) ↔ RequestSafe host path headers := by
  have hne : ∀ l ∈ (ownedEntries host port body ++ sentEntries headers).map headerLine,
      l ≠ [] := by
    intro l hl
    obtain ⟨e, -, rfl⟩ := List.mem_map.1 hl
    exact headerLine_ne_nil e
  have hreads : ReadsAs 13 10 (buildRequest method host port path body headers)
      (requestLine method path ::
        (ownedEntries host port body ++ sentEntries headers).map headerLine) body ↔
      indexOf? crlf path = none ∧ indexOf? crlf host = none ∧
        ∀ e ∈ sentEntries headers, indexOf? crlf e.1 = none ∧ indexOf? crlf e.2 = none := by
    rw [buildRequest_eq, readsAs_iff cr_ne_lf hne, List.forall_mem_cons, List.forall_mem_map,
      List.forall_mem_append, clean_requestLine_iff, clean_ownedEntries_iff]
    simp only [clean_headerLine_iff]
  have hlength : valuesOf (ascii "content-length")
      (((ownedEntries host port body ++ sentEntries headers).map headerLine).map readHeaderLine) =
        [decimal body.length] ↔
      ∀ e ∈ sentEntries headers,
        toLowerAscii (e.1.takeWhile (· != 58)) ≠ ascii "content-length" := by
    rw [List.map_append, List.map_append, valuesOf_append, valuesOf_ownedEntries,
      List.append_right_eq_self, valuesOf_eq_nil_iff, List.forall_mem_map, List.forall_mem_map]
    simp only [readHeaderLine_fst]
  constructor
  · intro h
    obtain ⟨hpath, hhost, hsent⟩ := hreads.1 h.reads
    exact ⟨h.token, hpath, hhost,
      fun name value hfind hkept ↦ hsent (name, value) (mem_sentEntries.2 ⟨hfind, hkept⟩),
      fun name value hfind hkept ↦
        hlength.1 h.length (name, value) (mem_sentEntries.2 ⟨hfind, hkept⟩)⟩
  · intro h
    refine ⟨h.token, hreads.2 ⟨h.path_clean, h.host_clean, fun e he ↦ ?_⟩,
      hlength.2 fun e he ↦ ?_⟩
    · obtain ⟨hfind, hkept⟩ := mem_sentEntries.1 he
      exact h.headers_clean e.1 e.2 hfind hkept
    · obtain ⟨hfind, hkept⟩ := mem_sentEntries.1 he
      exact h.no_length e.1 e.2 hfind hkept

/-! ### What a send writes -/

/-- **Which requests cannot be split**: a send writes nothing and returns no response, or it writes
the request it has built, and only a part of it if a write fails, and then it returns no response. A
reader takes that request for the one that was meant exactly when the arguments are safe. -/
theorem send_singleRequest_iff (options : ClientOptions) (peer : Peer) (method : HttpMethod)
    (host : Bytes) (port : UInt16) (path body : Bytes) (headers : M) :
    let result := send options peer method host port path body headers
    let request := buildRequest method host port path body headers
    (result.1 = none ∧ result.2.sent = peer.endpoint.sent) ∨
      ∃ accepted, result.2.sent = peer.endpoint.sent ++ accepted ∧ accepted <+: request ∧
        (accepted ≠ request → result.1 = none) ∧
        (SingleRequest method host port path body headers request ↔
          RequestSafe host path headers) := by
  intro result request
  by_cases hready : Ready peer
  · obtain ⟨accepted, endpoint, hwrite, hprefix, htook⟩ := peer.socket.writeLoop_spec
      (buildRequest method host port path body headers) (Nat.le_add_left _ 0) peer.endpoint
    rw [List.drop_zero] at hwrite hprefix
    have hsend := send_of_ready hready options method host port path body headers hwrite
    refine Or.inr ⟨accepted, ?_, hprefix, fun hpart ↦ ?_,
      buildRequest_singleRequest_iff method host port path body headers⟩
    · show (send options peer method host port path body headers).2.sent = _
      rw [hsend]
      exact htook.sent
    · show (send options peer method host port path body headers).1 = none
      have hfailed : decide (accepted = buildRequest method host port path body headers) = false :=
        decide_eq_false hpart
      rw [hsend, hfailed]
      rfl
  · refine Or.inl ?_
    have hresult : result = (none, peer.endpoint) :=
      send_of_not_ready hready options method host port path body headers
    rw [hresult]
    exact ⟨rfl, rfl⟩

/-- A peer that accepts everything and answers nothing. -/
def silentPeer : Peer where
  socket := ⟨some 3⟩
  connected := true
  sendTimeoutSet := true
  receiveTimeoutSet := true
  endpoint := { incoming := [], ending := .eof, sendResults := [], sent := [], closed := false }

/-- A path that ends its request and starts another one. -/
def splittingPath : Bytes :=
  ascii "/ HTTP/1.1\r\nContent-Length: 0\r\n\r\nGET /admin"

/-- The send goes through, and what is written is not the request that was meant: a reader sees
another request line. -/
theorem send_splittingPath :
    let result := send ⟨1024, by decide⟩ silentPeer .get (ascii "127.0.0.1") 80 splittingPath []
      (∅ : BytesMap)
    (splitLines 13 10 result.2.sent).head? = some (ascii "GET / HTTP/1.1") ∧
      ¬ ((result.1 = none ∧ result.2.sent = []) ∨
        SingleRequest .get (ascii "127.0.0.1") 80 splittingPath [] (∅ : BytesMap)
          result.2.sent) := by
  refine ⟨by decide +kernel, ?_⟩
  rintro (⟨-, hnothing⟩ | h)
  · exact absurd hnothing (by decide +kernel)
  · exact absurd h.token.2 (by decide +kernel)

end HttpClient

end FalconHTTP
