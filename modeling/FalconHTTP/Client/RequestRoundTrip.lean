import FalconHTTP.Client.HttpClient
import FalconHTTP.Core.ReadGuarantees

/-!
# From the client to the server

`buildRequest` writes a head of header entries followed by the body, and the server's two readers of
that head, the scan for a `Content-Length` and the parser, both read it back. With the refinement of
the read loops this gives the round trip for every cutting of the bytes into chunks
(`readRequest_buildRequest`).

The client owns three headers and skips the caller's values for them whatever their case, so its own
`Content-Length` line is the only one in the head.
-/

namespace FalconHTTP

namespace HttpClient

open Occurrence Lines Decimal FiniteMap

variable {M : Type} [FiniteMap M Bytes Bytes]

/-- A request target, a host and headers that can be written as they are. -/
structure WireSafe (host path : Bytes) (headers : M) : Prop where
  /-- The host consists of digits and dots. -/
  host_dotted : ∀ c ∈ host, isDigit c = true ∨ c = 46
  /-- No space in the path. -/
  space_notMem : 32 ∉ path
  /-- No question mark in the path. -/
  query_notMem : 63 ∉ path
  /-- No carriage return in the path. -/
  cr_notMem : 13 ∉ path
  /-- The lines of the headers can be read back. -/
  plain : ∀ name value, find? headers name = some value → Plain (name, value)
  /-- The names differ ignoring case. -/
  distinct : ∀ n₁ v₁ n₂ v₂, find? headers n₁ = some v₁ → find? headers n₂ = some v₂ →
    toLowerAscii n₁ = toLowerAscii n₂ → n₁ = n₂

/-! ### The head of a request -/

/-- The request line. -/
def requestLine (method : HttpMethod) (path : Bytes) : Bytes :=
  methodToString method ++ 32 :: (path ++ 32 :: ascii "HTTP/1.1")

/-- The entries the client computes. -/
def ownedEntries (host : Bytes) (port : UInt16) (body : Bytes) : List (Bytes × Bytes) :=
  [(ascii "Host", host ++ ascii ":" ++ decimal port.toNat), (ascii "Connection", ascii "close"),
    (ascii "Content-Length", decimal body.length)]

/-- The caller's entries that are sent. -/
def sentEntries (headers : M) : List (Bytes × Bytes) :=
  (entries headers).filter fun entry ↦ !clientOwned entry.1

theorem mem_sentEntries {headers : M} {name value : Bytes} :
    (name, value) ∈ sentEntries headers ↔
      find? headers name = some value ∧ clientOwned name = false := by
  rw [sentEntries, List.mem_filter, mem_entries, Bool.not_eq_true']

/-- **The request is a head of entries**, followed by the body. -/
theorem buildRequest_eq (method : HttpMethod) (host : Bytes) (port : UInt16) (path body : Bytes)
    (headers : M) :
    buildRequest method host port path body headers =
      requestLine method path ++ (13 :: 10 :: joinLines 13 10
        ((ownedEntries host port body ++ sentEntries headers).map headerLine)) ++ [13, 10] ++
        body := by
  have hhost : ascii " HTTP/1.1\r\nHost: " =
      32 :: (ascii "HTTP/1.1" ++ 13 :: 10 :: (ascii "Host" ++ ascii ": ")) := by decide +kernel
  have hlength : ascii "\r\nConnection: close\r\nContent-Length: " =
      13 :: 10 :: (headerLine (ascii "Connection", ascii "close") ++
        13 :: 10 :: (ascii "Content-Length" ++ ascii ": ")) := by decide +kernel
  have hspace : ascii " " = [32] := rfl
  rw [buildRequest, foldl_write_lines headerLine (fun entry ↦ clientOwned entry.1)
    (fun out e ↦ by simp [headerLine]), hhost, hlength, hspace]
  show _ = requestLine method path ++ (13 :: 10 :: joinLines 13 10
    ((ownedEntries host port body ++ sentEntries headers).map headerLine)) ++ [13, 10] ++ body
  rw [List.map_append, joinLines_append]
  simp [requestLine, ownedEntries, sentEntries, headerLine, joinLines, crlf]

theorem clientOwned_congr {a b : Bytes} (h : toLowerAscii a = toLowerAscii b) :
    clientOwned a = clientOwned b := by
  rw [clientOwned, clientOwned, h]

theorem clientOwned_of_mem_ownedEntries {host : Bytes} {port : UInt16} {body : Bytes}
    {e : Bytes × Bytes} (he : e ∈ ownedEntries host port body) : clientOwned e.1 = true := by
  have hnames : ∀ name ∈ [ascii "Host", ascii "Connection", ascii "Content-Length"],
      clientOwned name = true := by decide +kernel
  exact hnames e.1 (List.mem_map_of_mem he)

section Head

variable {host path : Bytes} {headers : M} (hsafe : WireSafe host path headers)
  (method : HttpMethod) (port : UInt16) (body : Bytes)

include hsafe

/-- Neither a carriage return nor a space in the host. -/
private theorem WireSafe.notMem_host {c : UInt8} (hdigit : isDigit c = false) (hdot : c ≠ 46) :
    c ∉ host := by
  intro hc
  rcases hsafe.host_dotted c hc with h | h
  · exact absurd h (by simp [hdigit])
  · exact hdot h

/-- The lines the client writes can be read back. -/
theorem WireSafe.plain_entries {e : Bytes × Bytes}
    (he : e ∈ ownedEntries host port body ++ sentEntries headers) : Plain e := by
  rcases List.mem_append.1 he with howned | hsent
  · simp only [ownedEntries, List.mem_cons, List.not_mem_nil, or_false] at howned
    rcases howned with rfl | rfl | rfl
    · have hcolon : ascii ":" = [58] := rfl
      have hport : 13 ∉ decimal port.toNat := notMem_decimal rfl
      refine ⟨show 58 ∉ ascii "Host" by decide +kernel, show 13 ∉ ascii "Host" by decide +kernel,
        ?_, ?_⟩
      · simp [hcolon, hsafe.notMem_host (c := 13) rfl (by decide), hport]
      · show (host ++ ascii ":" ++ decimal port.toNat).head? ≠ some 32
        rw [hcolon]
        intro hhead
        rcases host with - | ⟨c, host⟩
        · cases hhead
        · obtain rfl := Option.some.inj (show some c = some 32 from hhead)
          exact hsafe.notMem_host rfl (by decide) List.mem_cons_self
    · exact plain_connection
    · exact plain_contentLength body.length
  · obtain ⟨name, value⟩ := e
    exact hsafe.plain name value (mem_sentEntries.1 hsent).1

theorem WireSafe.cr_notMem_requestLine : 13 ∉ requestLine method path := by
  have hmethod : 13 ∉ methodToString method := notMem_methodToString (by decide) method
  simp [requestLine, hmethod, hsafe.cr_notMem, cr_notMem_version]

/-- The names of the entries differ ignoring case. -/
theorem WireSafe.distinct_entries :
    (ownedEntries host port body ++ sentEntries headers).Pairwise fun d e ↦
      toLowerAscii d.1 ≠ toLowerAscii e.1 := by
  refine List.pairwise_append.2 ⟨?_, ?_, fun d hd e he heq ↦ ?_⟩
  · have hnames : ((ownedEntries host port body).map Prod.fst).Pairwise fun a b ↦
        toLowerAscii a ≠ toLowerAscii b := by
      show [ascii "Host", ascii "Connection", ascii "Content-Length"].Pairwise fun a b ↦
        toLowerAscii a ≠ toLowerAscii b
      decide +kernel
    exact (List.pairwise_map (f := Prod.fst)).1 hnames
  · have hkeys : (sentEntries headers).Pairwise fun d e ↦ d.1 ≠ e.1 :=
      (List.pairwise_map.1 (nodup_keys headers)).sublist List.filter_sublist
    refine hkeys.imp_of_mem fun {d e} hd he hne heq ↦ hne ?_
    exact hsafe.distinct _ _ _ _ (mem_sentEntries.1 hd).1 (mem_sentEntries.1 he).1 heq
  · have howned := clientOwned_of_mem_ownedEntries hd
    rw [clientOwned_congr heq, (mem_sentEntries.1 he).2] at howned
    exact absurd howned (by simp)

/-- The head of the request. -/
def requestHead : MessageHead :=
  headOfEntries (requestLine method path) (ownedEntries host port body ++ sentEntries headers)
    (hsafe.cr_notMem_requestLine method) fun _ he ↦ hsafe.plain_entries port body he

theorem buildRequest_eq_encode :
    buildRequest method host port path body headers =
      (requestHead hsafe method port body).encode ++ body :=
  buildRequest_eq method host port path body headers

/-! ### What the server reads -/

omit hsafe

/-- A request line declares no length, colon or not: it does not start like a `Content-Length`. -/
private theorem scanLine_requestLine (n : ℕ) : scanLine (requestLine method path) n = some n := by
  rw [scanLine]
  rcases indexOf? [58] (requestLine method path) with - | colon
  · rfl
  · refine if_neg fun heq ↦ ?_
    have hlower := equalsIgnoreCase_iff.1 heq
    obtain ⟨c, rest, hmethod, hc⟩ : ∃ c rest, methodToString method = c :: rest ∧
        toLower c ≠ 99 := by
      cases method <;> exact ⟨_, _, rfl, by decide⟩
    have hname : toLowerAscii (ascii "Content-Length") = 99 :: ascii "ontent-length" := rfl
    rw [hname, requestLine, hmethod] at hlower
    cases colon with
    | zero => exact absurd hlower (by simp [toLowerAscii])
    | succ colon =>
      simp only [List.cons_append, List.take_succ_cons, toLowerAscii, List.map_cons,
        List.cons.injEq] at hlower
      exact hc hlower.1

/-- A line of another header declares no length. -/
private theorem scanLine_headerLine_of_ne {e : Bytes × Bytes} (he : Plain e)
    (hne : toLowerAscii e.1 ≠ ascii "content-length") (n : ℕ) :
    scanLine (headerLine e) n = some n := by
  rw [scanLine, he.indexOf?_colon]
  refine if_neg fun heq ↦ hne ?_
  rw [take_headerLine] at heq
  exact (equalsIgnoreCase_iff.1 heq).trans toLowerAscii_contentLength

/-- The line the client writes declares the length of the body. -/
private theorem scanLine_contentLength {length : ℕ} (hlength : length < sizeRange) (n : ℕ) :
    scanLine (headerLine (ascii "Content-Length", decimal length)) n = some length := by
  have hplain := plain_contentLength length
  rw [scanLine, hplain.indexOf?_colon]
  show (if equalsIgnoreCase ((headerLine (ascii "Content-Length", decimal length)).take
    (ascii "Content-Length").length) (ascii "Content-Length") then _ else _) = _
  have htake := take_headerLine (ascii "Content-Length", decimal length)
  have hdrop := drop_headerLine (ascii "Content-Length", decimal length)
  rw [htake, if_pos (equalsIgnoreCase_iff.2 rfl), hdrop, contentLengthValue,
    hplain.dropSpaces_value, readDecimal?_decimal_self hlength]

/-- Lines of other headers leave the declared length as it is. -/
private theorem foldlM_scanLine (es : List (Bytes × Bytes)) (hplain : ∀ e ∈ es, Plain e)
    (hne : ∀ e ∈ es, toLowerAscii e.1 ≠ ascii "content-length") (n : ℕ) :
    (es.map headerLine).foldlM (fun n line ↦ scanLine line n) n = some n := by
  induction es with
  | nil => rfl
  | cons e es ih =>
    rw [List.map_cons, List.foldlM_cons, scanLine_headerLine_of_ne (hplain e List.mem_cons_self)
      (hne e List.mem_cons_self)]
    exact ih (fun d hd ↦ hplain d (List.mem_cons_of_mem _ hd))
      fun d hd ↦ hne d (List.mem_cons_of_mem _ hd)

include hsafe

/-- **The scan finds the length of the body.** -/
theorem declaredLength_requestHead (hbody : body.length < sizeRange) :
    declaredLength (requestHead hsafe method port body) = some body.length := by
  have hplain := fun e he ↦ hsafe.plain_entries port body (e := e) he
  have hsent : ∀ e ∈ sentEntries headers, toLowerAscii e.1 ≠ ascii "content-length" := by
    intro e he heq
    have hnot := (mem_sentEntries.1 he).2
    rw [clientOwned, heq] at hnot
    exact absurd hnot (by decide +kernel)
  have hnames : ∀ name ∈ [ascii "Host", ascii "Connection"],
      toLowerAscii name ≠ ascii "content-length" := by decide +kernel
  -- the host and connection lines, then the declared length, then the caller's lines
  have hfirst := foldlM_scanLine ((ownedEntries host port body).take 2)
    (fun e he ↦ hplain e (List.mem_append_left _ (List.mem_of_mem_take he)))
    (fun e he ↦ hnames e.1 (List.mem_map_of_mem he)) 0
  have hlength := scanLine_contentLength hbody 0
  have hlast := foldlM_scanLine _ (fun e he ↦ hplain e (List.mem_append_right _ he)) hsent
    body.length
  have hlines : (requestHead hsafe method port body).rest =
      ((ownedEntries host port body).take 2).map headerLine ++
        headerLine (ascii "Content-Length", decimal body.length) ::
          (sentEntries headers).map headerLine := rfl
  rw [declaredLength, List.foldlM_cons, hlines]
  show (scanLine (requestLine method path) 0 >>= fun n ↦ List.foldlM _ n _) = _
  rw [scanLine_requestLine]
  show List.foldlM _ 0 _ = _
  rw [List.foldlM_append, hfirst]
  show List.foldlM _ 0 _ = _
  rw [List.foldlM_cons, hlength]
  exact hlast

omit hsafe in
/-- The request that was sent. -/
def sentRequest (method : HttpMethod) (host : Bytes) (port : UInt16) (path body : Bytes)
    (headers : M) : HttpRequest M where
  method := method
  path := path
  version := ascii "HTTP/1.1"
  headers := HeaderMap.empty.setHeaders (ownedEntries host port body ++ sentEntries headers)
  queryParams := FiniteMap.empty
  pathParams := FiniteMap.empty
  body := body

/-- **The parser reads back the request**, up to its body. -/
theorem parseHead_requestHead :
    HttpParser.parseHead (requestHead hsafe method port body) =
      .ok { sentRequest method host port path body headers with body := [] } := by
  have hspace : 32 ∉ methodToString method := notMem_methodToString (by decide) method
  rw [requestHead, parseHead_headOfEntries, requestLine,
    HttpParser.parseRequestLine_append hspace hsafe.space_notMem,
    HttpParser.parsePath_of_notMem hsafe.query_notMem, methodFromString_methodToString]
  rfl

/-- Every entry that is written is a header of the request, in any case of its name. -/
theorem find?_sentRequest {e : Bytes × Bytes}
    (he : e ∈ ownedEntries host port body ++ sentEntries headers) {n : Bytes}
    (hn : toLowerAscii n = toLowerAscii e.1) :
    (sentRequest method host port path body headers).headers.find? n = some e.2 :=
  HeaderMap.find?_setHeaders_of_mem (hsafe.distinct_entries port body) _ he hn

end Head

/-- **The round trip of a request**: whatever chunks the bytes of a request are cut into, the server
hands on the request that was sent. -/
theorem readRequest_of_buildRequest {caps : SizeCaps} {method : HttpMethod} {host : Bytes}
    {port : UInt16} {path body : Bytes} {headers : M} {chunks : Chunks}
    (hsafe : WireSafe host path headers)
    (hheader : (buildRequest method host port path body headers).length - body.length ≤
      caps.maxHeaderSize)
    (hbody : body.length ≤ caps.maxBodySize)
    (hchunks : chunks.stream = buildRequest method host port path body headers) :
    (readRequest caps chunks).1 =
      .request (sentRequest method host port path body headers) := by
  rw [buildRequest_eq_encode hsafe] at hheader hchunks
  rw [List.length_append, Nat.add_sub_cancel] at hheader
  have hdecl := declaredLength_requestHead hsafe method port body
    (Nat.lt_of_le_of_lt hbody caps.maxBodySize_lt)
  have hspec : requestSpec caps (requestHead hsafe method port body) body =
      .request (sentRequest method host port path body headers) := by
    rw [requestSpec, hdecl, parseHead_requestHead]
    simp only
    rw [if_neg (Nat.not_lt.2 hbody), if_neg (Nat.lt_irrefl _), List.take_length]
    rfl
  rcases readRequest_of_head (M := M) hchunks with ⟨-, hends⟩ | ⟨⟨taken, -, hcap, hlen⟩, -⟩
  · rw [hends.eq_of_length_le hdecl (Nat.le_refl _), hspec]
  · omega

/-- **The round trip of a request, header by header.** -/
theorem readRequest_buildRequest (caps : SizeCaps) (method : HttpMethod) (host : Bytes)
    (port : UInt16) (path body : Bytes) (headers : M) (chunks : Chunks)
    (hsafe : WireSafe host path headers)
    (hheader : (buildRequest method host port path body headers).length - body.length ≤
      caps.maxHeaderSize)
    (hbody : body.length ≤ caps.maxBodySize)
    (hchunks : chunks.stream = buildRequest method host port path body headers) :
    ∃ request : HttpRequest M, (readRequest caps chunks).1 = .request request ∧
      request.method = method ∧ request.path = path ∧ request.body = body ∧
      (∀ name value n, find? headers name = some value → clientOwned name = false →
        toLowerAscii n = toLowerAscii name → request.hasHeader n ∧ request.header n = value) ∧
      (∀ n, toLowerAscii n = ascii "host" →
        request.header n = host ++ ascii ":" ++ decimal port.toNat) ∧
      (∀ n, toLowerAscii n = ascii "connection" → request.header n = ascii "close") ∧
      (∀ n, toLowerAscii n = ascii "content-length" → request.header n = decimal body.length) := by
  have hfind := fun e he n hn ↦ find?_sentRequest hsafe method port body (e := e) he (n := n) hn
  have howned : ∀ e ∈ ownedEntries host port body, ∀ n, toLowerAscii n = toLowerAscii e.1 →
      (sentRequest method host port path body headers).header n = e.2 := by
    intro e he n hn
    rw [HttpRequest.header, HeaderMap.header, hfind e (List.mem_append_left _ he) n hn]
    rfl
  refine ⟨_, readRequest_of_buildRequest hsafe hheader hbody hchunks, rfl, rfl, rfl, ?_, ?_, ?_, ?_⟩
  · intro name value n hname hkept hn
    have hmem := mem_sentEntries.2 ⟨hname, hkept⟩
    have hsent := hfind (name, value) (List.mem_append_right _ hmem) n hn
    rw [HttpRequest.hasHeader, HeaderMap.hasHeader, HttpRequest.header, HeaderMap.header, hsent]
    exact ⟨rfl, rfl⟩
  · intro n hn
    have hhost : toLowerAscii (ascii "Host") = ascii "host" := rfl
    exact howned _ List.mem_cons_self n (hn.trans hhost.symm)
  · intro n hn
    exact howned _ (List.mem_cons_of_mem _ List.mem_cons_self) n
      (hn.trans toLowerAscii_connection.symm)
  · intro n hn
    exact howned _ (List.mem_cons_of_mem _ (List.mem_cons_of_mem _ List.mem_cons_self)) n
      (hn.trans toLowerAscii_contentLength.symm)

/-- One header of the caller's. -/
def idHeader : BytesMap :=
  FiniteMap.insert FiniteMap.empty (ascii "X-Id") (ascii "7")

/-- A request whose body looks like the end of a head. -/
def postBytes : Bytes :=
  buildRequest .post (ascii "10.0.0.1") 8080 (ascii "/a:b") (ascii "x\r\n\r\ny") idHeader

/-- The request in two chunks. -/
def postChunks : Chunks :=
  [⟨postBytes.take 40, by decide +kernel, by decide +kernel⟩,
   ⟨postBytes.drop 40, by decide +kernel, by decide +kernel⟩]

theorem readRequest_postChunks :
    ∃ request : HttpRequest BytesMap,
      (readRequest ⟨128, 8, by decide, by decide⟩ postChunks).1 = .request request ∧
        request.body = ascii "x\r\n\r\ny" := by
  have hfind : ∀ name value, find? idHeader name = some value →
      name = ascii "X-Id" ∧ value = ascii "7" := by
    intro name value h
    rw [idHeader, find?_insert _ (find?_empty _)] at h
    split at h
    · rename_i hname
      exact ⟨hname, (Option.some.inj h).symm⟩
    · rw [find?_empty] at h
      exact absurd h (by simp)
  have hsafe : WireSafe (ascii "10.0.0.1") (ascii "/a:b") idHeader := by
    refine ⟨by decide +kernel, by decide +kernel, by decide +kernel, by decide +kernel, ?_, ?_⟩
    · intro name value h
      obtain ⟨rfl, rfl⟩ := hfind name value h
      show Plain (ascii "X-Id", ascii "7")
      decide +kernel
    · intro n₁ v₁ n₂ v₂ h₁ h₂ _
      rw [(hfind n₁ v₁ h₁).1, (hfind n₂ v₂ h₂).1]
  obtain ⟨request, hout, -, -, hbody, -⟩ := readRequest_buildRequest ⟨128, 8, by decide, by decide⟩
    .post (ascii "10.0.0.1") 8080 (ascii "/a:b") (ascii "x\r\n\r\ny") idHeader postChunks hsafe
    (by decide +kernel) (by decide +kernel) (by decide +kernel)
  exact ⟨request, hout, hbody⟩

end HttpClient

end FalconHTTP
