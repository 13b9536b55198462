import FalconHTTP.Client.ReceiveLoop

/-!
# From the server to the client

`HttpSerializer::serialize` writes a status line, the stored headers except two, the two headers it
computes, and the body. The client's parser trims and lowercases what it reads, which changes
nothing: stored names are lowercase by the invariant of `HeaderMap`, and the names and values
considered here have no blanks to trim (`Readable`). With the refinement of the receive loop this
gives the round trip for every cutting of the bytes into chunks (`send_serialize`).
-/

namespace FalconHTTP

namespace HttpClient

open Occurrence Lines Decimal FiniteMap

variable {M : Type} [FiniteMap M Bytes Bytes]

/-! ### Trimming -/

/-- A text that trimming leaves alone. -/
structure Trimmed (text : Bytes) : Prop where
  /-- No blank at the start. -/
  head : ∀ c ∈ text.head?, isBlank c = false
  /-- No blank and no carriage return at the end. -/
  last : ∀ c ∈ text.getLast?, isBlank c = false ∧ c ≠ 13

theorem Trimmed.dropWhile_eq {text : Bytes} (h : Trimmed text) : text.dropWhile isBlank = text := by
  rcases text with - | ⟨c, text⟩
  · rfl
  · rw [List.dropWhile_cons, if_neg (by simp [h.head c rfl])]

theorem Trimmed.rdropWhile_eq {text : Bytes} (h : Trimmed text) :
    text.rdropWhile (fun c ↦ isBlank c || c == 13) = text := by
  rw [List.rdropWhile_eq_self_iff]
  intro hne
  obtain ⟨hblank, hcr⟩ := h.last _ (List.getLast_mem_getLast? hne)
  simp [hblank, hcr]

theorem Trimmed.trim_eq {text : Bytes} (h : Trimmed text) : trim text = text := by
  rw [trim, h.dropWhile_eq, h.rdropWhile_eq]

/-- Blanks around a trimmed text are what trimming takes away. -/
theorem Trimmed.trim_append {before text after : Bytes} (h : Trimmed text)
    (hbefore : ∀ c ∈ before, isBlank c = true) (hafter : ∀ c ∈ after, isBlank c = true) :
    trim (before ++ (text ++ after)) = text := by
  have hback : (text ++ after).rdropWhile (fun c ↦ isBlank c || c == 13) = text := by
    rw [List.rdropWhile, List.reverse_append, List.dropWhile_append_of_pos, ← List.rdropWhile,
      h.rdropWhile_eq]
    exact fun c hc ↦ by simp [hafter c (List.mem_reverse.1 hc)]
  rw [trim, List.dropWhile_append_of_pos hbefore]
  rcases text with - | ⟨c, text⟩
  · rw [List.nil_append, List.dropWhile_eq_nil_iff.2 hafter]
    rfl
  · rw [List.cons_append, List.dropWhile_cons, if_neg (by simp [h.head c rfl]),
      ← List.cons_append, hback]

theorem trim_cons_space (text : Bytes) : trim (32 :: text) = trim text := by
  rw [trim, trim, List.dropWhile_cons, if_pos (by decide)]

/-- A text without blanks and carriage returns is trimmed. -/
theorem trimmed_of_forall {text : Bytes} (h : ∀ c ∈ text, isBlank c = false ∧ c ≠ 13) :
    Trimmed text :=
  ⟨fun c hc ↦ (h c (List.mem_of_mem_head? hc)).1, fun c hc ↦ h c (List.mem_of_mem_getLast? hc)⟩

/-- Digits are neither blanks nor carriage returns. -/
theorem not_isBlank_of_isDigit {c : UInt8} (h : isDigit c = true) : isBlank c = false ∧ c ≠ 13 := by
  have hne : ∀ d : UInt8, isDigit d = false → c ≠ d := by
    rintro d hd rfl
    rw [h] at hd
    cases hd
  simp [isBlank, hne 32 rfl, hne 9 rfl, hne 13 rfl]

theorem trimmed_decimal (n : ℕ) : Trimmed (decimal n) :=
  trimmed_of_forall fun _ hc ↦ not_isBlank_of_isDigit (isDigit_of_mem_decimal hc)

theorem parseNumber_decimal {n : ℕ} (hn : n < sizeRange) : parseNumber (decimal n) = some n := by
  rw [parseNumber, (trimmed_decimal n).trim_eq, if_neg (decimal_ne_nil n),
    readDecimal?_decimal_self hn]

/-! ### Headers -/

/-- A header that the client reads back as it is. -/
structure Readable (entry : Bytes × Bytes) : Prop where
  /-- The line can be read back. -/
  plain : Plain entry
  /-- The name has nothing to trim. -/
  name : Trimmed entry.1
  /-- The value has nothing to trim. -/
  value : Trimmed entry.2

/-- The client stores what a line has before and after its first colon, without blanks. -/
theorem parseHeadLine_append {name : Bytes} (hcolon : 58 ∉ name) (text : Bytes)
    (out : ClientResponse M) :
    parseHeadLine (name ++ 58 :: text) out =
      some { out with headers := assign out.headers (toLowerAscii (trim name)) (trim text) } := by
  have hfirst : indexOf? [58] (name ++ 58 :: text) = some name.length :=
    indexOf?_singleton_append hcolon
  have hafter : (name ++ 58 :: text).drop (name.length + 1) = text := by
    rw [← List.drop_drop, List.drop_left]
    rfl
  rw [parseHeadLine, hfirst]
  simp only [List.take_left, hafter]

/-- The client stores the entry of a readable line. -/
theorem Readable.parseHeadLine {entry : Bytes × Bytes} (h : Readable entry)
    (out : ClientResponse M) :
    parseHeadLine (headerLine entry) out =
      some { out with headers := assign out.headers (toLowerAscii entry.1) entry.2 } := by
  rw [headerLine_eq, parseHeadLine_append h.plain.colon_notMem, trim_cons_space, h.name.trim_eq,
    h.value.trim_eq]

/-- Entries stored one after the other. -/
def assignAll (headers : M) (es : List (Bytes × Bytes)) : M :=
  es.foldl (fun headers e ↦ assign headers (toLowerAscii e.1) e.2) headers

/-- A name that no entry has ignoring case keeps its value. -/
theorem find?_assignAll_of_ne {es : List (Bytes × Bytes)} {headers : M} {name : Bytes}
    (hne : ∀ e ∈ es, name ≠ toLowerAscii e.1) :
    find? (assignAll headers es) name = find? headers name :=
  find?_foldl_of_ne (find?_assign_item (fun e : Bytes × Bytes ↦ toLowerAscii e.1) Prod.snd) es
    headers hne

/-- Names that are pairwise distinct ignoring case each get the value stored. -/
theorem find?_assignAll_of_mem {es : List (Bytes × Bytes)}
    (hdistinct : es.Pairwise fun d e ↦ toLowerAscii d.1 ≠ toLowerAscii e.1) (headers : M)
    {e : Bytes × Bytes} (he : e ∈ es) :
    find? (assignAll headers es) (toLowerAscii e.1) = some e.2 :=
  find?_foldl_of_mem (find?_assign_item (fun e : Bytes × Bytes ↦ toLowerAscii e.1) Prod.snd)
    hdistinct headers he

/-- **The client stores the entries of readable lines**, in order. -/
theorem foldlM_parseHeadLine {es : List (Bytes × Bytes)} (h : ∀ e ∈ es, Readable e)
    (out : ClientResponse M) :
    (es.map headerLine).foldlM (fun out line ↦ HttpClient.parseHeadLine line out) out =
      some { out with headers := assignAll out.headers es } := by
  induction es generalizing out with
  | nil => rfl
  | cons e es ih =>
    rw [List.map_cons, List.foldlM_cons, (h e List.mem_cons_self).parseHeadLine]
    exact ih (fun d hd ↦ h d (List.mem_cons_of_mem _ hd)) _

/-! ### The head of a response -/

/-- The status line. -/
def statusLine (status : HttpStatus) : Bytes :=
  ascii "HTTP/1.1" ++ 32 :: (decimal status.code ++ 32 :: statusReasonPhrase status)

/-- The headers the serializer computes. -/
def isComputed (name : Bytes) : Bool :=
  name = ascii "content-length" ∨ name = ascii "connection"

/-- The entries the serializer writes. -/
def responseEntries (response : HttpResponse M) : List (Bytes × Bytes) :=
  (entries response.headers.map).filter (fun entry ↦ !isComputed entry.1) ++
    [(ascii "Content-Length", decimal response.body.length), (ascii "Connection", ascii "close")]

/-- **The response is a head of entries**, followed by the body. -/
theorem serialize_eq (response : HttpResponse M) :
    HttpSerializer.serialize response =
      statusLine response.status ++ (13 :: 10 :: joinLines 13 10
        ((responseEntries response).map headerLine)) ++ [13, 10] ++ response.body := by
  have hversion : ascii "HTTP/1.1 " = ascii "HTTP/1.1" ++ [32] := rfl
  have hspace : ascii " " = [32] := rfl
  have hlength : ascii "Content-Length: " = ascii "Content-Length" ++ ascii ": " := rfl
  have hclose : ascii "Connection: close\r\n" =
      headerLine (ascii "Connection", ascii "close") ++ [13, 10] := by decide +kernel
  rw [HttpSerializer.serialize, HttpSerializer.appendHeaders,
    foldl_write_lines headerLine (fun entry ↦ isComputed entry.1)
      (fun out e ↦ by simp [HttpSerializer.appendHeaderLine, headerLine, isComputed]),
    HttpSerializer.appendStatusLine, hversion, hspace, hlength, hclose, responseEntries,
    List.map_append, joinLines_append]
  simp [statusLine, headerLine, joinLines, crlf]

theorem mem_responseEntries {response : HttpResponse M} {e : Bytes × Bytes} :
    e ∈ responseEntries response ↔
      (find? response.headers.map e.1 = some e.2 ∧ isComputed e.1 = false) ∨
      e = (ascii "Content-Length", decimal response.body.length) ∨
      e = (ascii "Connection", ascii "close") := by
  obtain ⟨name, value⟩ := e
  rw [responseEntries, List.mem_append, List.mem_filter, mem_entries, Bool.not_eq_true']
  simp

theorem cr_notMem_statusLine (status : HttpStatus) : 13 ∉ statusLine status := by
  have hcode : 13 ∉ decimal status.code := notMem_decimal rfl
  have hreason : 13 ∉ statusReasonPhrase status := by cases status <;> decide +kernel
  simp [statusLine, cr_notMem_version, hcode, hreason]

section Head

variable {response : HttpResponse M}
  (hreadable : ∀ name value, find? response.headers.map name = some value → Readable (name, value))

include hreadable

/-- The lines the serializer writes can be read back. -/
theorem readable_responseEntries {e : Bytes × Bytes} (he : e ∈ responseEntries response) :
    Readable e := by
  have hnames : ∀ text ∈ [ascii "Content-Length", ascii "Connection", ascii "close"],
      ∀ c ∈ text, isBlank c = false ∧ c ≠ 13 := by decide +kernel
  rcases mem_responseEntries.1 he with ⟨hstored, -⟩ | rfl | rfl
  · exact hreadable e.1 e.2 hstored
  · exact ⟨plain_contentLength _, trimmed_of_forall (hnames _ (by simp)), trimmed_decimal _⟩
  · exact ⟨plain_connection, trimmed_of_forall (hnames _ (by simp)),
      trimmed_of_forall (hnames _ (by simp))⟩

omit hreadable in
/-- A stored name is its own lowercase form, and the computed names differ from those that are
kept. -/
theorem distinct_responseEntries (response : HttpResponse M) :
    (responseEntries response).Pairwise fun d e ↦ toLowerAscii d.1 ≠ toLowerAscii e.1 := by
  have hstored : ∀ e ∈ (entries response.headers.map).filter (fun entry ↦ !isComputed entry.1),
      toLowerAscii e.1 = e.1 ∧ isComputed e.1 = false := by
    intro e he
    obtain ⟨hmem, hkept⟩ := List.mem_filter.1 he
    exact ⟨response.headers.lower (mem_entries.1 hmem), by simpa using hkept⟩
  refine List.pairwise_append.2 ⟨?_, ?_, fun d hd e he heq ↦ ?_⟩
  · have hkeys : ((entries response.headers.map).filter fun entry ↦ !isComputed entry.1).Pairwise
        fun d e ↦ d.1 ≠ e.1 :=
      (List.pairwise_map.1 (nodup_keys response.headers.map)).sublist List.filter_sublist
    refine hkeys.imp_of_mem fun {d e} hd he hne heq ↦ hne ?_
    rwa [(hstored d hd).1, (hstored e he).1] at heq
  · have hne : toLowerAscii (ascii "Content-Length") ≠ toLowerAscii (ascii "Connection") := by
      decide +kernel
    exact List.pairwise_pair.2 hne
  · have hcomputed : isComputed (toLowerAscii e.1) = true := by
      have hnames : ∀ name ∈ [ascii "Content-Length", ascii "Connection"],
          isComputed (toLowerAscii name) = true := by decide +kernel
      exact hnames e.1 (List.mem_map_of_mem he)
    rw [← heq, (hstored d hd).1, (hstored d hd).2] at hcomputed
    exact absurd hcomputed (by simp)

/-- The head of the response. -/
def responseHead : MessageHead :=
  headOfEntries (statusLine response.status) (responseEntries response)
    (cr_notMem_statusLine response.status)
    fun _ he ↦ (readable_responseEntries hreadable he).plain

theorem serialize_eq_encode :
    HttpSerializer.serialize response = (responseHead hreadable).encode ++ response.body :=
  serialize_eq response

end Head

/-- The client reads the code of a status line. -/
theorem parseStatusLine_append {version : Bytes} (hversion : ascii "HTTP/" <+: version)
    (hspace : 32 ∉ version) {code : ℕ} (hcode : 100 ≤ code ∧ code ≤ 599) (reason : Bytes)
    (out : ClientResponse M) :
    parseStatusLine (version ++ 32 :: (decimal code ++ 32 :: reason)) out =
      some { out with statusCode := code } := by
  have hfirst : indexOf? [32] (version ++ 32 :: (decimal code ++ 32 :: reason)) =
      some version.length :=
    indexOf?_singleton_append hspace
  have hstart : (ascii "HTTP/").isPrefixOf (version ++ 32 :: (decimal code ++ 32 :: reason)) =
      true :=
    List.isPrefixOf_iff_prefix.2 (hversion.trans (List.prefix_append _ _))
  have hafter : (version ++ 32 :: (decimal code ++ 32 :: reason)).drop (version.length + 1) =
      decimal code ++ 32 :: reason := by
    rw [← List.drop_drop, List.drop_left]
    rfl
  have hsecond : indexOf? [32] (decimal code ++ 32 :: reason) = some (decimal code).length :=
    indexOf?_singleton_append (notMem_decimal rfl)
  have hnumber : parseNumber (decimal code) = some code :=
    parseNumber_decimal (Nat.lt_of_le_of_lt hcode.2 (by decide))
  rw [parseStatusLine, hfirst]
  simp only [hstart, not_true_eq_false, if_false, hafter, hsecond, List.take_left, hnumber]
  exact if_neg (by omega)

/-- The client reads back the status. -/
theorem parseStatusLine_statusLine (status : HttpStatus) (out : ClientResponse M) :
    parseStatusLine (statusLine status) out = some { out with statusCode := status.code } := by
  have hversion : ascii "HTTP/" <+: ascii "HTTP/1.1" := by decide +kernel
  have hcode : 100 ≤ status.code ∧ status.code ≤ 599 := by cases status <;> decide
  exact parseStatusLine_append hversion (by decide +kernel) hcode _ out

/-! ### What the client returns -/

/-- The response the client reads back. -/
def receivedResponse (response : HttpResponse M) : ClientResponse M where
  statusCode := response.status.code
  headers := assignAll FiniteMap.empty (responseEntries response)
  body := response.body

/-- **The headers of the response**: those stored, except the two that the serializer computes. -/
theorem find?_receivedResponse (response : HttpResponse M) (name : Bytes) :
    find? (receivedResponse response).headers name =
      if name = ascii "content-length" then some (decimal response.body.length)
      else if name = ascii "connection" then some (ascii "close")
      else find? response.headers.map name := by
  have hmem : ∀ e ∈ responseEntries response,
      find? (receivedResponse response).headers (toLowerAscii e.1) = some e.2 :=
    fun e he ↦ find?_assignAll_of_mem (distinct_responseEntries response) FiniteMap.empty he
  split
  · rename_i hlength
    rw [hlength, ← toLowerAscii_contentLength]
    exact hmem (ascii "Content-Length", _) (mem_responseEntries.2 (Or.inr (Or.inl rfl)))
  rename_i hlength
  split
  · rename_i hclose
    rw [hclose, ← toLowerAscii_connection]
    exact hmem (ascii "Connection", ascii "close") (mem_responseEntries.2 (Or.inr (Or.inr rfl)))
  rename_i hclose
  have hkept : isComputed name = false := by simp [isComputed, hlength, hclose]
  rcases hstored : find? response.headers.map name with - | value
  · -- no entry that is written has this name
    refine (find?_assignAll_of_ne fun e he ↦ ?_).trans (find?_empty name)
    rintro rfl
    rcases mem_responseEntries.1 he with ⟨hfind, -⟩ | rfl | rfl
    · rw [response.headers.lower hfind, hfind] at hstored
      exact absurd hstored (by simp)
    · exact hlength toLowerAscii_contentLength
    · exact hclose toLowerAscii_connection
  · have hfind := hmem (name, value) (mem_responseEntries.2 (Or.inl ⟨hstored, hkept⟩))
    rwa [response.headers.lower hstored] at hfind

/-- **The round trip of a response**: whatever chunks the bytes of a response are cut into, the
receive loop returns the response. -/
theorem receiveLoop_serialize {response : HttpResponse M}
    (hreadable : ∀ name value, find? response.headers.map name = some value →
      Readable (name, value))
    {options : ClientOptions} {chunks : Chunks} {ending : StreamEnd}
    (hstream : chunks.stream = HttpSerializer.serialize response)
    (hsize : (HttpSerializer.serialize response).length ≤ options.maxResponseSize) :
    receiveLoop options.maxResponseSize ending chunks .start =
      some (receivedResponse response) := by
  have hfold : foldHead (responseHead hreadable) emptyResponse =
      some { receivedResponse response with body := [] } := by
    have hentries := foldlM_parseHeadLine
      (fun e he ↦ readable_responseEntries hreadable (e := e) he)
      { (emptyResponse : ClientResponse M) with statusCode := response.status.code }
    have hstatus := parseStatusLine_statusLine response.status (emptyResponse : ClientResponse M)
    rw [foldHead]
    show (parseStatusLine (statusLine response.status) emptyResponse).bind _ = _
    rw [hstatus]
    exact hentries
  have hlength : find? ({ receivedResponse response with body := [] } : ClientResponse M).headers
      (ascii "content-length") = some (decimal response.body.length) :=
    (find?_receivedResponse response _).trans (if_pos rfl)
  have hbody : response.body.length ≤ options.maxResponseSize := by
    rw [serialize_eq_encode hreadable, List.length_append] at hsize
    omega
  have hnumber : parseNumber (decimal response.body.length) = some response.body.length :=
    parseNumber_decimal (Nat.lt_of_le_of_lt hbody options.maxResponseSize_lt)
  rw [receiveLoop_of_head (hstream.trans (serialize_eq_encode hreadable)) (hstream ▸ hsize),
    responseSpec, hfold]
  simp only [hlength, hnumber]
  rw [if_neg (Nat.not_lt.2 hbody), if_neg (Nat.lt_irrefl _), List.take_length]
  rfl

/-- A header as the round trip takes it: a name without colons, blanks and carriage returns, and a
value without carriage returns and without blanks at its ends. -/
structure HeaderSafe (name value : Bytes) : Prop where
  /-- No colon, carriage return, space or tab in the name. -/
  notMem_name : 58 ∉ name ∧ 13 ∉ name ∧ 32 ∉ name ∧ 9 ∉ name
  /-- No carriage return in the value. -/
  cr_notMem_value : 13 ∉ value
  /-- The value does not start with a space or a tab. -/
  head_value : ∀ c ∈ value.head?, isBlank c = false
  /-- The value does not end with a space or a tab. -/
  last_value : ∀ c ∈ value.getLast?, isBlank c = false

theorem HeaderSafe.readable {name value : Bytes} (h : HeaderSafe name value) :
    Readable (name, value) := by
  obtain ⟨hcolon, hcr, hspace, htab⟩ := h.notMem_name
  refine ⟨⟨hcolon, hcr, h.cr_notMem_value, fun hhead ↦ ?_⟩, trimmed_of_forall fun c hc ↦ ?_,
    ⟨h.head_value, fun c hc ↦ ⟨h.last_value c hc, ?_⟩⟩⟩
  · exact absurd (h.head_value 32 hhead) (by decide)
  · have h32 : c ≠ 32 := fun heq ↦ hspace (heq ▸ hc)
    have h9 : c ≠ 9 := fun heq ↦ htab (heq ▸ hc)
    exact ⟨by simp [isBlank, h32, h9], fun heq ↦ hcr (heq ▸ hc)⟩
  · exact fun heq ↦ h.cr_notMem_value (heq ▸ List.mem_of_mem_getLast? hc)

/-- **The round trip of a response, at the client.** When the exchange reaches the server and the
server's bytes are a serialized response, `send` returns that response: its status, its body, and
its headers with the two computed ones. -/
theorem send_serialize (options : ClientOptions) (peer : Peer) (method : HttpMethod)
    (host : Bytes) (port : UInt16) (path body : Bytes) (headers : M) (response : HttpResponse M)
    (hsocket : peer.socket.isValid) (hconnected : peer.connected)
    (hsendTimeout : peer.sendTimeoutSet) (hreceiveTimeout : peer.receiveTimeoutSet)
    (haccepts : peer.endpoint.AcceptsWrites)
    (hheaders : ∀ name value, find? response.headers.map name = some value →
      HeaderSafe name value)
    (hsize : (HttpSerializer.serialize response).length ≤ options.maxResponseSize)
    (hstream : Chunks.stream peer.endpoint.incoming = HttpSerializer.serialize response) :
    ∃ received : ClientResponse M,
      (send options peer method host port path body headers).1 = some received ∧
      received.statusCode = response.status.code ∧ received.body = response.body ∧
      ∀ name, find? received.headers name =
        if name = ascii "content-length" then some (decimal response.body.length)
        else if name = ascii "connection" then some (ascii "close")
        else find? response.headers.map name := by
  refine ⟨receivedResponse response, ?_, rfl, rfl, find?_receivedResponse response⟩
  have hready : Ready peer := ⟨hsocket, hconnected, hsendTimeout, hreceiveTimeout⟩
  rw [send_fst_of_acceptsWrites hready haccepts]
  exact receiveLoop_serialize (fun name value h ↦ (hheaders name value h).readable) hstream hsize

/-- A response with a header and a body that looks like the end of a head. -/
def textResponse : HttpResponse BytesMap :=
  ((HttpResponse.new .created).setHeader (ascii "Content-Type") (ascii "text/plain")).setBody
    (ascii "x\r\n\r\ny")

/-- A peer that sends the response in two chunks. -/
def textPeer : Peer where
  socket := ⟨some 3⟩
  connected := true
  sendTimeoutSet := true
  receiveTimeoutSet := true
  endpoint :=
    { incoming :=
        [⟨(HttpSerializer.serialize textResponse).take 40, by decide +kernel, by decide +kernel⟩,
         ⟨(HttpSerializer.serialize textResponse).drop 40, by decide +kernel, by decide +kernel⟩]
      ending := .eof
      sendResults := [5]
      sent := []
      closed := false }

theorem send_textPeer : ∃ received : ClientResponse BytesMap,
    (send ⟨1024, by decide⟩ textPeer .get (ascii "127.0.0.1") 80 (ascii "/") [] (∅ : BytesMap)).1 =
        some received ∧
      received.statusCode = 201 ∧ received.body = ascii "x\r\n\r\ny" ∧
      find? received.headers (ascii "content-type") = some (ascii "text/plain") := by
  obtain ⟨received, hsend, hstatus, hbody, hheaders⟩ := send_serialize ⟨1024, by decide⟩ textPeer
    .get (ascii "127.0.0.1") 80 (ascii "/") [] (∅ : BytesMap) textResponse rfl rfl rfl rfl
    (by decide +kernel)
    (fun name value h ↦ by
      have hstored : find? textResponse.headers.map name =
          if name = toLowerAscii (ascii "Content-Type") then some (ascii "text/plain")
          else find? (FiniteMap.empty : BytesMap) name :=
        find?_put FiniteMap.empty (toLowerAscii (ascii "Content-Type")) (ascii "text/plain") name
      rw [hstored, find?_empty] at h
      split at h
      · rename_i hname
        obtain rfl := Option.some.inj h
        rw [hname]
        exact ⟨by decide +kernel, by decide +kernel, by decide +kernel, by decide +kernel⟩
      · exact absurd h (by simp))
    (by decide +kernel) (by decide +kernel)
  refine ⟨received, hsend, hstatus, hbody, ?_⟩
  rw [hheaders]
  decide +kernel

end HttpClient

end FalconHTTP
