import FalconHTTP.Core.Chain
import FalconHTTP.HTTP.HeaderLines
import FalconHTTP.HTTP.HeaderNames

/-!
# The preamble of a stream

`runChain` hands all the headers that the middlewares have set to the stream it starts, and the
stream writes them after its own three. So the head that a client sees is well formed exactly when
no middleware has set a header that the preamble already has, or one that frames a body
(`startStream_streamHead_iff`).
-/

namespace FalconHTTP

open Occurrence Lines FiniteMap

variable {M : Type} [FiniteMap M Bytes Bytes]

/-! ### Headers that middlewares set -/

/-- The response after a sequence of `setHeader` calls. -/
def withHeaders (set : List (Bytes × Bytes)) : HttpResponse M :=
  set.foldl (fun response e ↦ response.setHeader e.1 e.2) (.new .ok)

theorem headers_withHeaders (set : List (Bytes × Bytes)) :
    (withHeaders set : HttpResponse M).headers = HeaderMap.empty.setHeaders set :=
  congrArg HttpResponse.headers (HttpResponse.setHeaders_eq (.new .ok) set)

/-- The stored headers are the names that were set, in lowercase, with their last values. -/
theorem mem_entries_withHeaders {set : List (Bytes × Bytes)} {name value : Bytes} :
    (name, value) ∈ entries (withHeaders set : HttpResponse M).headers.map ↔
      toLowerAscii name = name ∧ lastValue set name = some value := by
  rw [HeaderMap.mem_entries_iff, headers_withHeaders, HeaderMap.find?_empty_setHeaders]

/-! ### The preamble as a head -/

/-- The headers that every preamble starts with. -/
def preambleEntries : List (Bytes × Bytes) :=
  [(ascii "Content-Type", ascii "text/event-stream"), (ascii "Cache-Control", ascii "no-cache"),
    (ascii "Connection", ascii "close")]

/-- **The preamble is a head of entries**, and nothing follows it. -/
theorem preamble_eq (extraHeaders : M) :
    SseConnection.preamble extraHeaders =
      ascii "HTTP/1.1 200 OK" ++ (13 :: 10 :: joinLines 13 10
        ((preambleEntries ++ entries extraHeaders).map headerLine)) ++ [13, 10] ++ [] := by
  have hstart : ascii "HTTP/1.1 200 OK\r\n" ++ ascii "Content-Type: text/event-stream\r\n" ++
      ascii "Cache-Control: no-cache\r\n" ++ ascii "Connection: close\r\n" =
      ascii "HTTP/1.1 200 OK" ++ 13 :: 10 :: joinLines 13 10 (preambleEntries.map headerLine) := by
    decide +kernel
  rw [SseConnection.preamble, hstart, foldl_write_lines headerLine (fun _ ↦ false)
    (fun out e ↦ by simp [headerLine]), List.map_append, joinLines_append]
  simp [crlf]

/-- The head of a stream as its headers are read: no name twice, the stream's own type, an end of
the connection, no framing of a body, and every other header that was set once, with the last value
it was set to. -/
structure StreamHeaders (set headers : List (Bytes × Bytes)) : Prop where
  /-- No name occurs twice, ignoring case. -/
  distinct : headers.Pairwise fun d e ↦ toLowerAscii d.1 ≠ toLowerAscii e.1
  /-- The type is that of an event stream. -/
  content_type : valuesOf (ascii "content-type") headers = [ascii "text/event-stream"]
  /-- The connection is closed at the end. -/
  connection : valuesOf (ascii "connection") headers = [ascii "close"]
  /-- No length is declared. -/
  no_length : valuesOf (ascii "content-length") headers = []
  /-- No transfer coding is declared. -/
  no_transfer : valuesOf (ascii "transfer-encoding") headers = []
  /-- Every other header that was set has the last value it was set to. -/
  others : ∀ name value, lastValue set name = some value →
    toLowerAscii name ∉ [ascii "content-type", ascii "connection", ascii "content-length",
      ascii "transfer-encoding"] → valuesOf (toLowerAscii name) headers = [value]

/-- A preamble that is the well-formed head of a stream. -/
def StreamHead (set : List (Bytes × Bytes)) (preamble : Bytes) : Prop :=
  ∃ lines, ReadsAs 13 10 preamble (ascii "HTTP/1.1 200 OK" :: lines) [] ∧
    StreamHeaders set (lines.map readHeaderLine)

/-- The names that a middleware must leave to the stream, in lowercase. -/
def streamOwned : List Bytes :=
  [ascii "content-type", ascii "cache-control", ascii "connection", ascii "content-length",
    ascii "transfer-encoding"]

section Preamble

variable {set : List (Bytes × Bytes)}

/-- A header as a middleware sets it: no colon and no line end in the name, no line end in the
value. -/
def LineSafe (e : Bytes × Bytes) : Prop :=
  (58 ∉ e.1 ∧ 13 ∉ e.1 ∧ 10 ∉ e.1) ∧ 13 ∉ e.2 ∧ 10 ∉ e.2

/-- The stored names and values are as safe as those that were set. -/
theorem notMem_of_mem_entries (hsafe : ∀ e ∈ set, LineSafe e) {x : Bytes × Bytes}
    (hx : x ∈ entries (withHeaders set : HttpResponse M).headers.map) :
    58 ∉ x.1 ∧ 13 ∉ x.1 ∧ 13 ∉ x.2 := by
  obtain ⟨hlower, hlast⟩ := mem_entries_withHeaders.1 hx
  obtain ⟨e, he, hname, hvalue⟩ := mem_of_lastValue hlast
  obtain ⟨⟨hcolon, hcr, -⟩, hcr', -⟩ := hsafe e he
  rw [← hlower, ← hname, ← hvalue]
  exact ⟨notMem_toLowerAscii (by decide) hcolon, notMem_toLowerAscii (by decide) hcr, hcr'⟩

/-- **What a client reads of a preamble**: the stream's own headers, then the stored ones. -/
theorem readsAs_preamble (hsafe : ∀ e ∈ set, LineSafe e) :
    ReadsAs 13 10 (SseConnection.preamble (withHeaders set : HttpResponse M).headers.map)
      (ascii "HTTP/1.1 200 OK" ::
        (preambleEntries ++ entries (withHeaders set : HttpResponse M).headers.map).map
          headerLine) [] := by
  have hne : ∀ l ∈ (preambleEntries ++
      entries (withHeaders set : HttpResponse M).headers.map).map headerLine, l ≠ [] := by
    intro l hl
    obtain ⟨e, -, rfl⟩ := List.mem_map.1 hl
    exact headerLine_ne_nil e
  have hfixed : ∀ e ∈ preambleEntries, 13 ∉ headerLine e := by decide +kernel
  rw [preamble_eq, readsAs_iff cr_ne_lf hne, List.forall_mem_cons, List.forall_mem_map,
    List.forall_mem_append]
  refine ⟨clean_of_notMem (by decide +kernel), fun e he ↦ clean_of_notMem (hfixed e he),
    fun x hx ↦ clean_of_notMem ?_⟩
  obtain ⟨-, hname, hvalue⟩ := notMem_of_mem_entries hsafe hx
  rw [headerLine_eq]
  simp [hname, hvalue]

/-- So a preamble is well formed exactly when its entries are. -/
theorem streamHead_iff_entries (hsafe : ∀ e ∈ set, LineSafe e) :
    StreamHead set (SseConnection.preamble (withHeaders set : HttpResponse M).headers.map) ↔
      StreamHeaders set
        (preambleEntries ++ entries (withHeaders set : HttpResponse M).headers.map) := by
  have hreads := readsAs_preamble (M := M) hsafe
  have hfixed : ∀ e ∈ preambleEntries, 58 ∉ e.1 := by decide +kernel
  have hcolon : ∀ e ∈ preambleEntries ++ entries (withHeaders set : HttpResponse M).headers.map,
      58 ∉ e.1 :=
    List.forall_mem_append.2 ⟨hfixed, fun x hx ↦ (notMem_of_mem_entries hsafe hx).1⟩
  constructor
  · rintro ⟨lines, hlines, hheaders⟩
    obtain rfl := (List.cons.inj (hlines.unique hreads).1).2
    rwa [map_readHeaderLine hcolon] at hheaders
  · intro hheaders
    refine ⟨_, hreads, ?_⟩
    rwa [map_readHeaderLine hcolon]

/-- The last value that was set is stored, under the name in lowercase. -/
theorem mem_entries_of_lastValue {name value : Bytes} (h : lastValue set name = some value) :
    (toLowerAscii name, value) ∈ entries (withHeaders set : HttpResponse M).headers.map := by
  refine mem_entries_withHeaders.2 ⟨toLowerAscii_toLowerAscii _, ?_⟩
  rw [← h, lastValue_congr (toLowerAscii_toLowerAscii _)]

/-- A name that the stream owns is one of its own headers, or frames a body. -/
theorem owned_cases {name : Bytes} (h : name ∈ streamOwned) :
    (∃ d ∈ preambleEntries, toLowerAscii d.1 = name) ∨ name = ascii "content-length" ∨
      name = ascii "transfer-encoding" := by
  revert name
  decide +kernel

/-- The stream's own headers have names that it owns, and frame no body. -/
theorem owned_of_mem_preambleEntries : ∀ d ∈ preambleEntries, toLowerAscii d.1 ∈ streamOwned ∧
    toLowerAscii d.1 ≠ ascii "content-length" ∧ toLowerAscii d.1 ≠ ascii "transfer-encoding" := by
  decide +kernel

/-- A name that the stream owns is stored if it was set, and there it meets the stream's own or
frames a body. -/
theorem StreamHeaders.notMem_streamOwned
    (h : StreamHeaders set
      (preambleEntries ++ entries (withHeaders set : HttpResponse M).headers.map))
    {e : Bytes × Bytes} (he : e ∈ set) : toLowerAscii e.1 ∉ streamOwned := by
  intro hmem
  obtain ⟨value, hvalue⟩ := exists_lastValue he
  have hstored := mem_entries_of_lastValue (M := M) hvalue
  have hname : toLowerAscii (toLowerAscii e.1) = toLowerAscii e.1 := toLowerAscii_toLowerAscii _
  rcases owned_cases hmem with ⟨d, hd, hdname⟩ | hlength | htransfer
  · exact (List.pairwise_append.1 h.distinct).2.2 d hd _ hstored (hdname.trans hname.symm)
  · exact valuesOf_eq_nil_iff.1 h.no_length _ (List.mem_append_right _ hstored)
      (hname.trans hlength)
  · exact valuesOf_eq_nil_iff.1 h.no_transfer _ (List.mem_append_right _ hstored)
      (hname.trans htransfer)

/-- What is stored has none of the names that none of those set has. -/
theorem notMem_streamOwned_of_mem_entries (h : ∀ e ∈ set, toLowerAscii e.1 ∉ streamOwned)
    {x : Bytes × Bytes} (hx : x ∈ entries (withHeaders set : HttpResponse M).headers.map) :
    toLowerAscii x.1 ∉ streamOwned := by
  obtain ⟨e, he, hname, -⟩ := mem_of_lastValue (mem_entries_withHeaders.1 hx).2
  rw [← hname]
  exact h e he

/-- Then no name occurs twice. -/
theorem pairwise_preamble (h : ∀ e ∈ set, toLowerAscii e.1 ∉ streamOwned) :
    (preambleEntries ++ entries (withHeaders set : HttpResponse M).headers.map).Pairwise
      fun d e ↦ toLowerAscii d.1 ≠ toLowerAscii e.1 := by
  have hfixed : preambleEntries.Pairwise fun d e ↦ toLowerAscii d.1 ≠ toLowerAscii e.1 := by
    decide +kernel
  have hkeys : (entries (withHeaders set : HttpResponse M).headers.map).Pairwise fun d e ↦
      toLowerAscii d.1 ≠ toLowerAscii e.1 := by
    refine (List.pairwise_map.1 (nodup_keys _)).imp_of_mem fun {d e} hd he hne heq ↦ hne ?_
    rwa [(mem_entries_withHeaders.1 hd).1, (mem_entries_withHeaders.1 he).1] at heq
  exact List.pairwise_append.2 ⟨hfixed, hkeys, fun d hd x hx heq ↦
    notMem_streamOwned_of_mem_entries h hx (heq ▸ (owned_of_mem_preambleEntries d hd).1)⟩

/-- **Which headers leave the preamble well formed**: those whose names the stream does not own. -/
theorem streamHeaders_iff :
    StreamHeaders set (preambleEntries ++ entries (withHeaders set : HttpResponse M).headers.map) ↔
      ∀ e ∈ set, toLowerAscii e.1 ∉ streamOwned := by
  constructor
  · exact fun h e he ↦ h.notMem_streamOwned he
  · intro h
    have hdistinct := pairwise_preamble (M := M) h
    have hown : ∀ d ∈ preambleEntries, valuesOf (toLowerAscii d.1)
        (preambleEntries ++ entries (withHeaders set : HttpResponse M).headers.map) = [d.2] :=
      fun d hd ↦ valuesOf_of_mem hdistinct (List.mem_append_left _ hd)
    have hnone : ∀ name ∈ streamOwned, (∀ d ∈ preambleEntries, toLowerAscii d.1 ≠ name) →
        valuesOf name
          (preambleEntries ++ entries (withHeaders set : HttpResponse M).headers.map) = [] :=
      fun name hname hfixed ↦ valuesOf_eq_nil_iff.2 (List.forall_mem_append.2
        ⟨hfixed, fun x hx heq ↦ notMem_streamOwned_of_mem_entries h hx (heq ▸ hname)⟩)
    refine ⟨hdistinct, ?_, ?_,
      hnone _ (by simp [streamOwned]) fun d hd ↦ (owned_of_mem_preambleEntries d hd).2.1,
      hnone _ (by simp [streamOwned]) fun d hd ↦ (owned_of_mem_preambleEntries d hd).2.2,
      fun name value hlast _ ↦ ?_⟩
    · have htype : toLowerAscii (ascii "Content-Type") = ascii "content-type" := rfl
      rw [← htype]
      exact hown _ List.mem_cons_self
    · rw [← toLowerAscii_connection]
      exact hown (ascii "Connection", ascii "close") (by simp [preambleEntries])
    · have hone := valuesOf_of_mem hdistinct
        (List.mem_append_right _ (mem_entries_of_lastValue (M := M) hlast))
      rwa [toLowerAscii_toLowerAscii] at hone

end Preamble

/-- **When the head of a stream is well formed.** For every sequence of headers that the middlewares
set, the preamble that is written when a stream starts is a well-formed head exactly when none of
their names is one that the stream owns. -/
theorem startStream_streamHead_iff (set : List (Bytes × Bytes)) (hsafe : ∀ e ∈ set, LineSafe e)
    (s : ChainState) (halive : (Server.startStream (withHeaders set : HttpResponse M) s).1.alive) :
    ∃ preamble, (Server.startStream (withHeaders set : HttpResponse M) s).2.sent =
        s.endpoint.sent ++ preamble ∧
      (StreamHead set preamble ↔ ∀ e ∈ set, toLowerAscii e.1 ∉ streamOwned) := by
  obtain ⟨accepted, endpoint, hnew, -, htook⟩ := SseConnection.new_spec s.connection
    (withHeaders set : HttpResponse M).headers.map s.endpoint
  rw [Server.startStream, hnew] at halive ⊢
  refine ⟨accepted, htook.sent, ?_⟩
  rw [show accepted = _ from of_decide_eq_true halive, streamHead_iff_entries hsafe]
  exact streamHeaders_iff

/-- The headers of a middleware that allows cross-origin requests, set twice. -/
def corsHeaders : List (Bytes × Bytes) :=
  [(ascii "Access-Control-Allow-Origin", ascii "null"),
    (ascii "access-control-allow-origin", ascii "*")]

/-- An open connection whose first send is short. -/
def openState : ChainState where
  connection := ⟨⟨some 3⟩⟩
  endpoint := { incoming := [], ending := .eof, sendResults := [20], sent := [], closed := false }
  fetched := []
  counterOps := []

theorem startStream_corsHeaders : ∃ preamble,
    (Server.startStream (withHeaders corsHeaders : HttpResponse BytesMap) openState).2.sent =
      [] ++ preamble ∧ StreamHead corsHeaders preamble := by
  have hsafe : ∀ e ∈ corsHeaders, LineSafe e := by
    unfold LineSafe
    decide +kernel
  obtain ⟨preamble, hsent, hiff⟩ := startStream_streamHead_iff (M := BytesMap) corsHeaders hsafe
    openState (by decide +kernel)
  exact ⟨preamble, hsent, hiff.2 (by decide +kernel)⟩

/-- A content type that a middleware sets for every response. -/
def typeHeaders : List (Bytes × Bytes) :=
  [(ascii "Content-Type", ascii "text/plain")]

/-- A stream that starts with two content types. -/
theorem startStream_typeHeaders : (∀ e ∈ typeHeaders, LineSafe e) ∧
    (Server.startStream (withHeaders typeHeaders : HttpResponse BytesMap) openState).1.alive =
      true ∧
    ¬ StreamHead typeHeaders
      (Server.startStream (withHeaders typeHeaders : HttpResponse BytesMap) openState).2.sent := by
  have hsafe : ∀ e ∈ typeHeaders, LineSafe e := by
    unfold LineSafe
    decide +kernel
  have hsent :
      (Server.startStream (withHeaders typeHeaders : HttpResponse BytesMap) openState).2.sent =
        SseConnection.preamble (withHeaders typeHeaders : HttpResponse BytesMap).headers.map := by
    decide +kernel
  refine ⟨hsafe, by decide +kernel, fun hhead ↦ ?_⟩
  rw [hsent, streamHead_iff_entries hsafe, streamHeaders_iff] at hhead
  exact absurd hhead (by decide +kernel)

end FalconHTTP
