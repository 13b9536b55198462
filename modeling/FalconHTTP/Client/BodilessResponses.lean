import FalconHTTP.Client.ResponseIntegrity
import FalconHTTP.Client.ResponseRoundTrip
import FalconHTTP.HTTP.HeaderNames

/-!
# Responses without a body

HTTP/1.1 ends a response to HEAD, and one with status 1xx, 204 or 304, at its head, whatever length
the head declares; any other response has a body of the declared length, or one that goes on until
the connection is closed. A `WireResponse` is a response as it is sent, and `WellFormed` asks of it
what that rule does, for the method of the request.

The receive loop has one rule for all methods and statuses: it waits for the declared length. So a
well-formed response is returned exactly when it is not bodiless or declares no length but zero
(`send_wireResponse_iff`). What a sender may write in a head is taken widely: nothing more is asked
of the version, the reason, the names and the values than that they can be told apart.
-/

namespace FalconHTTP

namespace HttpClient

open Occurrence Lines Decimal FiniteMap

variable {M : Type} [FiniteMap M Bytes Bytes]

/-! ### Responses as they are sent -/

/-- A header field as it is sent: the name and the value, with the blanks around the value. -/
structure FieldLine where
  /-- The name. -/
  name : Bytes
  /-- The blanks between the colon and the value. -/
  before : Bytes
  /-- The value. -/
  value : Bytes
  /-- The blanks after the value. -/
  after : Bytes

namespace FieldLine

/-- The line, without its terminator. -/
def line (field : FieldLine) : Bytes :=
  field.name ++ 58 :: (field.before ++ (field.value ++ field.after))

/-- The header that the line carries. -/
def entry (field : FieldLine) : Bytes × Bytes :=
  (field.name, field.value)

/-- A field whose parts can be told apart. -/
structure WellFormed (field : FieldLine) : Prop where
  /-- The name and the value. -/
  safe : HeaderSafe field.name field.value
  /-- The blanks are blanks. -/
  blank_before : ∀ c ∈ field.before, isBlank c = true
  /-- On both sides of the value. -/
  blank_after : ∀ c ∈ field.after, isBlank c = true

theorem WellFormed.cr_notMem {field : FieldLine} (h : field.WellFormed) : 13 ∉ field.line := by
  have hblank : isBlank 13 ≠ true := by decide
  have hbefore : 13 ∉ field.before := fun hc ↦ hblank (h.blank_before 13 hc)
  have hafter : 13 ∉ field.after := fun hc ↦ hblank (h.blank_after 13 hc)
  simp [line, h.safe.notMem_name, h.safe.cr_notMem_value, hbefore, hafter]

/-- The client stores the header of the line. -/
theorem WellFormed.parseHeadLine {field : FieldLine} (h : field.WellFormed)
    (out : ClientResponse M) :
    parseHeadLine field.line out =
      some { out with headers := assign out.headers (toLowerAscii field.name) field.value } := by
  have hreadable := h.safe.readable
  rw [line, parseHeadLine_append h.safe.notMem_name.1, hreadable.name.trim_eq,
    hreadable.value.trim_append h.blank_before h.blank_after]

/-- The client stores the headers of all lines, in order. -/
theorem foldlM_parseHeadLine {fields : List FieldLine} (h : ∀ field ∈ fields, field.WellFormed)
    (out : ClientResponse M) :
    (fields.map line).foldlM (fun out line ↦ HttpClient.parseHeadLine line out) out =
      some { out with headers := assignAll out.headers (fields.map entry) } := by
  induction fields generalizing out with
  | nil => rfl
  | cons field fields ih =>
    rw [List.map_cons, List.foldlM_cons, (h field List.mem_cons_self).parseHeadLine]
    exact ih (fun f hf ↦ h f (List.mem_cons_of_mem _ hf)) _

end FieldLine

/-- A response as it is sent. -/
structure WireResponse where
  /-- The version of the protocol. -/
  version : Bytes
  /-- The status code. -/
  status : ℕ
  /-- The reason phrase. -/
  reason : Bytes
  /-- The header fields. -/
  fields : List FieldLine
  /-- What follows the head. -/
  body : Bytes

/-- A response to this request method, with this status, ends at its head. -/
def Bodiless (method : HttpMethod) (status : ℕ) : Prop :=
  method = .head ∨ (100 ≤ status ∧ status < 200) ∨ status = 204 ∨ status = 304

namespace WireResponse

/-- The status line, without its terminator. -/
def statusLine (response : WireResponse) : Bytes :=
  response.version ++ 32 :: (decimal response.status ++ 32 :: response.reason)

/-- The bytes of the response. -/
def encode (response : WireResponse) : Bytes :=
  response.statusLine ++ (13 :: 10 :: joinLines 13 10 (response.fields.map FieldLine.line)) ++
    [13, 10] ++ response.body

/-- The headers of the response. -/
def entries (response : WireResponse) : List (Bytes × Bytes) :=
  response.fields.map FieldLine.entry

/-- The declared lengths, as they are written. -/
def contentLengths (response : WireResponse) : List Bytes :=
  (response.fields.filter fun field ↦ toLowerAscii field.name = ascii "content-length").map
    FieldLine.value

/-- A response to a request with this method that is well formed, body and all. -/
structure WellFormed (method : HttpMethod) (response : WireResponse) : Prop where
  /-- The version is one of HTTP. -/
  version : ascii "HTTP/" <+: response.version
  /-- The version is one word. -/
  notMem_version : 32 ∉ response.version ∧ 13 ∉ response.version
  /-- The status code has three digits, and is in one of the five classes. -/
  status : 100 ≤ response.status ∧ response.status ≤ 599
  /-- The reason does not end the line. -/
  reason : 13 ∉ response.reason
  /-- The fields are well formed. -/
  fields : ∀ field ∈ response.fields, field.WellFormed
  /-- A declared length is a number. -/
  digits : ∀ length ∈ response.contentLengths, length ≠ [] ∧ ∀ c ∈ length, isDigit c = true
  /-- If several lengths are declared they are the same. -/
  agree : ∀ length ∈ response.contentLengths, ∀ length' ∈ response.contentLengths,
    value length = value length'
  /-- A bodiless response ends at its head. -/
  bodiless : Bodiless method response.status → response.body = []
  /-- Any other has the length that it declares. -/
  length : ¬ Bodiless method response.status →
    ∀ length ∈ response.contentLengths, value length = response.body.length

/-- A response as the client returns it: the status, the last value of each header under its
lowercase name, and the body. -/
structure ReturnedAs (response : WireResponse) (received : ClientResponse M) : Prop where
  /-- The status code. -/
  statusCode : received.statusCode = response.status
  /-- The headers, ignoring case. -/
  headers : ∀ name, find? received.headers (toLowerAscii name) = lastValue response.entries name
  /-- The names are stored in lowercase. -/
  lower : ∀ name value, find? received.headers name = some value → toLowerAscii name = name
  /-- The body. -/
  body : received.body = response.body

/-! ### What the client makes of the head -/

section Head

variable {method : HttpMethod} {response : WireResponse} (h : response.WellFormed method)

include h

theorem WellFormed.cr_notMem_statusLine : 13 ∉ response.statusLine := by
  have hstatus : 13 ∉ decimal response.status := notMem_decimal rfl
  simp [statusLine, h.notMem_version.2, hstatus, h.reason]

/-- The head of the response. -/
def WellFormed.head : MessageHead where
  first := response.statusLine
  rest := response.fields.map FieldLine.line
  first_clean := clean_of_notMem h.cr_notMem_statusLine
  rest_clean l hl := by
    obtain ⟨field, hfield, rfl⟩ := List.mem_map.1 hl
    exact clean_of_notMem (h.fields field hfield).cr_notMem
  rest_ne_nil l hl := by
    obtain ⟨field, -, rfl⟩ := List.mem_map.1 hl
    simp [FieldLine.line]

theorem WellFormed.encode_eq : response.encode = h.head.encode ++ response.body :=
  rfl

/-- The response without its body, as the client stores it. -/
def parsed (M : Type) [FiniteMap M Bytes Bytes] (response : WireResponse) : ClientResponse M where
  statusCode := response.status
  headers := assignAll FiniteMap.empty response.entries
  body := []

/-- The client accepts the head. -/
theorem WellFormed.foldHead_eq :
    foldHead h.head (emptyResponse : ClientResponse M) = some (response.parsed M) := by
  have hstatus : parseStatusLine response.statusLine (emptyResponse : ClientResponse M) =
      some { emptyResponse with statusCode := response.status } :=
    parseStatusLine_append h.version h.notMem_version.1 h.status _ _
  rw [foldHead]
  show (parseStatusLine response.statusLine emptyResponse).bind _ = _
  rw [hstatus]
  exact FieldLine.foldlM_parseHeadLine h.fields _

end Head

variable {response : WireResponse}

/-- The stored headers are the last values. -/
theorem find?_parsed (response : WireResponse) (name : Bytes) :
    find? (response.parsed M).headers (toLowerAscii name) = lastValue response.entries name := by
  have hfold : find? (response.parsed M).headers (toLowerAscii name) =
      (lastValue response.entries name).or (find? (FiniteMap.empty : M) (toLowerAscii name)) :=
    find?_foldl (find?_assign_item (fun e : Bytes × Bytes ↦ toLowerAscii e.1) Prod.snd)
      response.entries FiniteMap.empty _
  rw [hfold, find?_empty, Option.or_none]

/-- The stored names are in lowercase. -/
theorem lower_of_find?_parsed {name value : Bytes}
    (h : find? (response.parsed M).headers name = some value) : toLowerAscii name = name := by
  by_contra hne
  have hnone : find? (response.parsed M).headers name = find? (FiniteMap.empty : M) name :=
    find?_assignAll_of_ne fun e _ heq ↦ hne (by rw [heq, toLowerAscii_toLowerAscii])
  rw [hnone, find?_empty] at h
  cases h

/-- The parsed response with a body is how the response with that body is returned. -/
theorem returnedAs_parsed :
    response.ReturnedAs { response.parsed M with body := response.body } where
  statusCode := rfl
  headers := find?_parsed response
  lower _ _ := lower_of_find?_parsed
  body := rfl

theorem mem_contentLengths {length : Bytes} :
    length ∈ response.contentLengths ↔
      ∃ e ∈ response.entries, toLowerAscii e.1 = ascii "content-length" ∧ e.2 = length := by
  simp [contentLengths, entries, FieldLine.entry, and_assoc]

/-- The length that the client finds is declared, and it finds one if there is one. -/
theorem find?_contentLength (response : WireResponse) :
    (find? (response.parsed M).headers (ascii "content-length") = none ∧
        response.contentLengths = []) ∨
      ∃ length ∈ response.contentLengths,
        find? (response.parsed M).headers (ascii "content-length") = some length := by
  have hlower : toLowerAscii (ascii "content-length") = ascii "content-length" := by decide +kernel
  have hfind := find?_parsed (M := M) response (ascii "content-length")
  rw [hlower] at hfind
  rw [hfind]
  rcases hlast : lastValue response.entries (ascii "content-length") with - | length
  · refine .inl ⟨rfl, List.eq_nil_iff_forall_not_mem.2 fun length hlength ↦ ?_⟩
    obtain ⟨e, he, hname, -⟩ := mem_contentLengths.1 hlength
    obtain ⟨value, hvalue⟩ := exists_lastValue he
    rw [lastValue_congr (hname.trans hlower.symm), hlast] at hvalue
    cases hvalue
  · obtain ⟨e, he, hname, hvalue⟩ := mem_of_lastValue hlast
    exact .inr ⟨length, mem_contentLengths.2 ⟨e, he, hname.trans hlower, hvalue⟩, rfl⟩

end WireResponse

/-- A text of digits is read as its number, when that is a `size_t`. -/
theorem parseNumber_of_digits {text : Bytes} (hne : text ≠ [])
    (hdigits : ∀ c ∈ text, isDigit c = true) :
    parseNumber text = if sizeRange ≤ value text then none else some (value text) := by
  have htrim : trim text = text :=
    (trimmed_of_forall fun c hc ↦ not_isBlank_of_isDigit (hdigits c hc)).trim_eq
  rw [parseNumber, htrim, if_neg hne, readDecimal?_of_forall hne hdigits]
  rcases Nat.lt_or_ge (value text) sizeRange with hlt | hge
  · rw [if_neg (Nat.not_le.2 hlt), if_neg (Nat.not_le.2 hlt)]
  · rw [if_pos hge, if_pos hge]

/-! ### What the client returns -/

namespace WireResponse

variable {method : HttpMethod} {response : WireResponse} {maxResponseSize : ℕ}

/-- A response that declares no length, or that of its body, is returned. -/
theorem responseSpec_eq_some (h : response.WellFormed method)
    (hmax : response.body.length ≤ maxResponseSize) (hrange : maxResponseSize < sizeRange)
    (hlengths : ∀ length ∈ response.contentLengths, value length = response.body.length) :
    responseSpec maxResponseSize .eof h.head response.body =
      some { response.parsed M with body := response.body } := by
  rw [responseSpec, h.foldHead_eq]
  obtain ⟨hfind, -⟩ | ⟨length, hmem, hfind⟩ := find?_contentLength (M := M) response
  · simp only [hfind, if_true]
  · obtain ⟨hne, hdigits⟩ := h.digits length hmem
    have hnumber : parseNumber length = some response.body.length := by
      rw [parseNumber_of_digits hne hdigits, hlengths length hmem, if_neg (by omega)]
    simp only [hfind, hnumber]
    rw [if_neg (Nat.not_lt.2 hmax), if_neg (Nat.lt_irrefl _), List.take_length]

/-- A response that ends at its head and declares another length than zero is given up. -/
theorem responseSpec_eq_none (h : response.WellFormed method) (hbody : response.body = [])
    {length : Bytes} (hlength : length ∈ response.contentLengths) (hpos : value length ≠ 0) :
    responseSpec maxResponseSize .eof h.head response.body =
      (none : Option (ClientResponse M)) := by
  rw [responseSpec, h.foldHead_eq]
  obtain ⟨-, hnil⟩ | ⟨length', hmem, hfind⟩ := find?_contentLength (M := M) response
  · rw [hnil] at hlength
    cases hlength
  · obtain ⟨hne, hdigits⟩ := h.digits length' hmem
    have hpos' : response.body.length < value length' := by
      rw [h.agree length' hmem length hlength, hbody]
      exact Nat.pos_of_ne_zero hpos
    simp only [hfind, parseNumber_of_digits hne hdigits]
    split
    · rfl
    · rename_i n hn
      split at hn
      · cases hn
      · cases hn
        rw [if_pos hpos', ite_self]

/-- **What the client makes of a well-formed response**, whole and followed by the end of the data:
it is returned unless it is bodiless and declares another length than zero. -/
theorem responseSpec_iff (h : response.WellFormed method)
    (hmax : response.body.length ≤ maxResponseSize) (hrange : maxResponseSize < sizeRange) :
    (∃ received : ClientResponse M,
        responseSpec maxResponseSize .eof h.head response.body = some received ∧
          response.ReturnedAs received) ↔
      (Bodiless method response.status → ∀ length ∈ response.contentLengths, value length = 0) := by
  constructor
  · rintro ⟨received, hspec, -⟩ hbodiless length hlength
    by_contra hpos
    rw [responseSpec_eq_none h (h.bodiless hbodiless) hlength hpos] at hspec
    cases hspec
  · intro hzero
    refine ⟨_, responseSpec_eq_some h hmax hrange fun length hlength ↦ ?_, returnedAs_parsed⟩
    by_cases hbodiless : Bodiless method response.status
    · rw [hzero hbodiless length hlength, h.bodiless hbodiless, List.length_nil]
    · exact h.length hbodiless length hlength

end WireResponse

/-- **Which well-formed responses are returned.** When the exchange gets as far as the response, and
the response arrives whole, within the limit and followed by the end of the data, in whatever
pieces, `send` returns it exactly when it is not bodiless for the method, or declares no length but
zero. -/
theorem send_wireResponse_iff (options : ClientOptions) (peer : Peer) (method : HttpMethod)
    (host : Bytes) (port : UInt16) (path body : Bytes) (headers : M) (response : WireResponse)
    (hready : Ready peer) (haccepts : peer.endpoint.AcceptsWrites)
    (hwellFormed : response.WellFormed method)
    (hsize : response.encode.length ≤ options.maxResponseSize)
    (hstream : Chunks.stream peer.endpoint.incoming = response.encode)
    (hending : peer.endpoint.ending = .eof) :
    (∃ received : ClientResponse M,
        (send options peer method host port path body headers).1 = some received ∧
          response.ReturnedAs received) ↔
      (Bodiless method response.status →
        ∀ length ∈ response.contentLengths, value length = 0) := by
  have hbody : response.body.length ≤ options.maxResponseSize := by
    rw [hwellFormed.encode_eq, List.length_append] at hsize
    omega
  rw [send_fst_of_acceptsWrites hready haccepts, hending,
    receiveLoop_of_head (hstream.trans hwellFormed.encode_eq) (hstream ▸ hsize)]
  exact WireResponse.responseSpec_iff hwellFormed hbody options.maxResponseSize_lt

/-- A response that ends at its head and declares a length. -/
def declaring (status : ℕ) (reason length : Bytes) : WireResponse where
  version := ascii "HTTP/1.1"
  status := status
  reason := reason
  fields := [⟨ascii "Content-Length", ascii " ", length, []⟩]
  body := []

theorem contentLengths_declaring (status : ℕ) (reason length : Bytes) :
    (declaring status reason length).contentLengths = [length] := by
  simp [WireResponse.contentLengths, declaring, toLowerAscii_contentLength]

theorem wellFormed_declaring {method : HttpMethod} {status : ℕ} {reason length : Bytes}
    (hbodiless : Bodiless method status) (hstatus : 100 ≤ status ∧ status ≤ 599)
    (hreason : 13 ∉ reason) (hne : length ≠ []) (hdigits : ∀ c ∈ length, isDigit c = true) :
    (declaring status reason length).WellFormed method where
  version := by
    show ascii "HTTP/" <+: ascii "HTTP/1.1"
    decide +kernel
  notMem_version := by
    show 32 ∉ ascii "HTTP/1.1" ∧ 13 ∉ ascii "HTTP/1.1"
    decide +kernel
  status := hstatus
  reason := hreason
  fields field hfield := by
    have hplain : ∀ c ∈ length, isBlank c = false ∧ c ≠ 13 :=
      fun c hc ↦ not_isBlank_of_isDigit (hdigits c hc)
    have hname : let name := ascii "Content-Length"
        58 ∉ name ∧ 13 ∉ name ∧ 32 ∉ name ∧ 9 ∉ name := by decide +kernel
    have hblank : ∀ c ∈ ascii " ", isBlank c = true := by decide +kernel
    obtain rfl := List.mem_singleton.1 hfield
    refine ⟨⟨hname, fun hcr ↦ (hplain 13 hcr).2 rfl, fun c hc ↦ ?_, fun c hc ↦ ?_⟩, hblank,
      fun c hc ↦ absurd hc List.not_mem_nil⟩
    · exact (hplain c (List.mem_of_mem_head? hc)).1
    · exact (hplain c (List.mem_of_mem_getLast? hc)).1
  digits length' hlength' := by
    rw [contentLengths_declaring, List.mem_singleton] at hlength'
    exact hlength' ▸ ⟨hne, hdigits⟩
  agree length₁ hlength₁ length₂ hlength₂ := by
    rw [contentLengths_declaring, List.mem_singleton] at hlength₁ hlength₂
    rw [hlength₁, hlength₂]
  bodiless _ := rfl
  length hnot := absurd hbodiless hnot

/-- The answer to a HEAD request for a page of five bytes. -/
def pageHead : WireResponse :=
  declaring 200 (ascii "OK") (ascii "5")

theorem wellFormed_pageHead : pageHead.WellFormed .head :=
  wellFormed_declaring (.inl rfl) (by decide) (by decide +kernel) (by decide +kernel)
    (by decide +kernel)

/-- The answer in one chunk. -/
def pageHeadChunks : Chunks :=
  [⟨pageHead.encode, by decide +kernel, by decide +kernel⟩]

/-- The client gives the answer up: it waits for a body that does not come. -/
theorem not_returnedAs_pageHead :
    pageHead.WellFormed .head ∧ pageHead.encode.length ≤ 1024 ∧
      Chunks.stream pageHeadChunks = pageHead.encode ∧
      ¬ ∃ received : ClientResponse BytesMap,
        (send ⟨1024, by decide⟩ (workingPeer pageHeadChunks .eof) .head (ascii "127.0.0.1") 80
          (ascii "/") [] (∅ : BytesMap)).1 = some received ∧ pageHead.ReturnedAs received := by
  have hnone : (send ⟨1024, by decide⟩ (workingPeer pageHeadChunks .eof) .head (ascii "127.0.0.1")
      80 (ascii "/") [] (∅ : BytesMap)).1.isNone = true := by decide +kernel
  refine ⟨wellFormed_pageHead, by decide +kernel, by decide +kernel, ?_⟩
  rintro ⟨received, hsend, -⟩
  rw [hsend] at hnone
  cases hnone

/-- An answer without content that says so. -/
def noContent : WireResponse :=
  declaring 204 (ascii "No Content") (ascii "0")

/-- The answer in one chunk. -/
def noContentChunks : Chunks :=
  [⟨noContent.encode, by decide +kernel, by decide +kernel⟩]

/-- The client returns the answer. -/
theorem send_wireResponse_noContent : ∃ received : ClientResponse BytesMap,
    (send ⟨1024, by decide⟩ (workingPeer noContentChunks .eof) .delete (ascii "127.0.0.1") 80
      (ascii "/") [] (∅ : BytesMap)).1 = some received ∧ noContent.ReturnedAs received := by
  have hbodiless : Bodiless .delete 204 := .inr (.inr (.inl rfl))
  refine (send_wireResponse_iff ⟨1024, by decide⟩ (workingPeer noContentChunks .eof) .delete
    (ascii "127.0.0.1") 80 (ascii "/") [] (∅ : BytesMap) noContent (ready_workingPeer _ _)
    (acceptsWrites_workingPeer _ _) ?_ ?_ ?_ rfl).2 fun _ length hlength ↦ ?_
  · exact wellFormed_declaring hbodiless (by decide) (by decide +kernel) (by decide +kernel)
      (by decide +kernel)
  · decide +kernel
  · decide +kernel
  · rw [noContent, contentLengths_declaring, List.mem_singleton] at hlength
    rw [hlength]
    rfl

end HttpClient

end FalconHTTP
