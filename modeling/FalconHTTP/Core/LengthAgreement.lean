import FalconHTTP.Core.Framing
import FalconHTTP.HTTP.HeaderLines

/-!
# The two readings of the declared length

`handleConnection` scans the buffer for a `Content-Length` before it parses it, and the parser reads
the header lines again. Line by line the two agree on names, on values and on which of several lines
wins (`lengthsAgree_step`), but the scan starts one line earlier: it also looks at the request line.
So a request line that is itself a `Content-Length` line, with no header of that name to overwrite
it, frames a body that the parsed request knows nothing of (`lengthsAgree_iff`).
-/

namespace FalconHTTP

open Occurrence Lines

variable {M : Type} [FiniteMap M Bytes Bytes]

/-- What a line gives as the value of a `Content-Length` header, if it has that name. -/
def declaredValue (line : Bytes) : Option Bytes :=
  (indexOf? [58] line).bind fun colon ↦
    if equalsIgnoreCase (line.take colon) (ascii "Content-Length") then
      some (line.drop (colon + 1))
    else none

/-- The length that frames the body is what the parsed request declares: its `Content-Length` is a
numeral of it when there is one, and the length is `0` when there is none. -/
structure LengthsAgree (contentLength : ℕ) (request : HttpRequest M) : Prop where
  /-- A header that is present consists of digits and denotes the length. -/
  of_present : request.hasHeader (ascii "content-length") = true →
    (∀ c ∈ request.header (ascii "content-length"), Decimal.isDigit c = true) ∧
      Decimal.value (request.header (ascii "content-length")) = contentLength
  /-- Without the header the length is `0`. -/
  of_absent : request.hasHeader (ascii "content-length") = false → contentLength = 0

/-! ### One line -/

section Step

variable {line : Bytes} {n n' : ℕ} {request request' : HttpRequest M}

/-- A line with another name leaves the scan where it was. -/
theorem scanLine_of_none (h : declaredValue line = none) (n : ℕ) : scanLine line n = some n := by
  rw [declaredValue] at h
  rw [scanLine]
  split
  · rfl
  · rename_i colon hcolon
    rw [hcolon, Option.bind_some] at h
    split at h
    · exact absurd h (by simp)
    · rename_i hname
      exact if_neg hname

/-- A `Content-Length` line overwrites what the scan had. -/
theorem scanLine_of_some {value : Bytes} (h : declaredValue line = some value) (n : ℕ) :
    scanLine line n = contentLengthValue value := by
  rw [declaredValue] at h
  rw [scanLine]
  split
  · rename_i hcolon
    rw [hcolon] at h
    exact absurd h (by simp)
  · rename_i colon hcolon
    rw [hcolon, Option.bind_some] at h
    split at h
    · rename_i hname
      rw [if_pos hname, Option.some.inj h]
    · exact absurd h (by simp)

/-- A value that the scan accepts is, without its leading spaces, a numeral of the length. -/
theorem of_contentLengthValue {value : Bytes} (h : contentLengthValue value = some n) :
    (∀ c ∈ dropSpaces value, Decimal.isDigit c = true) ∧ Decimal.value (dropSpaces value) = n := by
  rw [contentLengthValue] at h
  split at h
  · rename_i m hread
    obtain rfl := Option.some.inj h
    exact (Decimal.of_readDecimal?_eq_some hread).2
  · exact absurd h (by simp)

/-- The agreement in terms of the stored header. -/
theorem lengthsAgree_of_find?_some {value : Bytes}
    (h : request.headers.find? (ascii "content-length") = some value) :
    LengthsAgree n request ↔
      (∀ c ∈ value, Decimal.isDigit c = true) ∧ Decimal.value value = n := by
  have hhas : request.hasHeader (ascii "content-length") = true := by
    rw [HttpRequest.hasHeader, HeaderMap.hasHeader, h, Option.isSome_some]
  have hheader : request.header (ascii "content-length") = value := by
    rw [HttpRequest.header, HeaderMap.header, h, Option.getD_some]
  refine ⟨fun hagree ↦ hheader ▸ hagree.of_present hhas, fun hvalue ↦ ⟨fun _ ↦ ?_, fun hnot ↦ ?_⟩⟩
  · rwa [hheader]
  · exact absurd (hnot.symm.trans hhas) Bool.false_ne_true

theorem lengthsAgree_of_find?_none
    (h : request.headers.find? (ascii "content-length") = none) :
    LengthsAgree n request ↔ n = 0 := by
  have hhas : request.hasHeader (ascii "content-length") = false := by
    rw [HttpRequest.hasHeader, HeaderMap.hasHeader, h, Option.isSome_none]
  refine ⟨fun hagree ↦ hagree.of_absent hhas, fun hzero ↦ ⟨fun hpresent ↦ ?_, fun _ ↦ hzero⟩⟩
  exact absurd (hhas.symm.trans hpresent) Bool.false_ne_true

/-- The agreement depends on the stored header alone. -/
theorem lengthsAgree_congr (h : request'.headers.find? (ascii "content-length") =
    request.headers.find? (ascii "content-length")) :
    LengthsAgree n request' ↔ LengthsAgree n request := by
  rcases hfind : request.headers.find? (ascii "content-length") with - | value
  · rw [lengthsAgree_of_find?_none hfind, lengthsAgree_of_find?_none (h.trans hfind)]
  · rw [lengthsAgree_of_find?_some hfind, lengthsAgree_of_find?_some (h.trans hfind)]

/-- **The step**: after one line that both have read, the two agree if it is a `Content-Length`
line, and otherwise as before. -/
theorem lengthsAgree_step (hscan : scanLine line n = some n')
    (hparse : HttpParser.parseHeaderLine line request = .ok request') :
    LengthsAgree n' request' ↔ (declaredValue line).isSome = true ∨ LengthsAgree n request := by
  have hname := toLowerAscii_contentLength
  have hlower : toLowerAscii (ascii "content-length") = ascii "content-length" := rfl
  rw [HttpParser.parseHeaderLine] at hparse
  split at hparse
  · exact absurd hparse (by simp)
  rename_i colon hcolon
  obtain rfl := Except.ok.inj hparse
  have hfind := request.headers.find?_setHeader (line.take colon)
    (dropSpaces (line.drop (colon + 1))) (ascii "content-length")
  by_cases heq : equalsIgnoreCase (line.take colon) (ascii "Content-Length") = true
  · -- both take the name for `Content-Length`
    have hdeclared : declaredValue line = some (line.drop (colon + 1)) := by
      rw [declaredValue, hcolon, Option.bind_some, if_pos heq]
    rw [equalsIgnoreCase_iff, hname] at heq
    rw [if_pos (hlower.trans heq.symm)] at hfind
    rw [scanLine_of_some hdeclared] at hscan
    rw [lengthsAgree_of_find?_some hfind]
    exact iff_of_true (of_contentLengthValue hscan) (Or.inl (by rw [hdeclared]; rfl))
  · -- neither does
    have hdeclared : declaredValue line = none := by
      rw [declaredValue, hcolon, Option.bind_some, if_neg heq]
    rw [equalsIgnoreCase_iff, hname] at heq
    rw [if_neg fun h ↦ heq (h.symm.trans hlower)] at hfind
    rw [scanLine_of_none hdeclared] at hscan
    obtain rfl := Option.some.inj hscan
    rw [lengthsAgree_congr hfind, hdeclared]
    simp

end Step

/-! ### All lines -/

/-- **The run**: after all header lines, the two agree if one of them is a `Content-Length` line,
and otherwise as before. -/
theorem lengthsAgree_foldlM {lines : List Bytes} {n n' : ℕ} {request request' : HttpRequest M}
    (hscan : lines.foldlM (fun n line ↦ scanLine line n) n = some n')
    (hparse : HttpParser.foldHeaderLines lines request = .ok request') :
    LengthsAgree n' request' ↔
      (∃ line ∈ lines, (declaredValue line).isSome = true) ∨ LengthsAgree n request := by
  induction lines generalizing n request with
  | nil =>
    obtain rfl := Option.some.inj hscan
    obtain rfl := Except.ok.inj hparse
    simp
  | cons line lines ih =>
    rw [List.foldlM_cons] at hscan
    rw [HttpParser.foldHeaderLines, List.foldlM_cons] at hparse
    obtain ⟨n₁, hscan₁, hscan⟩ := Option.bind_eq_some_iff.1 hscan
    rcases hparse₁ : HttpParser.parseHeaderLine line request with e | request₁
    · rw [hparse₁] at hparse
      exact absurd hparse (by simp [bind, Except.bind])
    · rw [hparse₁] at hparse
      rw [ih hscan hparse, lengthsAgree_step hscan₁ hparse₁, List.exists_mem_cons_iff, or_assoc]
      exact or_left_comm

/-- A header block whose two readings agree: it has a `Content-Length` line after the first line, or
the first line declares nothing, or `0`. -/
def OneLength (lines : List Bytes) : Prop :=
  (∃ line ∈ lines.tail, (declaredValue line).isSome = true) ∨
    ∀ first ∈ lines.head?, ∀ value ∈ declaredValue first, contentLengthValue value = some 0

/-- **When the two readings agree.** For every buffer with a blank line that the scan accepts and
the parser accepts, the length that frames the body is the one that the parsed request declares
exactly when a header line names `Content-Length`, or the request line does not declare a length of
its own, other than `0`. -/
theorem lengthsAgree_iff (raw : Bytes) (headerEnd contentLength : ℕ) (request : HttpRequest M)
    (hblank : indexOf? blankLine raw = some headerEnd)
    (hscan : scanContentLength raw headerEnd (raw.length + 1) 0 0 = some contentLength)
    (hparse : HttpParser.parse raw = .ok request) :
    LengthsAgree contentLength request ↔
      OneLength (splitLines 13 10 (raw.take headerEnd)) := by
  obtain ⟨head, body, rfl, hend⟩ := exists_head_of_blankLine hblank
  obtain rfl : headerEnd = head.encode.length - 4 := by omega
  rw [scanContentLength_encode, declaredLength, List.foldlM_cons] at hscan
  obtain ⟨n, hfirst, hscan⟩ := Option.bind_eq_some_iff.1 hscan
  rw [HttpParser.parse_encode] at hparse
  rcases hhead : HttpParser.parseHead head (M := M) with e | parsed
  · rw [hhead] at hparse
    exact absurd hparse (by simp [Except.map])
  rw [hhead] at hparse
  obtain rfl := Except.ok.inj hparse
  rw [HttpParser.parseHead] at hhead
  rcases hline : HttpParser.parseRequestLine head.first (M := M) .new with e | started
  · rw [hline] at hhead
    exact absurd hhead (by simp [bind, Except.bind])
  rw [hline] at hhead
  -- the parser starts the header lines without headers, the scan with what the first line declares
  have hstart : started.headers.find? (ascii "content-length") = none := by
    rw [HttpParser.headers_parseRequestLine hline]
    exact HeaderMap.find?_empty _
  have hdeclared : n = 0 ↔
      ∀ value ∈ declaredValue head.first, contentLengthValue value = some 0 := by
    rcases hvalue : declaredValue head.first with - | value
    · rw [scanLine_of_none hvalue] at hfirst
      exact iff_of_true (Option.some.inj hfirst).symm (by simp)
    · rw [scanLine_of_some hvalue] at hfirst
      simp [hfirst]
  have hbody : LengthsAgree contentLength { parsed with body := body } ↔
      LengthsAgree contentLength parsed := lengthsAgree_congr rfl
  rw [hbody, lengthsAgree_foldlM hscan hhead, lengthsAgree_of_find?_none hstart, hdeclared,
    head.take_encode_append, head.splitLines_text]
  simp [OneLength]

/-- A request with two `Content-Length` headers. -/
def twoLengths : Bytes :=
  ascii "POST / HTTP/1.1\r\nContent-Length: 7\r\ncontent-length:  3\r\n\r\nabc"

/-- A parse that succeeds has a result. -/
private theorem exists_of_isOk (raw : Bytes)
    (h : (HttpParser.parse raw (M := BytesMap)).isOk = true) :
    ∃ request : HttpRequest BytesMap, HttpParser.parse raw = .ok request := by
  rcases hparse : HttpParser.parse raw (M := BytesMap) with e | request
  · rw [hparse] at h
    exact absurd h Bool.false_ne_true
  · exact ⟨request, rfl⟩

theorem lengthsAgree_twoLengths : ∃ request : HttpRequest BytesMap,
    HttpParser.parse twoLengths = .ok request ∧ LengthsAgree 3 request := by
  obtain ⟨request, hparse⟩ := exists_of_isOk twoLengths (by decide +kernel)
  refine ⟨request, hparse, (lengthsAgree_iff twoLengths 54 3 request (by decide +kernel)
    (by decide +kernel) hparse).2 (Or.inl ?_)⟩
  exact ⟨ascii "Content-Length: 7", by decide +kernel, by decide +kernel⟩

/-- A request line that is a `Content-Length` line. -/
def lengthRequestLine : Bytes :=
  ascii "Content-Length:  5\r\n\r\n"

/-- Five bytes of body are waited for, and the parsed request declares none. -/
theorem not_lengthsAgree_lengthRequestLine :
    indexOf? blankLine lengthRequestLine = some 18 ∧
      scanContentLength lengthRequestLine 18 (lengthRequestLine.length + 1) 0 0 = some 5 ∧
      ∃ request : HttpRequest BytesMap, HttpParser.parse lengthRequestLine = .ok request ∧
        request.hasHeader (ascii "content-length") = false ∧ ¬ LengthsAgree 5 request := by
  obtain ⟨request, hparse⟩ := exists_of_isOk lengthRequestLine (by decide +kernel)
  have habsent : (HttpParser.parse lengthRequestLine (M := BytesMap)).toOption.map
      (fun r ↦ r.hasHeader (ascii "content-length")) = some false := by decide +kernel
  rw [hparse] at habsent
  have hnone : request.hasHeader (ascii "content-length") = false := Option.some.inj habsent
  exact ⟨by decide +kernel, by decide +kernel, request, hparse, hnone,
    fun h ↦ absurd (h.of_absent hnone) (by decide)⟩

end FalconHTTP
