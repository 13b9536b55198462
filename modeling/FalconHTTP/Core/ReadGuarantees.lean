import FalconHTTP.Core.Framing

/-!
# What reading guarantees

The properties of `readRequest` that do not mention heads: they speak of a stream, of where its
blank line is, and of the chunks it is cut into. Each is read off the two refinement theorems,
`readRequest_of_head` and `readRequest_of_no_blankLine`.

* **Segmentation.** Two cuttings of one stream may end in different bodies, because bytes past the
  declared length are kept when they arrive together with it. They are the only difference, as long
  as the header cap treats the two cuttings alike (`readRequest_segmentation`).
* **The body cap** bounds the declared length, and the handed body up to one chunk
  (`readRequest_body_length`).
* **The header cap** is looked at only while the blank line is missing. It is exact on the streams
  whose buffer it sees above the cap, and on no others (`headerCapExact_iff`).
-/

namespace FalconHTTP

open Occurrence Lines

variable {M : Type} [FiniteMap M Bytes Bytes]

/-- The `Content-Length` that the header block of a stream declares: `0` when it has none, `none`
when it is malformed or the block is not terminated. -/
def streamDeclaredLength (stream : Bytes) : Option ℕ :=
  (indexOf? blankLine stream).bind fun headerEnd ↦
    scanContentLength stream headerEnd (stream.length + 1) 0 0

theorem streamDeclaredLength_encode (head : MessageHead) (body : Bytes) :
    streamDeclaredLength (head.encode ++ body) = declaredLength head := by
  rw [streamDeclaredLength, indexOf?_blankLine_encode]
  exact scanContentLength_encode head body

/-- The buffer outgrows the header cap before the header block is complete in it. -/
def HeaderOutgrowsCap (caps : SizeCaps) (chunks : Chunks) : Prop :=
  ∃ headerEnd, indexOf? blankLine chunks.stream = some headerEnd ∧
    OutgrowsCap caps.maxHeaderSize (headerEnd + 4) [] chunks

theorem headerOutgrowsCap_of_head {caps : SizeCaps} {head : MessageHead} {body : Bytes}
    {chunks : Chunks} (h : chunks.stream = head.encode ++ body) :
    HeaderOutgrowsCap caps chunks ↔
      OutgrowsCap caps.maxHeaderSize head.encode.length [] chunks := by
  have hfour := head.four_le_length_encode
  have hfind : indexOf? blankLine chunks.stream = some (head.encode.length - 4) := by
    rw [h]
    exact indexOf?_blankLine_encode head body
  constructor
  · rintro ⟨headerEnd, hend, hgrows⟩
    obtain rfl := Option.some.inj (hfind.symm.trans hend)
    rwa [Nat.sub_add_cancel hfour] at hgrows
  · intro hgrows
    exact ⟨_, hfind, by rwa [Nat.sub_add_cancel hfour]⟩

/-! ### Segmentation -/

/-- Cut the body of a handed request to a length. -/
def ReadOutcome.truncate (n : ℕ) : ReadOutcome M → ReadOutcome M
  | .request r => .request { r with body := r.body.take n }
  | .rejected response => .rejected response
  | .closed => .closed

/-- What the specification hands on, it hands on with the declared length. -/
theorem requestSpec_eq_request {caps : SizeCaps} {head : MessageHead} {body : Bytes}
    {request : HttpRequest M} (h : requestSpec caps head body = .request request) :
    ∃ n, declaredLength head = some n ∧ n ≤ caps.maxBodySize ∧ n ≤ body.length ∧
      request.body = body.take n := by
  rw [requestSpec] at h
  split at h
  · exact absurd h (by simp)
  rename_i n hn
  split at h
  · exact absurd h (by simp)
  rename_i hbig
  split at h
  · exact absurd h (by simp)
  rename_i hshort
  split at h
  · exact absurd h (by simp)
  · obtain rfl := ReadOutcome.request.inj h
    exact ⟨n, hn, Nat.le_of_not_gt hbig, Nat.le_of_not_gt hshort, rfl⟩

/-- Cut to the declared length, an outcome that ends as specified is the specified one. -/
theorem EndsAs.truncate_eq {caps : SizeCaps} {head : MessageHead} {body : Bytes}
    {outcome : ReadOutcome M} (h : EndsAs body (requestSpec caps head body) outcome) :
    outcome.truncate ((declaredLength head).getD 0) = requestSpec caps head body := by
  rcases hspec : requestSpec caps head body (M := M) with request | response | -
  · rw [hspec] at h
    obtain ⟨handed, rfl, hpre, hbody, -⟩ := h
    obtain ⟨n, hn, -, hle, hreq⟩ := requestSpec_eq_request hspec
    have hlen : (body.take n).length = n := by rw [List.length_take, Nat.min_eq_left hle]
    rw [hreq] at hpre
    have htake : handed.take n = request.body := by
      rw [hreq, List.prefix_iff_eq_take.1 hpre, hlen]
    rw [hn]
    show ReadOutcome.request { request with body := handed.take n } = _
    rw [htake]
  · rw [hspec] at h
    obtain rfl := h
    rfl
  · rw [hspec] at h
    obtain rfl := h
    rfl

/-- An outcome that ends as specified is the specified one when nothing follows the declared
body. -/
theorem EndsAs.eq_of_length_le {caps : SizeCaps} {head : MessageHead} {body : Bytes}
    {outcome : ReadOutcome M} (h : EndsAs body (requestSpec caps head body) outcome) {n : ℕ}
    (hn : declaredLength head = some n) (hbody : body.length ≤ n) :
    outcome = requestSpec caps head body := by
  rcases hspec : requestSpec caps head body (M := M) with request | response | -
  · rw [hspec] at h
    obtain ⟨handed, rfl, hpre, hpre', -⟩ := h
    obtain ⟨m, hm, -, -, hreq⟩ := requestSpec_eq_request hspec
    obtain rfl := Option.some.inj (hn.symm.trans hm)
    rw [List.take_of_length_le hbody] at hreq
    have hhanded : handed = request.body :=
      (hpre'.eq_of_length_le (hreq ▸ hpre.length_le)).trans hreq.symm
    rw [hhanded]
  · rw [hspec] at h
    exact h
  · rw [hspec] at h
    exact h

/-- **Segmentation changes only how much of the bytes past the declared body is handed on.** Two
cuttings of one stream end in the same outcome up to those bytes, unless the buffer outgrows the
header cap in one of them only; and in the same outcome when there are no such bytes. -/
theorem readRequest_segmentation (caps : SizeCaps) (chunks₁ chunks₂ : Chunks)
    (hstream : chunks₁.stream = chunks₂.stream)
    (hgrows : HeaderOutgrowsCap caps chunks₁ ↔ HeaderOutgrowsCap caps chunks₂) :
    (readRequest caps chunks₁ (M := M)).1.truncate ((streamDeclaredLength chunks₁.stream).getD 0) =
      (readRequest caps chunks₂).1.truncate ((streamDeclaredLength chunks₁.stream).getD 0) ∧
    ((∀ headerEnd n, indexOf? blankLine chunks₁.stream = some headerEnd →
        streamDeclaredLength chunks₁.stream = some n →
        chunks₁.stream.length ≤ headerEnd + 4 + n) →
      (readRequest caps chunks₁ (M := M)).1 = (readRequest caps chunks₂).1) := by
  rcases hfind : indexOf? blankLine chunks₁.stream with - | headerEnd
  · have h : (readRequest caps chunks₁ (M := M)).1 = (readRequest caps chunks₂).1 := by
      rw [readRequest_of_no_blankLine hfind, readRequest_of_no_blankLine (hstream ▸ hfind), hstream]
    exact ⟨congrArg _ h, fun _ ↦ h⟩
  obtain ⟨head, body, h₁, hend⟩ := exists_head_of_blankLine hfind
  have h₂ := hstream ▸ h₁
  rw [headerOutgrowsCap_of_head h₁, headerOutgrowsCap_of_head h₂] at hgrows
  rw [h₁, streamDeclaredLength_encode]
  rcases readRequest_of_head (M := M) h₁ with ⟨hfits₁, hspec₁⟩ | ⟨hgrows₁, hout₁⟩
  · rcases readRequest_of_head (M := M) h₂ with ⟨-, hspec₂⟩ | ⟨hgrows₂, -⟩
    · refine ⟨hspec₁.truncate_eq.trans hspec₂.truncate_eq.symm, fun hlen ↦ ?_⟩
      rcases hdecl : declaredLength head with - | n
      · have hspec : requestSpec caps head body (M := M) = .rejected malformedContentLength := by
          rw [requestSpec, hdecl]
        rw [hspec] at hspec₁ hspec₂
        exact hspec₁.trans hspec₂.symm
      · have hbody : body.length ≤ n := by
          have := hlen headerEnd n rfl hdecl
          rw [List.length_append] at this
          omega
        rw [hspec₁.eq_of_length_le hdecl hbody, hspec₂.eq_of_length_le hdecl hbody]
    · exact absurd (hgrows.2 hgrows₂) hfits₁
  · rcases readRequest_of_head (M := M) h₂ with ⟨hfits₂, -⟩ | ⟨-, hout₂⟩
    · exact absurd (hgrows.1 hgrows₁) hfits₂
    · rw [hout₁, hout₂]
      exact ⟨rfl, fun _ ↦ rfl⟩

/-- The body of a handed request. -/
def ReadOutcome.handedBody? : ReadOutcome M → Option Bytes
  | .request r => some r.body
  | .rejected _ => none
  | .closed => none

theorem ReadOutcome.exists_of_handedBody? {outcome : ReadOutcome M} {body : Bytes}
    (h : outcome.handedBody? = some body) :
    ∃ request, outcome = .request request ∧ request.body = body := by
  rcases outcome with request | response | -
  · exact ⟨request, rfl, Option.some.inj h⟩
  · exact absurd h (by simp [handedBody?])
  · exact absurd h (by simp [handedBody?])

/-- The wait for the header block gives up only on a block longer than the cap. -/
theorem not_headerOutgrowsCap {caps : SizeCaps} {chunks : Chunks}
    (h : ∀ headerEnd, indexOf? blankLine chunks.stream = some headerEnd →
      headerEnd + 4 ≤ caps.maxHeaderSize) : ¬ HeaderOutgrowsCap caps chunks := by
  rintro ⟨headerEnd, hfind, taken, -, hcap, hlen⟩
  have := h headerEnd hfind
  omega

/-- Small caps, for runs on concrete input. -/
def smallCaps : SizeCaps where
  maxHeaderSize := 64
  maxBodySize := 4
  maxHeaderSize_lt := by decide
  maxBodySize_lt := by decide

/-- A request without a body, and one byte more. -/
def oneByteMore : Chunks :=
  [⟨ascii "GET / HTTP/1.1\r\n\r\nX", by decide +kernel, by decide +kernel⟩]

/-- The same bytes, cut before the last one. -/
def oneByteMoreCut : Chunks :=
  [⟨ascii "GET / HTTP/1.1\r\n\r\n", by decide +kernel, by decide +kernel⟩,
   ⟨ascii "X", by decide +kernel, by decide +kernel⟩]

theorem oneByteMore_segmentation :
    (readRequest smallCaps oneByteMore (M := BytesMap)).1.truncate 0 =
      (readRequest smallCaps oneByteMoreCut).1.truncate 0 := by
  have hfits : ∀ chunks : Chunks, indexOf? blankLine chunks.stream = some 14 →
      ¬ HeaderOutgrowsCap smallCaps chunks := by
    intro chunks h
    refine not_headerOutgrowsCap fun headerEnd hend ↦ ?_
    obtain rfl := Option.some.inj (h.symm.trans hend)
    decide
  have hlen : (streamDeclaredLength oneByteMore.stream).getD 0 = 0 := by decide +kernel
  have hsame : oneByteMore.stream = oneByteMoreCut.stream := by decide +kernel
  have hfind : indexOf? blankLine oneByteMore.stream = some 14 := by decide +kernel
  have h := (readRequest_segmentation (M := BytesMap) smallCaps oneByteMore oneByteMoreCut
    hsame (iff_of_false (hfits _ hfind) (hfits _ (hsame ▸ hfind)))).1
  rwa [hlen] at h

/-- Two cuttings of one stream, handed on with different bodies. -/
theorem not_segmentation_invariant :
    ¬ ∀ (caps : SizeCaps) (chunks₁ chunks₂ : Chunks), chunks₁.stream = chunks₂.stream →
      (readRequest caps chunks₁ (M := BytesMap)).1 = (readRequest caps chunks₂).1 := by
  intro h
  have hbody := congrArg ReadOutcome.handedBody?
    (h smallCaps oneByteMore oneByteMoreCut (by decide +kernel))
  exact absurd hbody (by decide +kernel)

/-! ### The body cap -/

/-- A handed request was specified, up to the end of its body. -/
theorem EndsAs.of_request {body : Bytes} {spec : ReadOutcome M} {request : HttpRequest M}
    (h : EndsAs body spec (.request request)) :
    ∃ r, spec = .request r ∧ request = { r with body := request.body } ∧ r.body <+: request.body ∧
      request.body <+: body ∧ request.body.length < r.body.length + defaultReadChunk := by
  rcases spec with r | response | -
  · obtain ⟨handed, heq, hpre, hbody, hlen⟩ := h
    obtain rfl := ReadOutcome.request.inj heq
    exact ⟨r, rfl, rfl, hpre, hbody, hlen⟩
  · exact absurd h (by simp [EndsAs])
  · exact absurd h (by simp [EndsAs])

/-- A handed request comes from a stream with a head. -/
theorem exists_head_of_readRequest {caps : SizeCaps} {chunks : Chunks} {request : HttpRequest M}
    (h : (readRequest caps chunks).1 = .request request) :
    ∃ (head : MessageHead) (body : Bytes), chunks.stream = head.encode ++ body ∧
      EndsAs body (requestSpec caps head body) (.request request) := by
  rcases hfind : indexOf? blankLine chunks.stream with - | headerEnd
  · rw [readRequest_of_no_blankLine hfind] at h
    split at h <;> exact absurd h (by simp)
  · obtain ⟨head, body, hstream, -⟩ := exists_head_of_blankLine hfind
    rcases readRequest_of_head (M := M) hstream with ⟨-, hspec⟩ | ⟨-, hout⟩
    · exact ⟨head, body, hstream, h ▸ hspec⟩
    · exact absurd (h.symm.trans hout) (by simp)

/-- **The body cap bounds the declared length**, and the handed body up to less than one chunk that
arrived with the end of the declared body. -/
theorem readRequest_body_length (caps : SizeCaps) (chunks : Chunks) (request : HttpRequest M)
    (h : (readRequest caps chunks).1 = .request request) :
    ∃ headerEnd n, indexOf? blankLine chunks.stream = some headerEnd ∧
      streamDeclaredLength chunks.stream = some n ∧ n ≤ caps.maxBodySize ∧
      request.body <+: chunks.stream.drop (headerEnd + 4) ∧ n ≤ request.body.length ∧
      request.body.length < n + defaultReadChunk ∧
      (chunks.stream.length ≤ headerEnd + 4 + n → request.body.length ≤ caps.maxBodySize) := by
  obtain ⟨head, body, hstream, hspec⟩ := exists_head_of_readRequest h
  obtain ⟨r, hr, -, hpre, hbody, hlen⟩ := hspec.of_request
  obtain ⟨n, hn, hcap, hle, hreq⟩ := requestSpec_eq_request hr
  have hfour := head.four_le_length_encode
  have hrlen : r.body.length = n := by rw [hreq, List.length_take, Nat.min_eq_left hle]
  rw [hstream, streamDeclaredLength_encode, indexOf?_blankLine_encode]
  refine ⟨_, n, rfl, hn, hcap, ?_, hrlen ▸ hpre.length_le, hrlen ▸ hlen, fun hnothing ↦ ?_⟩
  · rwa [Nat.sub_add_cancel hfour, List.drop_left]
  · have := hbody.length_le
    rw [List.length_append, Nat.sub_add_cancel hfour] at hnothing
    omega

/-- A request without a `Content-Length`, and five bytes more. -/
def fiveBytesMore : Chunks :=
  [⟨ascii "GET / HTTP/1.1\r\n\r\n12345", by decide +kernel, by decide +kernel⟩]

private theorem handedBody?_fiveBytesMore :
    (readRequest smallCaps fiveBytesMore (M := BytesMap)).1.handedBody? =
      some (ascii "12345") := by decide +kernel

theorem fiveBytesMore_body_length : ∃ request : HttpRequest BytesMap,
    (readRequest smallCaps fiveBytesMore).1 = .request request ∧
      request.body.length < 0 + defaultReadChunk := by
  obtain ⟨request, hout, -⟩ := ReadOutcome.exists_of_handedBody? handedBody?_fiveBytesMore
  obtain ⟨headerEnd, n, -, hn, -, -, -, hlen, -⟩ :=
    readRequest_body_length smallCaps fiveBytesMore request hout
  have hzero : streamDeclaredLength fiveBytesMore.stream = some 0 := by decide +kernel
  obtain rfl := Option.some.inj (hzero.symm.trans hn)
  exact ⟨request, hout, hlen⟩

/-- A body of five bytes is handed on under a cap of four. -/
theorem not_body_length_le :
    ¬ ∀ (caps : SizeCaps) (chunks : Chunks) (request : HttpRequest BytesMap),
      (readRequest caps chunks).1 = .request request →
        request.body.length ≤ caps.maxBodySize := by
  intro h
  obtain ⟨request, hout, hbody⟩ := ReadOutcome.exists_of_handedBody? handedBody?_fiveBytesMore
  have hlen := h smallCaps fiveBytesMore request hout
  rw [hbody] at hlen
  exact absurd hlen (by decide +kernel)

/-! ### The header cap -/

/-- What the specification rejects, it rejects for another reason than the header's size. -/
theorem status_of_requestSpec_eq_rejected {caps : SizeCaps} {head : MessageHead} {body : Bytes}
    {response : HttpResponse M} (h : requestSpec caps head body = .rejected response) :
    response.status ≠ .requestHeaderFieldsTooLarge := by
  rw [requestSpec] at h
  split at h
  · obtain rfl := ReadOutcome.rejected.inj h
    exact HttpStatus.noConfusion
  split at h
  · obtain rfl := ReadOutcome.rejected.inj h
    exact HttpStatus.noConfusion
  split at h
  · exact absurd h (by simp)
  split at h
  · obtain rfl := ReadOutcome.rejected.inj h
    exact HttpStatus.noConfusion
  · exact absurd h (by simp)

/-- An outcome that ends as specified is not a 431. -/
theorem EndsAs.ne_headerTooLarge {caps : SizeCaps} {head : MessageHead} {body : Bytes}
    {outcome : ReadOutcome M} (h : EndsAs body (requestSpec caps head body) outcome) :
    outcome ≠ .rejected headerTooLarge := by
  rintro rfl
  rcases hspec : requestSpec caps head body (M := M) with request | response | -
  · rw [hspec] at h
    obtain ⟨handed, heq, -⟩ := h
    exact absurd heq (by simp)
  · rw [hspec] at h
    obtain rfl := ReadOutcome.rejected.inj h
    exact status_of_requestSpec_eq_rejected hspec rfl
  · rw [hspec] at h
    exact absurd h (by simp [EndsAs])

/-- The header cap is exact on a run: a 431 is sent when the header block is longer than the cap,
and not when it fits. A stream without a blank line has no header block; there the cap applies to
the whole stream. -/
structure HeaderCapExact (M : Type) [FiniteMap M Bytes Bytes] (caps : SizeCaps) (chunks : Chunks) :
    Prop where
  /-- A block longer than the cap is answered with a 431, and no request is handed on. -/
  of_lt : ∀ headerEnd, indexOf? blankLine chunks.stream = some headerEnd →
    caps.maxHeaderSize < headerEnd + 4 →
      (readRequest caps chunks (M := M)).1 = .rejected headerTooLarge
  /-- A block that fits is never answered with a 431. -/
  of_le : ∀ headerEnd, indexOf? blankLine chunks.stream = some headerEnd →
    headerEnd + 4 ≤ caps.maxHeaderSize →
      (readRequest caps chunks (M := M)).1 ≠ .rejected headerTooLarge
  /-- A block that never ends is answered with a 431 exactly when it outgrows the cap. -/
  of_none : indexOf? blankLine chunks.stream = none →
    ((readRequest caps chunks (M := M)).1 = .rejected headerTooLarge ↔
      caps.maxHeaderSize < chunks.stream.length)

/-- **When the header cap is exact**: the header block fits the cap, or some chunk leaves the buffer
above the cap with the block still incomplete. -/
theorem headerCapExact_iff (caps : SizeCaps) (chunks : Chunks) :
    HeaderCapExact M caps chunks ↔
      ∀ headerEnd, indexOf? blankLine chunks.stream = some headerEnd →
        headerEnd + 4 ≤ caps.maxHeaderSize ∨
        ∃ taken : Chunks, taken <+: chunks ∧ caps.maxHeaderSize < taken.stream.length ∧
          taken.stream.length < headerEnd + 4 := by
  rcases hfind : indexOf? blankLine chunks.stream with - | headerEnd
  · refine iff_of_true ⟨?_, ?_, fun _ ↦ ?_⟩ ?_
    · exact fun _ h ↦ absurd (hfind.symm.trans h) (by simp)
    · exact fun _ h ↦ absurd (hfind.symm.trans h) (by simp)
    · rw [readRequest_of_no_blankLine hfind]
      split
      · rename_i hcap
        exact iff_of_true rfl hcap
      · rename_i hcap
        exact iff_of_false (by simp) hcap
    · exact fun _ h ↦ absurd h (by simp)
  obtain ⟨head, body, hstream, hend⟩ := exists_head_of_blankLine hfind
  have hgrows : HeaderOutgrowsCap caps chunks ↔ ∃ taken : Chunks, taken <+: chunks ∧
      caps.maxHeaderSize < taken.stream.length ∧ taken.stream.length < headerEnd + 4 := by
    rw [headerOutgrowsCap_of_head hstream, hend]
    exact Iff.rfl
  constructor
  · intro hexact j hj
    obtain rfl := Option.some.inj hj
    rcases readRequest_of_head (M := M) hstream with ⟨-, hspec⟩ | ⟨hout, -⟩
    · refine Or.inl (Nat.le_of_not_gt fun hlt ↦ ?_)
      exact hspec.ne_headerTooLarge (hexact.of_lt _ hfind hlt)
    · exact Or.inr (hgrows.1 ((headerOutgrowsCap_of_head hstream).2 hout))
  · intro hcond
    refine ⟨fun j hj hlt ↦ ?_, fun j hj hle ↦ ?_, fun h ↦ absurd (hfind.symm.trans h) (by simp)⟩
    · obtain rfl := Option.some.inj (hfind.symm.trans hj)
      have hout := hgrows.2 ((hcond _ rfl).resolve_left (Nat.not_le_of_gt hlt))
      rw [headerOutgrowsCap_of_head hstream] at hout
      rcases readRequest_of_head (M := M) hstream with ⟨hfits, -⟩ | ⟨-, hres⟩
      · exact absurd hout hfits
      · exact hres
    · obtain rfl := Option.some.inj (hfind.symm.trans hj)
      rcases readRequest_of_head (M := M) hstream with ⟨-, hspec⟩ | ⟨hout, -⟩
      · exact hspec.ne_headerTooLarge
      · obtain ⟨taken, -, hcap, hlen⟩ := hgrows.1 ((headerOutgrowsCap_of_head hstream).2 hout)
        omega

/-- Caps below the length of a short request line. -/
def tinyCaps : SizeCaps where
  maxHeaderSize := 16
  maxBodySize := 4
  maxHeaderSize_lt := by decide
  maxBodySize_lt := by decide

/-- A header block of eighteen bytes that arrives at once is handed on under a cap of sixteen. -/
theorem not_headerCapExact : ¬ ∀ (caps : SizeCaps) (chunks : Chunks),
    HeaderCapExact BytesMap caps chunks := by
  intro h
  have hout := (h tinyCaps
    [⟨ascii "GET / HTTP/1.1\r\n\r\n", by decide +kernel, by decide +kernel⟩]).of_lt 14
    (by decide +kernel) (by decide)
  exact absurd (congrArg ReadOutcome.handedBody? hout) (by decide +kernel)

end FalconHTTP
