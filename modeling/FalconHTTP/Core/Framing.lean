import FalconHTTP.Core.ReadRequest

/-!
# Framing: what the read loops make of a stream

The loops of `readRequest` look at whatever is buffered at the moment. This module says what they
make of the whole stream. By `Lines.exists_head_of_indexOf?` a stream either has no blank line, or
is a head followed by a body; the head alone decides the declared length and the parse.

* `scanContentLength_encode`: the scan folds `scanLine` over the lines of the head, whatever follows
  the head;
* `awaitHeader_of_head`, `awaitHeader_of_no_blankLine`: where the header wait ends, for every
  cutting into chunks, and how many bytes of the body it has picked up by then;
* `awaitBody_of_le`, `awaitBody_of_lt`: where the body wait ends.

`requestSpec` is the segmentation-free statement of what a server does with a head and a body.
`readRequest_of_head` is the refinement: unless the buffer outgrows the header cap before the head
is complete (`OutgrowsCap`), reading ends as `requestSpec` says, up to bytes past the declared body
that arrived with the last chunk (`EndsAs`).
-/

namespace FalconHTTP

open Occurrence Lines

/-! ### The scan -/

/-- The length a head declares: `0` without a `Content-Length` line, the last one otherwise; `none`
when one is malformed. -/
def declaredLength (head : MessageHead) : Option ℕ :=
  (head.first :: head.rest).foldlM (fun n line ↦ scanLine line n) 0

/-- From the start of a line on, the scan folds over the lines that are left. -/
private theorem scanContentLength_joinLines (lines : List Bytes)
    (hclean : ∀ l ∈ lines, Clean 13 10 l) (body before : Bytes) (headerEnd : ℕ)
    (hend : headerEnd + 2 = before.length + (joinLines 13 10 lines).length) (fuel : ℕ)
    (hfuel : lines.length < fuel) (n : ℕ) :
    scanContentLength (before ++ (joinLines 13 10 lines ++ (13 :: 10 :: body))) headerEnd fuel
      before.length n = lines.foldlM (fun n line ↦ scanLine line n) n := by
  induction lines generalizing before fuel n with
  | nil =>
    obtain ⟨fuel, rfl⟩ := Nat.exists_eq_succ_of_ne_zero (Nat.ne_of_gt hfuel)
    -- the blank line starts past `headerEnd`: the loop breaks
    have hnext : indexOf? crlf (joinLines 13 10 [] ++ (13 :: 10 :: body)) = some 0 :=
      (clean_of_notMem (l := []) List.not_mem_nil).indexOf?_append
    rw [scanContentLength, indexFrom?, List.drop_left, hnext]
    have hlt : 0 + before.length > headerEnd := by
      simp only [joinLines, List.length_nil] at hend
      omega
    exact if_pos hlt
  | cons line lines ih =>
    obtain ⟨fuel, rfl⟩ := Nat.exists_eq_succ_of_ne_zero (Nat.ne_of_gt (Nat.zero_lt_of_lt hfuel))
    have hline : indexOf? crlf (joinLines 13 10 (line :: lines) ++ (13 :: 10 :: body)) =
        some line.length := by
      rw [joinLines, List.append_assoc]
      exact (hclean line List.mem_cons_self).indexOf?_append
    have hle : ¬ line.length + before.length > headerEnd := by
      simp only [joinLines, List.length_append, List.length_cons] at hend
      omega
    rw [scanContentLength, indexFrom?, List.drop_left, hline, List.foldlM_cons]
    simp only [Option.map_some, if_neg hle]
    have hsub : (joinLines 13 10 (line :: lines) ++ (13 :: 10 :: body)).take
        (line.length + before.length - before.length) = line := by
      rw [Nat.add_sub_cancel, joinLines, List.append_assoc, List.take_left]
    rw [hsub]
    rcases scanLine line n with - | n'
    · rfl
    · have hpos : (before ++ (line ++ [13, 10])).length = line.length + before.length + 2 := by
        simp only [List.length_append, List.length_cons, List.length_nil]
        omega
      have hend' : headerEnd + 2 = (before ++ (line ++ [13, 10])).length +
          (joinLines 13 10 lines).length := by
        rw [hpos, hend]
        simp only [joinLines, List.length_append, List.length_cons]
        omega
      have hih := ih (fun l hl ↦ hclean l (List.mem_cons_of_mem _ hl)) _ hend' fuel
        (Nat.lt_of_succ_lt_succ hfuel) n'
      rw [hpos] at hih
      simpa [joinLines] using hih

/-- There are at most as many lines in a head as bytes. -/
private theorem length_rest_lt (head : MessageHead) (body : Bytes) :
    (head.first :: head.rest).length < (head.encode ++ body).length + 1 := by
  have hlines : ∀ lines : List Bytes, lines.length ≤ (joinLines (13 : UInt8) 10 lines).length := by
    intro lines
    induction lines with
    | nil => exact Nat.le_refl _
    | cons line lines ih =>
      simp only [joinLines, List.length_cons, List.length_append]
      omega
  have := hlines head.rest
  simp only [Head.encode, List.length_append, List.length_cons, List.length_nil]
  omega

/-- **The scan reads the head**, whatever follows it. -/
theorem scanContentLength_encode (head : MessageHead) (body : Bytes) :
    scanContentLength (head.encode ++ body) (head.encode.length - 4)
      ((head.encode ++ body).length + 1) 0 0 = declaredLength head := by
  have hfour := head.four_le_length_encode
  have h := scanContentLength_joinLines (head.first :: head.rest)
    (List.forall_mem_cons.2 ⟨head.first_clean, head.rest_clean⟩) body [] (head.encode.length - 4)
    (by simp only [Head.encode, joinLines, List.length_append, List.length_cons, List.length_nil]
        omega)
    _ (length_rest_lt head body) 0
  have hraw : head.encode ++ body =
      [] ++ (joinLines 13 10 (head.first :: head.rest) ++ (13 :: 10 :: body)) := by
    simp [Head.encode, joinLines]
  rw [hraw] at h ⊢
  exact h

/-! ### The header wait -/

/-- Some prefix of the chunks brings the buffer above the cap before the head is complete. -/
def OutgrowsCap (cap headLength : ℕ) (raw : Bytes) (chunks : Chunks) : Prop :=
  ∃ taken : Chunks, taken <+: chunks ∧ cap < (raw ++ taken.stream).length ∧
    (raw ++ taken.stream).length < headLength

theorem outgrowsCap_cons {cap headLength : ℕ} {raw : Bytes} {more : Chunk defaultReadChunk}
    {chunks : Chunks} (hle : raw.length ≤ cap) :
    OutgrowsCap cap headLength raw (more :: chunks) ↔
      OutgrowsCap cap headLength (raw ++ more.bytes) chunks := by
  constructor
  · rintro ⟨taken, hpre, hcap, hlen⟩
    cases taken with
    | nil => rw [Chunks.stream_nil, List.append_nil] at hcap; omega
    | cons c taken =>
      obtain ⟨rfl, hpre'⟩ := List.cons_prefix_cons.1 hpre
      exact ⟨taken, hpre', by simpa using hcap, by simpa using hlen⟩
  · rintro ⟨taken, hpre, hcap, hlen⟩
    exact ⟨more :: taken, List.cons_prefix_cons.2 ⟨rfl, hpre⟩, by simpa using hcap,
      by simpa using hlen⟩

/-- **Where the header wait ends on a stream with a head.** Unless the buffer outgrows the cap
first, the wait ends with the head complete, and with less than one chunk of the body. -/
theorem awaitHeader_of_head {cap : ℕ} {head : MessageHead} {body raw : Bytes} {chunks : Chunks}
    (h : raw ++ chunks.stream = head.encode ++ body)
    (hraw : raw.length < head.encode.length + defaultReadChunk) :
    (¬ OutgrowsCap cap head.encode.length raw chunks ∧
      ∃ body₁ chunks', awaitHeader cap raw chunks =
          .complete (head.encode ++ body₁) (head.encode.length - 4) chunks' ∧
        body = body₁ ++ Chunks.stream chunks' ∧ body₁.length < defaultReadChunk) ∨
    (OutgrowsCap cap head.encode.length raw chunks ∧
      ∃ chunks', awaitHeader cap raw chunks = .tooLarge chunks') := by
  induction chunks generalizing raw with
  | nil =>
    obtain ⟨body₁, rfl, hbody, hfind⟩ | ⟨hlt, -⟩ := indexOf?_blankLine_prefix h
    · refine Or.inl ⟨?_, body₁, [], ?_, hbody, by simpa using hraw⟩
      · rintro ⟨taken, hpre, -, hlen⟩
        simp only [List.length_append] at hlen
        omega
      · rw [awaitHeader, hfind]
    · have := congrArg List.length h
      simp only [Chunks.stream_nil, List.append_nil, List.length_append] at this
      omega
  | cons more chunks ih =>
    obtain ⟨body₁, rfl, hbody, hfind⟩ | ⟨hlt, hfind⟩ := indexOf?_blankLine_prefix h
    · refine Or.inl ⟨?_, body₁, more :: chunks, ?_, hbody, by simpa using hraw⟩
      · rintro ⟨taken, hpre, -, hlen⟩
        simp only [List.length_append] at hlen
        omega
      · rw [awaitHeader, hfind]
    · by_cases hcap : raw.length > cap
      · refine Or.inr ⟨⟨[], List.nil_prefix, ?_, ?_⟩, more :: chunks, ?_⟩
        · simpa using hcap
        · simpa using hlt
        · rw [awaitHeader, hfind]
          exact if_pos hcap
      · have hstep : awaitHeader cap raw (more :: chunks) =
            awaitHeader cap (raw ++ more.bytes) chunks := by
          rw [awaitHeader, hfind]
          exact if_neg hcap
        have hmore := more.length_le
        rw [hstep, outgrowsCap_cons (Nat.le_of_not_gt hcap)]
        exact ih (by simpa using h) (by rw [List.length_append]; omega)

/-- **Where the header wait ends on a stream without a blank line.** -/
theorem awaitHeader_of_no_blankLine (cap : ℕ) {raw : Bytes} {chunks : Chunks}
    (h : indexOf? blankLine (raw ++ chunks.stream) = none) :
    if cap < (raw ++ chunks.stream).length then
      ∃ chunks', awaitHeader cap raw chunks = .tooLarge chunks'
    else awaitHeader cap raw chunks = .endOfData := by
  have hfind := indexOf?_eq_none_of_append (by decide) h
  induction chunks generalizing raw with
  | nil =>
    rw [Chunks.stream_nil, List.append_nil]
    split
    · rename_i hcap
      refine ⟨[], ?_⟩
      rw [awaitHeader, hfind]
      exact if_pos hcap
    · rename_i hcap
      rw [awaitHeader, hfind]
      exact if_neg hcap
  | cons more chunks ih =>
    by_cases hcap : raw.length > cap
    · rw [if_pos (by rw [List.length_append]; omega)]
      refine ⟨more :: chunks, ?_⟩
      rw [awaitHeader, hfind]
      exact if_pos hcap
    · have hstep : awaitHeader cap raw (more :: chunks) =
          awaitHeader cap (raw ++ more.bytes) chunks := by
        rw [awaitHeader, hfind]
        exact if_neg hcap
      have hassoc : raw ++ Chunks.stream (more :: chunks) =
          raw ++ more.bytes ++ Chunks.stream chunks := by
        simp
      rw [hassoc] at h ⊢
      rw [hstep]
      exact ih h (indexOf?_eq_none_of_append (by decide) h)

/-! ### The body wait -/

/-- The body wait fails exactly when the data ends before the declared length. -/
theorem awaitBody_of_lt {n soFar : ℕ} (raw : Bytes) {chunks : Chunks}
    (h : soFar + chunks.stream.length < n) : awaitBody n raw soFar chunks = none := by
  induction chunks generalizing raw soFar with
  | nil =>
    rw [awaitBody]
    exact if_pos (by simpa using h)
  | cons more chunks ih =>
    rw [Chunks.stream_cons, List.length_append] at h
    rw [awaitBody, if_pos (by omega)]
    exact ih _ (by omega)

/-- **Where the body wait ends**: with the declared length buffered, and less than one chunk more
than was needed. -/
theorem awaitBody_of_le {n soFar : ℕ} (raw : Bytes) {chunks : Chunks}
    (h : n ≤ soFar + chunks.stream.length) :
    ∃ more chunks', awaitBody n raw soFar chunks = some (raw ++ more, chunks') ∧
      chunks.stream = more ++ Chunks.stream chunks' ∧ n ≤ soFar + more.length ∧
      (more = [] ∨ soFar + more.length < n + defaultReadChunk) := by
  induction chunks generalizing raw soFar with
  | nil =>
    refine ⟨[], [], ?_, rfl, h, Or.inl rfl⟩
    rw [awaitBody, if_neg (by simpa using h), List.append_nil]
  | cons c chunks ih =>
    by_cases hlt : soFar < n
    · rw [Chunks.stream_cons, List.length_append, ← Nat.add_assoc] at h
      obtain ⟨more, chunks', hres, hstream, hle, hmore⟩ := ih (raw ++ c.bytes) h
      have hc := c.length_le
      refine ⟨c.bytes ++ more, chunks', ?_, ?_, ?_, Or.inr ?_⟩
      · rw [awaitBody, if_pos hlt, hres, List.append_assoc]
      · rw [Chunks.stream_cons, hstream, List.append_assoc]
      · rw [List.length_append]
        omega
      · rw [List.length_append]
        rcases hmore with rfl | hmore
        · rw [List.length_nil]
          omega
        · omega
    · refine ⟨[], c :: chunks, ?_, rfl, by simpa using hlt, Or.inl rfl⟩
      rw [awaitBody, if_neg hlt, List.append_nil]

/-! ### The refinement -/

variable {M : Type} [FiniteMap M Bytes Bytes]

/-- What a server does with a head and the bytes after it, in terms of the whole stream. -/
def requestSpec (caps : SizeCaps) (head : MessageHead) (body : Bytes) : ReadOutcome M :=
  match declaredLength head with
  | none => .rejected malformedContentLength
  | some n =>
    if n > caps.maxBodySize then .rejected bodyTooLarge
    else if body.length < n then .closed
    else
      match HttpParser.parseHead head with
      | .error _ => .rejected internalServerError
      | .ok request => .request { request with body := body.take n }

/-- The outcome is the one specified, except that a handed body may go on past the specified one
with bytes of the stream, less than one chunk of them. -/
def EndsAs (body : Bytes) (spec outcome : ReadOutcome M) : Prop :=
  match spec with
  | .request request =>
    ∃ handed, outcome = .request { request with body := handed } ∧ request.body <+: handed ∧
      handed <+: body ∧ handed.length < request.body.length + defaultReadChunk
  | spec => outcome = spec

/-- **From a complete head on**, reading ends as specified, wherever the chunks are cut. -/
theorem readBody_of_head (caps : SizeCaps) (head : MessageHead) (body₁ : Bytes) (chunks : Chunks)
    (hlen : body₁.length < defaultReadChunk) :
    EndsAs (body₁ ++ chunks.stream) (requestSpec caps head (body₁ ++ chunks.stream))
      (readBody caps (head.encode ++ body₁) (head.encode.length - 4) chunks (M := M)).1 := by
  have hfour := head.four_le_length_encode
  have hsofar : (head.encode ++ body₁).length - (head.encode.length - 4 + 4) = body₁.length := by
    rw [List.length_append]
    omega
  rw [readBody, scanContentLength_encode, requestSpec]
  rcases declaredLength head with - | n
  · exact rfl
  by_cases hbig : n > caps.maxBodySize
  · simp only [if_pos hbig]
    exact rfl
  simp only [if_neg hbig, hsofar]
  by_cases hshort : (body₁ ++ chunks.stream).length < n
  · rw [awaitBody_of_lt _ (by simpa using hshort), if_pos hshort]
    exact rfl
  · obtain ⟨rest, chunks', hres, hstream, hle, hrest⟩ :=
      awaitBody_of_le (head.encode ++ body₁)
        (show n ≤ body₁.length + chunks.stream.length by simpa using hshort)
    rw [hres, if_neg hshort]
    simp only [List.append_assoc, HttpParser.parse_encode]
    rcases HttpParser.parseHead head (M := M) with e | request
    · exact rfl
    · rw [← List.length_append] at hle
      have htake : (body₁ ++ chunks.stream).take n = (body₁ ++ rest).take n := by
        rw [hstream, ← List.append_assoc, List.take_append_of_le_length hle]
      refine ⟨body₁ ++ rest, rfl, ?_, ?_, ?_⟩
      · rw [htake]
        exact List.take_prefix _ _
      · rw [hstream, ← List.append_assoc]
        exact List.prefix_append _ _
      · show _ < ((body₁ ++ chunks.stream).take n).length + _
        rw [htake, List.length_take, Nat.min_eq_left hle, List.length_append]
        rcases hrest with rfl | hlt
        · rw [List.length_nil]
          omega
        · exact hlt

/-- **The refinement**: on a stream with a head, either the buffer outgrows the header cap before
the head is complete, and a 431 is sent, or reading ends as specified. -/
theorem readRequest_of_head {caps : SizeCaps} {head : MessageHead} {body : Bytes} {chunks : Chunks}
    (h : chunks.stream = head.encode ++ body) :
    (¬ OutgrowsCap caps.maxHeaderSize head.encode.length [] chunks ∧
      EndsAs body (requestSpec caps head body) (readRequest caps chunks (M := M)).1) ∨
    (OutgrowsCap caps.maxHeaderSize head.encode.length [] chunks ∧
      (readRequest caps chunks (M := M)).1 = .rejected headerTooLarge) := by
  have hfour := head.four_le_length_encode
  cases chunks with
  | nil =>
    have := congrArg List.length h
    rw [Chunks.stream_nil, List.length_append, List.length_nil] at this
    omega
  | cons first chunks =>
    have hfirst := first.length_le
    rw [outgrowsCap_cons (Nat.zero_le _), List.nil_append, readRequest]
    rcases awaitHeader_of_head h (by omega) with
      ⟨hfits, body₁, chunks', hwait, hbody, hlen⟩ | ⟨hgrows, chunks', hwait⟩
    · rw [hwait, hbody]
      exact Or.inl ⟨hfits, readBody_of_head caps head body₁ chunks' hlen⟩
    · rw [hwait]
      exact Or.inr ⟨hgrows, rfl⟩

/-- **The refinement, without a head**: a 431 when the stream is longer than the cap, otherwise the
connection is closed. -/
theorem readRequest_of_no_blankLine {caps : SizeCaps} {chunks : Chunks}
    (h : indexOf? blankLine chunks.stream = none) :
    (readRequest caps chunks (M := M)).1 =
      if caps.maxHeaderSize < chunks.stream.length then .rejected headerTooLarge else .closed := by
  cases chunks with
  | nil => exact (if_neg (Nat.not_lt_zero _)).symm
  | cons first chunks =>
    rw [Chunks.stream_cons] at h
    have hwait := awaitHeader_of_no_blankLine caps.maxHeaderSize h
    rw [readRequest]
    show _ = if caps.maxHeaderSize < (first.bytes ++ Chunks.stream chunks).length then _ else _
    split at hwait
    · rename_i hcap
      obtain ⟨chunks', hwait⟩ := hwait
      rw [hwait, if_pos hcap]
    · rename_i hcap
      rw [hwait, if_neg hcap]

end FalconHTTP
