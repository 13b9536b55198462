import FalconHTTP.Core.ReadGuarantees

/-!
# Reading is bounded, whatever the peer sends

`readRequest` takes its chunks from a list, so it ends because the list does. Here the same loops
are a machine that is driven by the calls of `receiveAvailable`, whose results need never end:

```
first  →  header raw  →  body raw headerEnd contentLength bodyBytesSoFar  →  done raw outcome
```

A `ReadPoint` is the place where the code waits for its next call to return, with the locals that
are live there; `afterReceive` runs from one call to the next. On a finite list the machine ends as
`readRequest` does (`outcome?_after`).

Two facts about one step carry the bounds through every run.

* `ReadPoint.InRange` is the invariant: how long the buffer is at each place, and how the offsets
  into it are related to its length.
* `ReadPoint.budget` is the number of calls that may still be made, and every call uses some of it.
  The header loop pays with the bytes of the header cap, the body loop with those of the declared
  length, which the body cap bounds; what the header loop has read of the body is not paid twice.
-/

namespace FalconHTTP

open Occurrence

/-- What the successive calls of `receiveAvailable` return; `none` is an empty string. -/
abbrev Receives := ℕ → Option (Chunk defaultReadChunk)

variable {M : Type} [FiniteMap M Bytes Bytes]

/-! ### The machine -/

/-- Where `handleConnection` waits for a call of `receiveAvailable`, with its buffer. -/
inductive ReadPoint (M : Type) [FiniteMap M Bytes Bytes]
  /-- The first call. -/
  | first
  /-- The call in the header loop. -/
  | header (raw : Bytes)
  /-- The call in the body loop. -/
  | body (raw : Bytes) (headerEnd contentLength bodyBytesSoFar : ℕ)
  /-- Reading is over: no further call is made. -/
  | done (raw : Bytes) (outcome : ReadOutcome M)

namespace ReadPoint

/-- The contents of `raw`. -/
def buffer : ReadPoint M → Bytes
  | first => []
  | header raw => raw
  | body raw _ _ _ => raw
  | done raw _ => raw

/-- How reading ended, once it did. -/
def outcome? : ReadPoint M → Option (ReadOutcome M)
  | first => none
  | header _ => none
  | body _ _ _ _ => none
  | done _ outcome => some outcome

/-- Whether the code has parsed or rejected what it read, or closed the connection. -/
def isDone (p : ReadPoint M) : Prop :=
  p.outcome?.isSome

end ReadPoint

/-- The test of the body loop, and the parse once it fails. -/
def waitBody (raw : Bytes) (headerEnd contentLength bodyBytesSoFar : ℕ) : ReadPoint M :=
  if bodyBytesSoFar < contentLength then .body raw headerEnd contentLength bodyBytesSoFar
  else
    match HttpParser.parse raw with
    | .error _ => .done raw (.rejected internalServerError)
    | .ok request => .done raw (.request request)

/-- From the end of the header block to the body loop: the scan and the check of the body cap. -/
def scanHeader (caps : SizeCaps) (raw : Bytes) (headerEnd : ℕ) : ReadPoint M :=
  match scanContentLength raw headerEnd (raw.length + 1) 0 0 with
  | none => .done raw (.rejected malformedContentLength)
  | some contentLength =>
    if contentLength > caps.maxBodySize then .done raw (.rejected bodyTooLarge)
    else
      let bodyStart := headerEnd + 4
      waitBody raw headerEnd contentLength (raw.length - bodyStart)

/-- The search for the blank line, the test of the header loop and the check of the header cap. -/
def waitHeader (caps : SizeCaps) (raw : Bytes) : ReadPoint M :=
  match indexOf? blankLine raw with
  | some headerEnd => scanHeader caps raw headerEnd
  | none =>
    if raw.length > caps.maxHeaderSize then .done raw (.rejected headerTooLarge)
    else .header raw

/-- From the return of one call of `receiveAvailable` to the next call. -/
def afterReceive (caps : SizeCaps) :
    ReadPoint M → Option (Chunk defaultReadChunk) → ReadPoint M
  | .first, none => .done [] .closed
  | .first, some first => waitHeader caps first.bytes
  | .header raw, none => .done raw .closed
  | .header raw, some more => waitHeader caps (raw ++ more.bytes)
  | .body raw _ _ _, none => .done raw .closed
  | .body raw headerEnd contentLength bodyBytesSoFar, some more =>
    waitBody (raw ++ more.bytes) headerEnd contentLength (bodyBytesSoFar + more.bytes.length)
  | .done raw outcome, _ => .done raw outcome

/-- Where the code is after a number of calls. -/
def after (caps : SizeCaps) (receives : Receives) : ℕ → ReadPoint M
  | 0 => .first
  | calls + 1 => afterReceive caps (after caps receives calls) (receives calls)

/-! ### The machine reads what `readRequest` reads -/

/-- From some point on, the code gets the chunks of a list and then an empty string. -/
def resume (caps : SizeCaps) (p : ReadPoint M) (chunks : Chunks) : ReadPoint M :=
  afterReceive caps (chunks.foldl (fun p more ↦ afterReceive caps p (some more)) p) none

@[simp] theorem resume_nil (caps : SizeCaps) (p : ReadPoint M) :
    resume caps p [] = afterReceive caps p none := rfl

@[simp] theorem resume_cons (caps : SizeCaps) (p : ReadPoint M) (more : Chunk defaultReadChunk)
    (chunks : Chunks) :
    resume caps p (more :: chunks) = resume caps (afterReceive caps p (some more)) chunks := rfl

/-- A point that is done stays as it is. -/
@[simp] theorem resume_done (caps : SizeCaps) (raw : Bytes) (outcome : ReadOutcome M)
    (chunks : Chunks) : resume caps (.done raw outcome) chunks = .done raw outcome := by
  induction chunks with
  | nil => rfl
  | cons more chunks ih => exact ih

/-- The body loop and the parse after it, as in `readBody`. -/
def finishBody (contentLength : ℕ) (raw : Bytes) (bodyBytesSoFar : ℕ) (chunks : Chunks) :
    ReadOutcome M :=
  match awaitBody contentLength raw bodyBytesSoFar chunks with
  | none => .closed
  | some (raw, _) =>
    match HttpParser.parse raw with
    | .error _ => .rejected internalServerError
    | .ok request => .request request

/-- Once the body loop is over, the machine is done with the outcome of the parse. -/
theorem outcome?_waitBody_of_le (caps : SizeCaps) (raw : Bytes) (headerEnd : ℕ)
    {contentLength bodyBytesSoFar : ℕ} (h : ¬ bodyBytesSoFar < contentLength) (chunks : Chunks) :
    (resume caps (waitBody raw headerEnd contentLength bodyBytesSoFar (M := M)) chunks).outcome? =
      some (finishBody contentLength raw bodyBytesSoFar chunks) := by
  have hawait : awaitBody contentLength raw bodyBytesSoFar chunks = some (raw, chunks) := by
    rw [awaitBody.eq_def, if_neg h]
  rw [waitBody, if_neg h, finishBody, hawait]
  rcases hparse : HttpParser.parse raw (M := M) with e | request
  · simp [hparse, ReadPoint.outcome?]
  · simp [hparse, ReadPoint.outcome?]

/-- The body loop of the machine is `awaitBody`. -/
theorem outcome?_resume_waitBody (caps : SizeCaps) (headerEnd contentLength : ℕ) (raw : Bytes)
    (bodyBytesSoFar : ℕ) (chunks : Chunks) :
    (resume caps (waitBody raw headerEnd contentLength bodyBytesSoFar (M := M)) chunks).outcome? =
      some (finishBody contentLength raw bodyBytesSoFar chunks) := by
  induction chunks generalizing raw bodyBytesSoFar with
  | nil =>
    by_cases h : bodyBytesSoFar < contentLength
    · rw [waitBody, if_pos h, finishBody, awaitBody, if_pos h]
      rfl
    · exact outcome?_waitBody_of_le caps raw headerEnd h []
  | cons more chunks ih =>
    by_cases h : bodyBytesSoFar < contentLength
    · have hstep : finishBody contentLength raw bodyBytesSoFar (more :: chunks) (M := M) =
          finishBody contentLength (raw ++ more.bytes) (bodyBytesSoFar + more.bytes.length)
            chunks := by
        rw [finishBody, awaitBody, if_pos h, finishBody]
      rw [waitBody, if_pos h, resume_cons, hstep]
      exact ih _ _
    · exact outcome?_waitBody_of_le caps raw headerEnd h _

/-- From the end of the header block on, the machine is `readBody`. -/
theorem outcome?_resume_scanHeader (caps : SizeCaps) (raw : Bytes) (headerEnd : ℕ)
    (chunks : Chunks) :
    (resume caps (scanHeader caps raw headerEnd (M := M)) chunks).outcome? =
      some (readBody caps raw headerEnd chunks).1 := by
  rw [scanHeader, readBody]
  rcases scanContentLength raw headerEnd (raw.length + 1) 0 0 with - | contentLength
  · simp [ReadPoint.outcome?]
  by_cases hbig : contentLength > caps.maxBodySize
  · simp [hbig, ReadPoint.outcome?]
  · simp only [if_neg hbig, outcome?_resume_waitBody, finishBody]
    rcases awaitBody contentLength raw (raw.length - (headerEnd + 4)) chunks with - | ⟨raw', rest⟩
    · rfl
    · rcases hparse : HttpParser.parse raw' (M := M) with e | request
      · simp [hparse]
      · simp [hparse]

/-- The header loop of the machine is `awaitHeader`. -/
theorem outcome?_resume_waitHeader (caps : SizeCaps) (raw : Bytes) (chunks : Chunks) :
    (resume caps (waitHeader caps raw (M := M)) chunks).outcome? =
      some (match awaitHeader caps.maxHeaderSize raw chunks with
        | .tooLarge _ => .rejected headerTooLarge
        | .endOfData => .closed
        | .complete raw headerEnd chunks => (readBody caps raw headerEnd chunks).1) := by
  induction chunks generalizing raw with
  | nil =>
    rw [waitHeader, awaitHeader]
    rcases indexOf? blankLine raw with - | headerEnd
    · by_cases hcap : raw.length > caps.maxHeaderSize
      · simp [hcap, afterReceive, ReadPoint.outcome?]
      · simp [hcap, afterReceive, ReadPoint.outcome?]
    · exact outcome?_resume_scanHeader caps raw headerEnd []
  | cons more chunks ih =>
    rw [waitHeader, awaitHeader]
    rcases indexOf? blankLine raw with - | headerEnd
    · by_cases hcap : raw.length > caps.maxHeaderSize
      · simp [hcap, ReadPoint.outcome?, afterReceive]
      · simp only [if_neg hcap, resume_cons]
        exact ih _
    · exact outcome?_resume_scanHeader caps raw headerEnd _

/-- After the calls that return the chunks of a list, and one that returns none. -/
theorem after_getElem? (caps : SizeCaps) (chunks : Chunks) :
    after caps (fun i ↦ chunks[i]?) (chunks.length + 1) = resume caps (.first (M := M)) chunks := by
  have htake : ∀ k ≤ chunks.length, after caps (fun i ↦ chunks[i]?) k =
      (chunks.take k).foldl (fun p more ↦ afterReceive caps p (some more)) (.first (M := M)) := by
    intro k hk
    induction k with
    | zero => rfl
    | succ k ih =>
      have hlt : k < chunks.length := hk
      rw [after, ih (Nat.le_of_lt hlt), List.take_succ_eq_append_getElem hlt, List.foldl_append,
        List.getElem?_eq_getElem hlt]
      rfl
  rw [after, htake _ (Nat.le_refl _), List.take_length, List.getElem?_eq_none (Nat.le_refl _)]
  rfl

/-- **The machine refines `readRequest`**: on the calls that return the chunks of a list, and an
empty string after them, it ends as `readRequest` does on the list. -/
theorem outcome?_after (caps : SizeCaps) (chunks : Chunks) :
    (after caps (fun i ↦ chunks[i]?) (chunks.length + 1) (M := M)).outcome? =
      some (readRequest caps chunks).1 := by
  rw [after_getElem?]
  cases chunks with
  | nil => rfl
  | cons first chunks =>
    rw [resume_cons, afterReceive, outcome?_resume_waitHeader, readRequest]
    rcases awaitHeader caps.maxHeaderSize first.bytes chunks with - | - | -
    · rfl
    · rfl
    · rfl

/-! ### The invariant and the budget -/

/-- The most the buffer may hold: both caps, and the overshoot of each loop. -/
def SizeCaps.bufferBound (caps : SizeCaps) : ℕ :=
  caps.maxHeaderSize + caps.maxBodySize + 2 * defaultReadChunk

namespace ReadPoint

/-- How long the buffer is at each place, and how the live offsets are related to its length. -/
def InRange (caps : SizeCaps) : ReadPoint M → Prop
  | first => True
  | header raw => raw.length ≤ caps.maxHeaderSize
  | body raw headerEnd contentLength bodyBytesSoFar =>
    indexOf? blankLine raw = some headerEnd ∧ headerEnd + 4 + bodyBytesSoFar = raw.length ∧
      headerEnd + 4 ≤ caps.maxHeaderSize + defaultReadChunk ∧
      bodyBytesSoFar < contentLength ∧ contentLength ≤ caps.maxBodySize
  | done raw _ => raw.length ≤ caps.bufferBound

/-- How many calls may still be made. -/
def budget (caps : SizeCaps) : ReadPoint M → ℕ
  | first => caps.maxHeaderSize + caps.maxBodySize + 1
  | header raw => caps.maxHeaderSize + 1 - raw.length + caps.maxBodySize
  | body _ _ contentLength bodyBytesSoFar => contentLength - bodyBytesSoFar
  | done _ _ => 0

theorem length_buffer_le {caps : SizeCaps} {p : ReadPoint M} (h : p.InRange caps) :
    p.buffer.length ≤ caps.bufferBound := by
  rw [SizeCaps.bufferBound]
  cases p with
  | first => exact Nat.zero_le _
  | header raw =>
    have : raw.length ≤ caps.maxHeaderSize := h
    simp only [buffer]
    omega
  | body raw headerEnd contentLength bodyBytesSoFar =>
    obtain ⟨-, hlen, hhead, hmore, hcap⟩ := h
    simp only [buffer]
    omega
  | done raw outcome => exact h

/-- With the budget spent, reading is over. -/
theorem isDone_of_budget_eq_zero {caps : SizeCaps} {p : ReadPoint M} (h : p.InRange caps)
    (hzero : p.budget caps = 0) : p.isDone := by
  cases p with
  | first => exact absurd hzero (Nat.succ_ne_zero _)
  | header raw =>
    have : raw.length ≤ caps.maxHeaderSize := h
    simp only [budget] at hzero
    omega
  | body raw headerEnd contentLength bodyBytesSoFar =>
    obtain ⟨-, -, -, hmore, -⟩ := h
    simp only [budget] at hzero
    omega
  | done raw outcome => rfl

end ReadPoint

/-- The body loop starts, and goes on, in range. -/
theorem waitBody_inRange {caps : SizeCaps} {raw : Bytes}
    {headerEnd contentLength bodyBytesSoFar : ℕ} (hfind : indexOf? blankLine raw = some headerEnd)
    (hlen : headerEnd + 4 + bodyBytesSoFar = raw.length)
    (hhead : headerEnd + 4 ≤ caps.maxHeaderSize + defaultReadChunk)
    (hcap : contentLength ≤ caps.maxBodySize) (hraw : raw.length ≤ caps.bufferBound) :
    (waitBody raw headerEnd contentLength bodyBytesSoFar (M := M)).InRange caps ∧
      (waitBody raw headerEnd contentLength bodyBytesSoFar (M := M)).budget caps ≤
        contentLength - bodyBytesSoFar := by
  rw [waitBody]
  split
  · rename_i hmore
    exact ⟨⟨hfind, hlen, hhead, hmore, hcap⟩, Nat.le_refl _⟩
  · split
    · exact ⟨hraw, Nat.zero_le _⟩
    · exact ⟨hraw, Nat.zero_le _⟩

/-- A complete header block is left in range, with a budget for the body only. -/
theorem scanHeader_inRange {caps : SizeCaps} {raw : Bytes} {headerEnd : ℕ}
    (hfind : indexOf? blankLine raw = some headerEnd)
    (hraw : raw.length ≤ caps.maxHeaderSize + defaultReadChunk) :
    (scanHeader caps raw headerEnd (M := M)).InRange caps ∧
      (scanHeader caps raw headerEnd (M := M)).budget caps ≤ caps.maxBodySize := by
  have hle : headerEnd + 4 ≤ raw.length := le_length_of_indexOf? (by decide) hfind
  have hbound : raw.length ≤ caps.bufferBound := by
    rw [SizeCaps.bufferBound]
    omega
  rw [scanHeader]
  split
  · exact ⟨hbound, Nat.zero_le _⟩
  · split
    · exact ⟨hbound, Nat.zero_le _⟩
    · rename_i hcap
      have hcap := Nat.le_of_not_gt hcap
      obtain ⟨hin, hbudget⟩ := waitBody_inRange (M := M) hfind (Nat.add_sub_cancel' hle)
        (Nat.le_trans hle hraw) hcap hbound
      exact ⟨hin, Nat.le_trans hbudget (Nat.le_trans (Nat.sub_le _ _) hcap)⟩

/-- The header loop starts, and goes on, in range, with a budget that counts what is buffered. -/
theorem waitHeader_inRange {caps : SizeCaps} {raw : Bytes}
    (hraw : raw.length ≤ caps.maxHeaderSize + defaultReadChunk) :
    (waitHeader caps raw (M := M)).InRange caps ∧
      (waitHeader caps raw (M := M)).budget caps ≤
        caps.maxHeaderSize + 1 - raw.length + caps.maxBodySize := by
  rw [waitHeader]
  split
  · rename_i headerEnd hfind
    obtain ⟨hin, hbudget⟩ := scanHeader_inRange (M := M) hfind hraw
    exact ⟨hin, by omega⟩
  · split
    · refine ⟨?_, Nat.zero_le _⟩
      show raw.length ≤ caps.bufferBound
      rw [SizeCaps.bufferBound]
      omega
    · rename_i hcap
      exact ⟨Nat.le_of_not_gt hcap, Nat.le_refl _⟩

/-- **One call** keeps the invariant and uses some of the budget. -/
theorem afterReceive_inRange {caps : SizeCaps} {p : ReadPoint M} (h : p.InRange caps)
    (received : Option (Chunk defaultReadChunk)) :
    (afterReceive caps p received).InRange caps ∧
      (afterReceive caps p received).budget caps ≤ p.budget caps - 1 := by
  have hbuffer := ReadPoint.length_buffer_le h
  cases p with
  | first =>
    cases received with
    | none => exact ⟨Nat.zero_le _, Nat.zero_le _⟩
    | some first =>
      have hpos := List.length_pos_iff.2 first.ne_nil
      have hlen : first.bytes.length ≤ caps.maxHeaderSize + defaultReadChunk :=
        Nat.le_add_left_of_le first.length_le
      obtain ⟨hin, hbudget⟩ := waitHeader_inRange (M := M) hlen
      refine ⟨hin, Nat.le_trans hbudget ?_⟩
      simp only [ReadPoint.budget]
      omega
  | header raw =>
    cases received with
    | none => exact ⟨hbuffer, Nat.zero_le _⟩
    | some more =>
      have hraw : raw.length ≤ caps.maxHeaderSize := h
      have hpos := List.length_pos_iff.2 more.ne_nil
      have hlen : (raw ++ more.bytes).length ≤ caps.maxHeaderSize + defaultReadChunk := by
        rw [List.length_append]
        exact Nat.add_le_add hraw more.length_le
      obtain ⟨hin, hbudget⟩ := waitHeader_inRange (M := M) hlen
      refine ⟨hin, Nat.le_trans hbudget ?_⟩
      simp only [ReadPoint.budget, List.length_append]
      omega
  | body raw headerEnd contentLength bodyBytesSoFar =>
    cases received with
    | none => exact ⟨hbuffer, Nat.zero_le _⟩
    | some more =>
      obtain ⟨hfind, hend, hhead, hlt, hcap⟩ := h
      have hmore := more.length_le
      have hpos := List.length_pos_iff.2 more.ne_nil
      have hlen : headerEnd + 4 + (bodyBytesSoFar + more.bytes.length) =
          (raw ++ more.bytes).length := by
        rw [List.length_append]
        omega
      have hbound : (raw ++ more.bytes).length ≤ caps.bufferBound := by
        rw [← hlen, SizeCaps.bufferBound]
        omega
      obtain ⟨hin, hbudget⟩ := waitBody_inRange (M := M)
        (indexOf?_append_of_eq_some (by decide) hfind) hlen hhead hcap hbound
      refine ⟨hin, Nat.le_trans hbudget ?_⟩
      simp only [ReadPoint.budget]
      omega
  | done raw outcome => exact ⟨h, Nat.zero_le _⟩

/-- **Every run**: the invariant holds throughout, and each call has used some of the budget. -/
theorem after_inRange (caps : SizeCaps) (receives : Receives) (calls : ℕ) :
    (after caps receives calls (M := M)).InRange caps ∧
      (after caps receives calls (M := M)).budget caps ≤
        caps.maxHeaderSize + caps.maxBodySize + 1 - calls := by
  induction calls with
  | zero => exact ⟨trivial, Nat.le_refl _⟩
  | succ calls ih =>
    obtain ⟨hin, hbudget⟩ := ih
    obtain ⟨hin', hbudget'⟩ := afterReceive_inRange hin (receives calls)
    rw [after]
    exact ⟨hin', by omega⟩

/-! ### The offsets -/

/-- The lines that the scan for a `Content-Length` looks at: where each starts and ends. -/
def scanLines (raw : Bytes) (headerEnd : ℕ) : ℕ → ℕ → List (ℕ × ℕ)
  | 0, _ => []
  | fuel + 1, lineStart =>
    match indexFrom? crlf raw lineStart with
    | none => []
    | some lineEnd =>
      if lineEnd > headerEnd then []
      else (lineStart, lineEnd) :: scanLines raw headerEnd fuel (lineEnd + 2)

/-- The scan is `scanLine` folded over these lines. -/
theorem scanContentLength_eq_foldlM (raw : Bytes) (headerEnd fuel lineStart contentLength : ℕ) :
    scanContentLength raw headerEnd fuel lineStart contentLength =
      (scanLines raw headerEnd fuel lineStart).foldlM
        (fun n line ↦ scanLine ((raw.drop line.1).take (line.2 - line.1)) n) contentLength := by
  induction fuel generalizing lineStart contentLength with
  | zero => rfl
  | succ fuel ih =>
    rw [scanContentLength, scanLines]
    rcases indexFrom? crlf raw lineStart with - | lineEnd
    · rfl
    · by_cases hend : lineEnd > headerEnd
      · simp [hend]
      · simp only [if_neg hend, List.foldlM_cons, ih]
        rcases scanLine ((raw.drop lineStart).take (lineEnd - lineStart)) contentLength with - | n
        · rfl
        · rfl

/-- A scanned line lies in the buffer together with the two bytes that end it. -/
theorem scanLines_in_buffer {raw : Bytes} {headerEnd fuel pos : ℕ} {line : ℕ × ℕ}
    (h : line ∈ scanLines raw headerEnd fuel pos) : line.1 ≤ line.2 ∧ line.2 + 2 ≤ raw.length := by
  induction fuel generalizing pos with
  | zero => exact absurd h List.not_mem_nil
  | succ fuel ih =>
    rw [scanLines] at h
    split at h
    · exact absurd h List.not_mem_nil
    · rename_i lineEnd hfind
      split at h
      · exact absurd h List.not_mem_nil
      · rcases List.mem_cons.1 h with rfl | h'
        · obtain ⟨i, hi, rfl⟩ := Option.map_eq_some_iff.1 hfind
          have hle : i + 2 ≤ (raw.drop pos).length := le_length_of_indexOf? (by decide) hi
          rw [List.length_drop] at hle
          exact ⟨Nat.le_add_left _ _, by simp only; omega⟩
        · exact ih h'

/-- Every offset that the code computes into the buffer at some point lies in the buffer, and the
buffer's length is a `size_t`, so that no addition wraps and no subtraction is below zero. -/
structure OffsetsInRange (p : ReadPoint M) : Prop where
  /-- The length of the buffer is a `size_t`. -/
  size_lt : p.buffer.length < sizeRange
  /-- `headerEnd + 4` is at most `raw.size()`: the body starts in the buffer. -/
  bodyStart_le : ∀ headerEnd, indexOf? blankLine p.buffer = some headerEnd →
    headerEnd + 4 ≤ p.buffer.length
  /-- However far the scan goes, its lines and its next `headerSearchPos` are in the buffer. -/
  lines_le : ∀ headerEnd fuel, ∀ line ∈ scanLines p.buffer headerEnd fuel 0,
    line.1 ≤ line.2 ∧ line.2 + 2 ≤ p.buffer.length
  /-- In the body loop `bodyBytesSoFar` is what is buffered past `bodyStart`. -/
  bodyBytes_eq : ∀ raw headerEnd contentLength bodyBytesSoFar,
    p = .body raw headerEnd contentLength bodyBytesSoFar →
      indexOf? blankLine raw = some headerEnd ∧ headerEnd + 4 + bodyBytesSoFar = raw.length

theorem ReadPoint.InRange.offsetsInRange {caps : SizeCaps} {p : ReadPoint M} (h : p.InRange caps)
    (hfits : caps.bufferBound < sizeRange) : OffsetsInRange p where
  size_lt := Nat.lt_of_le_of_lt (length_buffer_le h) hfits
  bodyStart_le _ hfind := le_length_of_indexOf? (by decide) hfind
  lines_le _ _ _ hline := scanLines_in_buffer hline
  bodyBytes_eq := by
    rintro raw headerEnd contentLength bodyBytesSoFar rfl
    exact ⟨h.1, h.2.1⟩

/-- **Reading is bounded**, whatever `receiveAvailable` returns and for however long: it is over
after `maxHeaderSize + maxBodySize + 1` calls, the buffer stays below both caps and two chunks, and
no offset leaves it. -/
theorem reading_bounded (caps : SizeCaps) (receives : Receives) :
    (after caps receives (caps.maxHeaderSize + caps.maxBodySize + 1) (M := M)).isDone ∧
    (∀ calls, (after caps receives calls (M := M)).buffer.length ≤
      caps.maxHeaderSize + caps.maxBodySize + 2 * defaultReadChunk) ∧
    (caps.maxHeaderSize + caps.maxBodySize + 2 * defaultReadChunk < sizeRange →
      ∀ calls, OffsetsInRange (after caps receives calls (M := M))) := by
  refine ⟨?_, fun calls ↦ ?_, fun hfits calls ↦ ?_⟩
  · obtain ⟨hin, hbudget⟩ := after_inRange (M := M) caps receives
      (caps.maxHeaderSize + caps.maxBodySize + 1)
    rw [Nat.sub_self] at hbudget
    exact ReadPoint.isDone_of_budget_eq_zero hin (Nat.le_zero.1 hbudget)
  · exact ReadPoint.length_buffer_le (after_inRange caps receives calls).1
  · exact (after_inRange caps receives calls).1.offsetsInRange hfits

end FalconHTTP
