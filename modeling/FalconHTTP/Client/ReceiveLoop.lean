import FalconHTTP.Client.HttpClient

/-!
# What the client makes of a response stream

The client's counterpart of the framing of requests: on a stream that is a head followed by a body
and that fits the size limit, the receive loop ends as `responseSpec` says, wherever the chunks are
cut (`receiveLoop_of_head`).

The loop has two phases. Before the head is complete nothing but the buffer changes
(`receiveLoop_of_received`); when it is, it is parsed once, and the rest of the run only waits for
the declared length (`receiveLoop_of_length`) or for the end of the data (`receiveLoop_of_eof`).
-/

namespace FalconHTTP

namespace HttpClient

open Occurrence Lines FiniteMap

variable {M : Type} [FiniteMap M Bytes Bytes]

/-! ### Parsing a head -/

/-- A status line and header lines, folded over a response. -/
def foldHead (head : MessageHead) (out : ClientResponse M) : Option (ClientResponse M) :=
  (parseStatusLine head.first out).bind fun out ↦
    head.rest.foldlM (fun out line ↦ parseHeadLine line out) out

/-- The header loop folds over lines that terminators separate. -/
private theorem parseHeadLines_separated (line : Bytes) (lines : List Bytes)
    (hclean : ∀ l ∈ line :: lines, Clean 13 10 l) (hne : ∀ l ∈ line :: lines, l ≠ []) (fuel : ℕ)
    (hfuel : lines.length < fuel) (out : ClientResponse M) :
    parseHeadLines fuel (line ++ lines.flatMap fun l ↦ 13 :: 10 :: l) out =
      (line :: lines).foldlM (fun out line ↦ parseHeadLine line out) out := by
  induction lines generalizing line fuel out with
  | nil =>
    obtain ⟨fuel, rfl⟩ := Nat.exists_eq_succ_of_ne_zero (Nat.ne_of_gt hfuel)
    rw [List.flatMap_nil, List.append_nil, parseHeadLines, if_neg (hne line List.mem_cons_self),
      crlf, (hclean line List.mem_cons_self).indexOf?_eq_none, List.foldlM_cons]
    exact (Option.bind_fun_some _).symm
  | cons line' lines ih =>
    obtain ⟨fuel, rfl⟩ := Nat.exists_eq_succ_of_ne_zero (Nat.ne_of_gt (Nat.zero_lt_of_lt hfuel))
    have hline := hclean line List.mem_cons_self
    have hnonempty : line ++ (line' :: lines).flatMap (fun l ↦ 13 :: 10 :: l) ≠ [] := by
      simp [hne line List.mem_cons_self]
    have hrest := ih line' (fun l hl ↦ hclean l (List.mem_cons_of_mem _ hl))
      (fun l hl ↦ hne l (List.mem_cons_of_mem _ hl)) fuel (Nat.lt_of_succ_lt_succ hfuel)
    rw [parseHeadLines, if_neg hnonempty, List.flatMap_cons, List.cons_append, List.cons_append,
      crlf, hline.indexOf?_append, List.foldlM_cons]
    simp only [List.take_left, ← List.drop_drop, List.drop_left, List.drop_succ_cons,
      List.drop_zero]
    rcases parseHeadLine line out with - | out
    · rfl
    · exact hrest out

/-- There are at most as many lines as bytes. -/
private theorem length_le_length_separated (lines : List Bytes) :
    lines.length ≤ (lines.flatMap fun l ↦ (13 : UInt8) :: 10 :: l).length := by
  induction lines with
  | nil => exact Nat.le_refl _
  | cons l lines ih =>
    simp only [List.flatMap_cons, List.length_append, List.length_cons]
    omega

/-- **The client parses a head** line by line. -/
theorem parseHead_text (head : MessageHead) (out : ClientResponse M) :
    parseHead head.text out = foldHead head out := by
  obtain ⟨first, rest, hfirst, hrest, hne⟩ := head
  rw [parseHead, foldHead]
  cases rest with
  | nil =>
    have htext : Head.text ⟨first, [], hfirst, hrest, hne⟩ = first := List.append_nil first
    rw [htext, crlf, hfirst.indexOf?_eq_none]
    exact (Option.bind_fun_some _).symm
  | cons line lines =>
    have htext : Head.text ⟨first, line :: lines, hfirst, hrest, hne⟩ =
        first ++ (13 :: 10 :: (line ++ lines.flatMap fun l ↦ 13 :: 10 :: l)) := rfl
    have hlen : lines.length < (line ++ lines.flatMap fun l ↦ (13 : UInt8) :: 10 :: l).length := by
      have hline := List.length_pos_iff.2 (hne line List.mem_cons_self)
      have hlines := length_le_length_separated lines
      rw [List.length_append]
      omega
    rw [htext, crlf, hfirst.indexOf?_append]
    simp only [List.take_left, ← List.drop_drop, List.drop_left, List.drop_succ_cons,
      List.drop_zero]
    rcases parseStatusLine first out with - | out
    · rfl
    · exact parseHeadLines_separated line lines hrest hne _ hlen out

/-! ### One receive -/

namespace Receiving

section Append

variable {maxResponseSize : ℕ} {r : Receiving M} {got : Bytes}

/-- A receive past the limit gives the response up. -/
theorem append_of_lt (hbig : maxResponseSize < (r.received ++ got).length) :
    r.append maxResponseSize got = none := by
  rw [append]
  exact if_pos hbig

/-- After the head, a receive only fills the buffer. -/
theorem append_of_headEnd (hfits : (r.received ++ got).length ≤ maxResponseSize)
    {headEnd : ℕ} (hend : r.headEnd = some headEnd) :
    r.append maxResponseSize got = some { r with received := r.received ++ got } := by
  rw [append]
  simp only [if_neg (Nat.not_lt.2 hfits), hend]

/-- Before the head, a receive fills the buffer and looks for the blank line. -/
theorem append_of_searching (hfits : (r.received ++ got).length ≤ maxResponseSize)
    (hend : r.headEnd = none) :
    r.append maxResponseSize got =
      match indexOf? blankLine (r.received ++ got) with
      | none => some { r with received := r.received ++ got }
      | some blank =>
        Receiving.readHead { r with received := r.received ++ got } maxResponseSize blank := by
  rcases r with ⟨response, received, headEnd, expectedBody, hasLength⟩
  obtain rfl : headEnd = none := hend
  exact if_neg (Nat.not_lt.2 hfits)

end Append

end Receiving

/-! ### The loop after the head -/

namespace Receiving

/-- The state in which the head has arrived and `body₁` after it. -/
def afterHead (response : ClientResponse M) (head body₁ : Bytes) (length? : Option ℕ) :
    Receiving M where
  response := response
  received := head ++ body₁
  headEnd := some head.length
  expectedBody := length?.getD 0
  hasLength := length?.isSome

variable {response : ClientResponse M} {head body₁ got : Bytes} {length? : Option ℕ}

/-- After the head, a receive only appends to the body. -/
theorem append_afterHead {maxResponseSize : ℕ}
    (hmax : (head ++ body₁ ++ got).length ≤ maxResponseSize) :
    (afterHead response head body₁ length?).append maxResponseSize got =
      some (afterHead response head (body₁ ++ got) length?) := by
  rw [append_of_headEnd hmax rfl, afterHead, afterHead, ← List.append_assoc]

theorem complete?_afterHead_some {n : ℕ} :
    (afterHead response head body₁ (some n)).complete? =
      if n ≤ body₁.length then some head.length else none := by
  simp [complete?, afterHead]

theorem complete?_afterHead_none : (afterHead response head body₁ none).complete? = none := by
  simp [complete?, afterHead]

theorem finish_afterHead :
    (afterHead response head body₁ length?).finish head.length =
      { response with body := match length? with
        | none => body₁
        | some n => body₁.take n } := by
  cases length? <;> simp [finish, afterHead]

end Receiving

open Receiving

variable {maxResponseSize : ℕ} {ending : StreamEnd}

/-- The loop ends when the declared length has arrived. -/
private theorem receiveLoop_of_le (response : ClientResponse M) (head body₁ : Bytes) {n : ℕ}
    (hle : n ≤ body₁.length) (chunks : Chunks) :
    receiveLoop maxResponseSize ending chunks (afterHead response head body₁ (some n)) =
      some { response with body := (body₁ ++ chunks.stream).take n } := by
  rw [receiveLoop_of_complete (complete?_afterHead_some.trans (if_pos hle)),
    List.take_append_of_le_length hle]
  exact congrArg some finish_afterHead

/-- With a declared length the loop waits for it. -/
theorem receiveLoop_of_length (response : ClientResponse M) (head body₁ : Bytes) (n : ℕ)
    (chunks : Chunks) (hmax : (head ++ body₁ ++ chunks.stream).length ≤ maxResponseSize) :
    receiveLoop maxResponseSize ending chunks (afterHead response head body₁ (some n)) =
      if (body₁ ++ chunks.stream).length < n then none
      else some { response with body := (body₁ ++ chunks.stream).take n } := by
  induction chunks generalizing body₁ with
  | nil =>
    rcases Nat.lt_or_ge body₁.length n with hlt | hle
    · have hcomplete : (afterHead response head body₁ (some n)).complete? = none :=
        complete?_afterHead_some.trans (if_neg (Nat.not_le.2 hlt))
      rw [receiveLoop_nil hcomplete, Chunks.stream_nil, List.append_nil, if_pos hlt]
      cases ending with
      | error => rfl
      | eof => exact if_pos (by simpa [afterHead] using hlt)
    · rw [receiveLoop_of_le response head body₁ hle]
      exact (if_neg (Nat.not_lt.2 (by simpa using hle))).symm
  | cons chunk chunks ih =>
    rcases Nat.lt_or_ge body₁.length n with hlt | hle
    · have hcomplete : (afterHead response head body₁ (some n)).complete? = none :=
        complete?_afterHead_some.trans (if_neg (Nat.not_le.2 hlt))
      rw [Chunks.stream_cons, ← List.append_assoc] at hmax
      have hprefix : (head ++ body₁ ++ chunk.bytes).length ≤ maxResponseSize :=
        (List.prefix_append _ _).length_le.trans hmax
      rw [receiveLoop_cons hcomplete (append_afterHead hprefix), Chunks.stream_cons,
        ← List.append_assoc]
      exact ih (body₁ ++ chunk.bytes) (by simpa using hmax)
    · rw [receiveLoop_of_le response head body₁ hle]
      exact (if_neg (by rw [List.length_append]; omega)).symm

/-- Without a declared length the loop waits for the end of the data. -/
theorem receiveLoop_of_eof (response : ClientResponse M) (head body₁ : Bytes)
    (chunks : Chunks) (hmax : (head ++ body₁ ++ chunks.stream).length ≤ maxResponseSize) :
    receiveLoop maxResponseSize ending chunks (afterHead response head body₁ none) =
      if ending = .eof then some { response with body := body₁ ++ chunks.stream } else none := by
  induction chunks generalizing body₁ with
  | nil =>
    rw [receiveLoop_nil complete?_afterHead_none, Chunks.stream_nil, List.append_nil]
    cases ending with
    | error => rfl
    | eof => exact congrArg some finish_afterHead
  | cons chunk chunks ih =>
    rw [Chunks.stream_cons, ← List.append_assoc] at hmax
    have hprefix : (head ++ body₁ ++ chunk.bytes).length ≤ maxResponseSize :=
      (List.prefix_append _ _).length_le.trans hmax
    rw [receiveLoop_cons complete?_afterHead_none (append_afterHead hprefix), Chunks.stream_cons,
      ← List.append_assoc]
    exact ih (body₁ ++ chunk.bytes) (by simpa using hmax)

/-! ### The refinement -/

/-- What a client does with a head and the bytes after it, in terms of the whole stream. -/
def responseSpec (maxResponseSize : ℕ) (ending : StreamEnd) (head : MessageHead) (body : Bytes) :
    Option (ClientResponse M) :=
  match foldHead head emptyResponse with
  | none => none
  | some response =>
    match find? response.headers (ascii "content-length") with
    | none => if ending = .eof then some { response with body := body } else none
    | some value =>
      match parseNumber value with
      | none => none
      | some n =>
        if n > maxResponseSize then none
        else if body.length < n then none
        else some { response with body := body.take n }

/-- The turn in which the head is complete parses it. -/
private theorem readHead_start (head : MessageHead) (body₁ : Bytes) :
    ({ start with received := head.encode ++ body₁ } : Receiving M).readHead maxResponseSize
        (head.encode.length - 4) =
      match foldHead head emptyResponse with
      | none => none
      | some response =>
        match find? response.headers (ascii "content-length") with
        | none => some (afterHead response head.encode body₁ none)
        | some value =>
          match parseNumber value with
          | none => none
          | some n =>
            if n > maxResponseSize then none
            else some (afterHead response head.encode body₁ (some n)) := by
  have htext : ({ start with received := head.encode ++ body₁ } : Receiving M).received.take
      (head.encode.length - 4) = head.text := head.take_encode_append body₁
  have hend : head.encode.length - 4 + 4 = head.encode.length :=
    Nat.sub_add_cancel head.four_le_length_encode
  rw [readHead, htext, parseHead_text, hend]
  rfl

/-- From that turn on, the loop ends as specified. -/
private theorem receiveLoop_readHead (head : MessageHead) (body₁ : Bytes) (chunks : Chunks)
    (hmax : (head.encode ++ body₁ ++ chunks.stream).length ≤ maxResponseSize) :
    ((({ start with received := head.encode ++ body₁ } : Receiving M).readHead maxResponseSize
        (head.encode.length - 4)).bind fun r ↦ receiveLoop maxResponseSize ending chunks r) =
      responseSpec maxResponseSize ending head (body₁ ++ chunks.stream) := by
  rw [readHead_start, responseSpec]
  rcases foldHead head (emptyResponse : ClientResponse M) with - | response
  · rfl
  simp only
  rcases find? response.headers (ascii "content-length") with - | value
  · exact receiveLoop_of_eof response head.encode body₁ chunks hmax
  simp only
  rcases parseNumber value with - | n
  · rfl
  simp only
  by_cases hbig : n > maxResponseSize
  · rw [if_pos hbig, if_pos hbig]
    rfl
  · rw [if_neg hbig, if_neg hbig]
    exact receiveLoop_of_length response head.encode body₁ n chunks hmax

/-- **Before the head is complete** nothing but the buffer changes. -/
private theorem receiveLoop_of_received {head : MessageHead} {body received : Bytes}
    {chunks : Chunks} (h : received ++ chunks.stream = head.encode ++ body)
    (hfind : indexOf? blankLine received = none)
    (hmax : (received ++ chunks.stream).length ≤ maxResponseSize) :
    receiveLoop maxResponseSize ending chunks ({ start with received := received } : Receiving M) =
      responseSpec maxResponseSize ending head body := by
  induction chunks generalizing received with
  | nil =>
    rw [Chunks.stream_nil, List.append_nil] at h
    rw [h, indexOf?_blankLine_encode] at hfind
    exact absurd hfind (by simp)
  | cons chunk chunks ih =>
    rw [Chunks.stream_cons, ← List.append_assoc] at h hmax
    have hfits : (received ++ chunk.bytes).length ≤ maxResponseSize :=
      (List.prefix_append _ _).length_le.trans hmax
    have hsearch := append_of_searching (r := ({ start with received := received } : Receiving M))
      hfits rfl
    obtain ⟨body₁, hreceived, hbody, hfound⟩ | ⟨-, hnone⟩ := indexOf?_blankLine_prefix h
    · have happend : ({ start with received := received } : Receiving M).append maxResponseSize
          chunk.bytes = ({ start with received := head.encode ++ body₁ } : Receiving M).readHead
            maxResponseSize (head.encode.length - 4) := by
        rw [hsearch, hfound, hreceived]
      rw [hreceived] at hmax
      rw [hbody, ← receiveLoop_readHead head body₁ chunks hmax, ← happend]
      rcases happ : ({ start with received := received } : Receiving M).append maxResponseSize
          chunk.bytes with - | r
      · exact receiveLoop_cons_of_none rfl happ
      · exact receiveLoop_cons rfl happ
    · have happend : ({ start with received := received } : Receiving M).append maxResponseSize
          chunk.bytes = some { start with received := received ++ chunk.bytes } := by
        rw [hsearch, hnone]
      rw [receiveLoop_cons rfl happend]
      exact ih h hnone hmax

/-- **The refinement**: on a stream with a head that fits the size limit, the receive loop ends as
specified, wherever the chunks are cut. -/
theorem receiveLoop_of_head {head : MessageHead} {body : Bytes} {chunks : Chunks}
    (h : chunks.stream = head.encode ++ body) (hmax : chunks.stream.length ≤ maxResponseSize) :
    receiveLoop maxResponseSize ending chunks (start : Receiving M) =
      responseSpec maxResponseSize ending head body :=
  receiveLoop_of_received h (by decide) hmax

end HttpClient

end FalconHTTP
