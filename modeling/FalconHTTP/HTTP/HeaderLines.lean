import FalconHTTP.HTTP.Parser

/-!
# Header lines on the wire

The client's request writer and the server's response writer put a header on the wire in the same
form, `name: value` and a line terminator. This module says what the readers make of such a line:
where they find the colon, and that the request parser stores exactly the entry that was written.

An entry is `Plain` when its line can be read back: no colon in the name, no carriage return
anywhere, no space at the start of the value. A bare line feed does no harm, because every reader
looks for CR LF.
-/

namespace FalconHTTP

open Occurrence Lines Decimal

/-- The line of a header entry, without its terminator. -/
def headerLine (entry : Bytes × Bytes) : Bytes :=
  entry.1 ++ ascii ": " ++ entry.2

/-- An entry whose line can be read back. -/
structure Plain (entry : Bytes × Bytes) : Prop where
  /-- No colon in the name. -/
  colon_notMem : 58 ∉ entry.1
  /-- No carriage return in the name. -/
  cr_notMem_name : 13 ∉ entry.1
  /-- No carriage return in the value. -/
  cr_notMem_value : 13 ∉ entry.2
  /-- No space at the start of the value. -/
  head_value : entry.2.head? ≠ some 32

instance (entry : Bytes × Bytes) : Decidable (Plain entry) :=
  decidable_of_iff (58 ∉ entry.1 ∧ 13 ∉ entry.1 ∧ 13 ∉ entry.2 ∧ entry.2.head? ≠ some 32)
    ⟨fun ⟨hcolon, hname, hvalue, hhead⟩ ↦ ⟨hcolon, hname, hvalue, hhead⟩,
      fun h ↦ ⟨h.colon_notMem, h.cr_notMem_name, h.cr_notMem_value, h.head_value⟩⟩

theorem headerLine_eq (entry : Bytes × Bytes) :
    headerLine entry = entry.1 ++ 58 :: 32 :: entry.2 := by
  have hcolon : ascii ": " = [58, 32] := rfl
  rw [headerLine, hcolon, List.append_assoc]
  rfl

theorem headerLine_ne_nil (entry : Bytes × Bytes) : headerLine entry ≠ [] := by
  rw [headerLine_eq]
  simp

/-- The line of a plain entry is clean. -/
theorem Plain.clean {entry : Bytes × Bytes} (h : Plain entry) :
    Clean 13 10 (headerLine entry) := by
  refine clean_of_notMem ?_
  rw [headerLine_eq]
  simp [h.cr_notMem_name, h.cr_notMem_value]

/-- The first colon of the line is the one after the name. -/
theorem Plain.indexOf?_colon {entry : Bytes × Bytes} (h : Plain entry) :
    indexOf? [58] (headerLine entry) = some entry.1.length := by
  rw [headerLine_eq]
  exact indexOf?_singleton_append h.colon_notMem

theorem take_headerLine (entry : Bytes × Bytes) :
    (headerLine entry).take entry.1.length = entry.1 := by
  rw [headerLine_eq, List.take_left]

theorem drop_headerLine (entry : Bytes × Bytes) :
    (headerLine entry).drop (entry.1.length + 1) = 32 :: entry.2 := by
  rw [headerLine_eq, ← List.drop_drop, List.drop_left]
  rfl

/-- The space that the writers put before a value is all that the readers drop. -/
theorem Plain.dropSpaces_value {entry : Bytes × Bytes} (h : Plain entry) :
    dropSpaces (32 :: entry.2) = entry.2 := by
  have hvalue : entry.2.dropWhile (· == 32) = entry.2 := by
    rcases hv : entry.2 with - | ⟨c, value⟩
    · rfl
    · have hc : c ≠ 32 := by
        rintro rfl
        exact h.head_value (by rw [hv]; rfl)
      rw [List.dropWhile_cons, if_neg (by simpa using hc)]
  exact hvalue

/-- A colon keeps the line ends before it and after it apart. -/
theorem crlf_append_colon {s t : Bytes} :
    indexOf? crlf (s ++ 58 :: t) = none ↔ indexOf? crlf s = none ∧ indexOf? crlf t = none :=
  indexOf?_append_cons_eq_none (by decide) (by decide)

/-- So does a space. -/
theorem crlf_append_space {s t : Bytes} :
    indexOf? crlf (s ++ 32 :: t) = none ↔ indexOf? crlf s = none ∧ indexOf? crlf t = none :=
  indexOf?_append_cons_eq_none (by decide) (by decide)

/-- **A line is clean exactly when its name and its value are**: the colon and the space between
them keep the line ends of the two apart. -/
theorem clean_headerLine_iff (entry : Bytes × Bytes) :
    Clean 13 10 (headerLine entry) ↔
      indexOf? crlf entry.1 = none ∧ indexOf? crlf entry.2 = none := by
  have hspace : indexOf? crlf ([] ++ 32 :: entry.2) = none ↔
      indexOf? crlf [] = none ∧ indexOf? crlf entry.2 = none := crlf_append_space
  have hnil : indexOf? crlf [] = none := rfl
  rw [clean_crlf_iff, headerLine_eq, crlf_append_colon]
  exact and_congr_right fun _ ↦ hspace.trans (by simp [hnil])

/-! ### Reading a line -/

/-- The entry of a line: the name before the first colon, and the value after the colon and the
space that the writers put there. -/
def readHeaderLine (line : Bytes) : Bytes × Bytes :=
  (line.takeWhile (· != 58), (line.dropWhile (· != 58)).drop 2)

/-- The name that a line reads as: the name that was written, up to its first colon. -/
theorem readHeaderLine_fst (entry : Bytes × Bytes) :
    (readHeaderLine (headerLine entry)).1 = entry.1.takeWhile (· != 58) := by
  have hstop : ∀ name : Bytes,
      (name ++ 58 :: 32 :: entry.2).takeWhile (· != 58) = name.takeWhile (· != 58) := by
    intro name
    induction name with
    | nil => rfl
    | cons c name ih => rw [List.cons_append, List.takeWhile_cons, List.takeWhile_cons, ih]
  rw [headerLine_eq]
  exact hstop entry.1

private theorem bne_colon {name : Bytes} (hcolon : 58 ∉ name) : ∀ c ∈ name, (c != 58) = true :=
  fun _ hc ↦ by simpa using ne_of_mem_of_not_mem hc hcolon

theorem takeWhile_colon {name : Bytes} (hcolon : 58 ∉ name) :
    name.takeWhile (· != 58) = name := by
  rw [← List.append_nil name, List.takeWhile_append_of_pos (bne_colon hcolon)]
  rfl

/-- **A line reads as the entry that was written** when there is no colon in the name. -/
theorem readHeaderLine_headerLine {entry : Bytes × Bytes} (hcolon : 58 ∉ entry.1) :
    readHeaderLine (headerLine entry) = entry := by
  refine Prod.ext ((readHeaderLine_fst entry).trans (takeWhile_colon hcolon)) ?_
  rw [headerLine_eq, readHeaderLine, List.dropWhile_append_of_pos (bne_colon hcolon)]
  rfl

theorem map_readHeaderLine {es : List (Bytes × Bytes)} (hcolon : ∀ e ∈ es, 58 ∉ e.1) :
    (es.map headerLine).map readHeaderLine = es := by
  rw [List.map_map]
  have hid : es.map (readHeaderLine ∘ headerLine) = es.map id :=
    List.map_congr_left fun e he ↦ readHeaderLine_headerLine (hcolon e he)
  rw [hid, List.map_id]

/-- The values of the headers with a name, in order; the name is given in lowercase. -/
def valuesOf (name : Bytes) (headers : List (Bytes × Bytes)) : List Bytes :=
  (headers.filter fun h ↦ toLowerAscii h.1 = name).map Prod.snd

theorem valuesOf_append (name : Bytes) (hs ts : List (Bytes × Bytes)) :
    valuesOf name (hs ++ ts) = valuesOf name hs ++ valuesOf name ts := by
  rw [valuesOf, List.filter_append, List.map_append, valuesOf, valuesOf]

theorem valuesOf_eq_nil_iff {name : Bytes} {headers : List (Bytes × Bytes)} :
    valuesOf name headers = [] ↔ ∀ h ∈ headers, toLowerAscii h.1 ≠ name := by
  rw [valuesOf, List.map_eq_nil_iff, List.filter_eq_nil_iff]
  simp

/-- A header whose name occurs once has one value. -/
theorem valuesOf_of_mem {headers : List (Bytes × Bytes)}
    (hdistinct : headers.Pairwise fun d e ↦ toLowerAscii d.1 ≠ toLowerAscii e.1)
    {e : Bytes × Bytes} (he : e ∈ headers) : valuesOf (toLowerAscii e.1) headers = [e.2] := by
  induction headers with
  | nil => exact absurd he List.not_mem_nil
  | cons d headers ih =>
    obtain ⟨hd, hrest⟩ := List.pairwise_cons.1 hdistinct
    rw [valuesOf, List.filter_cons]
    rcases List.mem_cons.1 he with rfl | he'
    · have hnone := valuesOf_eq_nil_iff.2 fun h hh ↦ (hd h hh).symm
      rw [if_pos (by simp), List.map_cons, ← valuesOf, hnone]
    · rw [if_neg (by simpa using hd e he'), ← valuesOf]
      exact ih hrest he'

/-! ### The headers that both writers compute -/

theorem toLowerAscii_contentLength :
    toLowerAscii (ascii "Content-Length") = ascii "content-length" := rfl

theorem toLowerAscii_connection : toLowerAscii (ascii "Connection") = ascii "connection" := rfl

/-- A number can be read back as a value. -/
theorem plain_decimal {name : Bytes} (hcolon : 58 ∉ name) (hcr : 13 ∉ name) (n : ℕ) :
    Plain (name, decimal n) :=
  ⟨hcolon, hcr, notMem_decimal rfl,
    fun hhead ↦ notMem_decimal rfl (List.mem_of_mem_head? hhead)⟩

theorem plain_contentLength (n : ℕ) : Plain (ascii "Content-Length", decimal n) :=
  plain_decimal (by decide +kernel) (by decide +kernel) n

theorem plain_connection : Plain (ascii "Connection", ascii "close") := by
  decide +kernel

/-! ### Heads of header entries -/

/-- The head with a first line and header entries. -/
def headOfEntries (first : Bytes) (entries : List (Bytes × Bytes)) (hfirst : 13 ∉ first)
    (hentries : ∀ e ∈ entries, Plain e) : MessageHead where
  first := first
  rest := entries.map headerLine
  first_clean := clean_of_notMem hfirst
  rest_clean l hl := by
    obtain ⟨e, he, rfl⟩ := List.mem_map.1 hl
    exact (hentries e he).clean
  rest_ne_nil l hl := by
    obtain ⟨e, -, rfl⟩ := List.mem_map.1 hl
    exact headerLine_ne_nil e

/-- A write loop that appends a terminated line for each item it does not skip. -/
theorem foldl_write_lines {β : Type} (line : β → Bytes) (skip : β → Bool)
    {write : Bytes → β → Bytes}
    (hwrite : ∀ out e, write out e = if skip e then out else out ++ (line e ++ crlf))
    (items : List β) (out : Bytes) :
    items.foldl write out = out ++ joinLines 13 10 ((items.filter (!skip ·)).map line) := by
  induction items generalizing out with
  | nil => exact (List.append_nil out).symm
  | cons e items ih =>
    rw [List.foldl_cons, ih, hwrite]
    by_cases hskip : skip e = true
    · simp [hskip]
    · simp [hskip, joinLines, crlf]

theorem joinLines_append (ls ms : List Bytes) :
    joinLines (13 : UInt8) 10 (ls ++ ms) = joinLines 13 10 ls ++ joinLines 13 10 ms := by
  induction ls with
  | nil => rfl
  | cons l ls ih => simp [joinLines, ih]

/-! ### The request parser -/

variable {M : Type} [FiniteMap M Bytes Bytes]

/-- The request parser stores the entry of a plain line. -/
theorem Plain.parseHeaderLine {entry : Bytes × Bytes} (h : Plain entry)
    (request : HttpRequest M) :
    HttpParser.parseHeaderLine (headerLine entry) request =
      .ok (request.setHeader entry.1 entry.2) := by
  rw [HttpParser.parseHeaderLine, h.indexOf?_colon]
  show Except.ok _ = _
  rw [take_headerLine, drop_headerLine, h.dropSpaces_value]

/-- **The parser stores the entries of plain lines**, in order. -/
theorem foldHeaderLines_map {entries : List (Bytes × Bytes)} (h : ∀ e ∈ entries, Plain e)
    (request : HttpRequest M) :
    HttpParser.foldHeaderLines (entries.map headerLine) request =
      .ok { request with headers := request.headers.setHeaders entries } := by
  induction entries generalizing request with
  | nil => rfl
  | cons e entries ih =>
    rw [HttpParser.foldHeaderLines, List.map_cons, List.foldlM_cons,
      (h e List.mem_cons_self).parseHeaderLine]
    exact ih (fun d hd ↦ h d (List.mem_cons_of_mem _ hd)) (request.setHeader e.1 e.2)

/-- **What the request parser makes of a head of plain entries.** -/
theorem parseHead_headOfEntries {first : Bytes} {entries : List (Bytes × Bytes)}
    (hfirst : 13 ∉ first) (hentries : ∀ e ∈ entries, Plain e) :
    HttpParser.parseHead (headOfEntries first entries hfirst hentries) =
      (HttpParser.parseRequestLine first (.new : HttpRequest M)).map fun request ↦
        { request with headers := request.headers.setHeaders entries } := by
  rw [HttpParser.parseHead]
  show (HttpParser.parseRequestLine first .new >>= fun request ↦
    HttpParser.foldHeaderLines (entries.map headerLine) request) = _
  rcases HttpParser.parseRequestLine first (.new : HttpRequest M) with e | request
  · rfl
  · exact foldHeaderLines_map hentries request

end FalconHTTP
