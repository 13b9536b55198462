import FalconHTTP.Foundation.EventStream
import FalconHTTP.Streaming.SseConnection

/-!
# Event frames, read back

What an event-stream reader makes of the frames that `SseConnection::send` writes. The frame is its
lines one by one (`eventFrame_eq`): the event's name, one line for each LF-separated line of the
data, and the empty line. The writer splits the data at LF only, while the reader also ends a line
at CR, so `lines_frameBody_append` describes the lines that are read by the reader's own splitting
of each line of data.
-/

namespace FalconHTTP

open Occurrence EventStream

namespace SseConnection

/-! ### The frame as lines -/

/-- The line of an event's name, when there is one. -/
def eventLine (event : Bytes) : Bytes :=
  if event = [] then [] else word "event" ++ 58 :: 32 :: (event ++ [10])

/-- One line of data. -/
def dataLine (line : Bytes) : Bytes :=
  word "data" ++ 58 :: 32 :: (line ++ [10])

/-- The frame of an event without the empty line that ends it. -/
def frameBody (event data : Bytes) : Bytes :=
  eventLine event ++ (data.splitOn 10).flatMap dataLine

/-- The loop writes a line for each LF-separated line that is left. -/
theorem appendDataLines_eq {data : Bytes} {fuel start : ℕ} (hfuel : data.length < start + fuel)
    (hstart : start ≤ data.length) (frame : Bytes) :
    appendDataLines data fuel start frame =
      frame ++ ((data.drop start).splitOn 10).flatMap dataLine := by
  have hdata : ascii "data: " = word "data" ++ [58, 32] := rfl
  have hlf : ascii "\n" = [10] := rfl
  induction fuel generalizing start frame with
  | zero => omega
  | succ fuel ih =>
    rw [appendDataLines, indexFrom?]
    rcases hfind : indexOf? [10] (data.drop start) with - | newline
    · rw [List.splitOn_eq_singleton (notMem_of_indexOf?_eq_none hfind), hdata, hlf]
      simp [dataLine]
    · have hle := le_length_of_indexOf? (by simp) hfind
      rw [List.length_singleton, List.length_drop] at hle
      simp only [Option.map_some]
      rw [ih (by omega) (by omega), splitOn_of_indexOf? hfind, List.drop_drop, hdata, hlf,
        Nat.add_sub_cancel, show newline + start + 1 = start + (newline + 1) by omega]
      simp [dataLine]

/-- **The frame**: the name, the data line by line, and the empty line. -/
theorem eventFrame_eq (event data : Bytes) :
    eventFrame event data = frameBody event data ++ [10] := by
  have hevent : ascii "event: " = word "event" ++ [58, 32] := rfl
  have hlf : ascii "\n" = [10] := rfl
  rw [eventFrame, appendDataLines_eq (by omega) (Nat.zero_le _), List.drop_zero, frameBody,
    eventLine, hevent, hlf]
  split <;> simp

/-! ### The lines that are read -/

/-- The line that is read for an event's name. -/
def nameLines (event : Bytes) : List Bytes :=
  if event = [] then [] else [word "event" ++ 58 :: 32 :: event]

/-- The lines that are read for the data: those the reader sees in each line of data, the first of
them after the field name. -/
def dataLines (data : Bytes) : List Bytes :=
  (data.splitOn 10).flatMap fun line ↦
    (lines (line ++ [10])).modifyHead (word "data" ++ 58 :: 32 :: ·)

/-- Neither line end occurs in a field name and what separates it from the value. -/
private theorem notMem_field : ∀ name ∈ [word "event", word "data"],
    13 ∉ name ++ [58, 32] ∧ 10 ∉ name ++ [58, 32] := by
  decide +kernel

/-- The lines read for one line of data. -/
theorem lines_dataLine_append (line rest : Bytes) :
    lines (dataLine line ++ rest) =
      (lines (line ++ [10])).modifyHead (word "data" ++ 58 :: 32 :: ·) ++ lines rest := by
  obtain ⟨hcr, hlf⟩ := notMem_field (word "data") (by simp)
  have hsplit : dataLine line ++ rest = word "data" ++ [58, 32] ++ line ++ 10 :: rest := by
    simp [dataLine]
  have hprefix : lines (word "data" ++ [58, 32] ++ (line ++ [10])) =
      (lines (line ++ [10])).modifyHead (word "data" ++ [58, 32] ++ ·) := by
    have hprepend : linesFrom (word "data" ++ [58, 32] ++ []) false (line ++ [10]) =
        (lines (line ++ [10])).modifyHead (word "data" ++ [58, 32] ++ ·) := linesFrom_prepend _
    rwa [lines, linesFrom_append hcr hlf, List.nil_append, ← List.append_nil (_ ++ [58, 32])]
  rw [hsplit, lines_append_lf, List.append_assoc _ line, hprefix]
  simp

/-- **The lines read for a frame** whose name has no line ends. -/
theorem lines_frameBody_append {event : Bytes} (hevent : 13 ∉ event ∧ 10 ∉ event)
    (data rest : Bytes) :
    lines (frameBody event data ++ rest) = nameLines event ++ dataLines data ++ lines rest := by
  have hdata : ∀ ls : List Bytes, lines (ls.flatMap dataLine ++ rest) =
      (ls.flatMap fun line ↦
        (lines (line ++ [10])).modifyHead (word "data" ++ 58 :: 32 :: ·)) ++ lines rest := by
    intro ls
    induction ls with
    | nil => rfl
    | cons line ls ih =>
      rw [List.flatMap_cons, List.append_assoc, lines_dataLine_append, ih, List.flatMap_cons,
        List.append_assoc]
  rw [frameBody, eventLine, nameLines]
  split
  · exact hdata _
  · obtain ⟨hcr, hlf⟩ := notMem_field (word "event") (by simp)
    have hline : lines (word "event" ++ [58, 32] ++ event ++ [10]) =
        [word "event" ++ [58, 32] ++ event] :=
      lines_of_notMem (by simpa [hevent.1] using hcr) (by simpa [hevent.2] using hlf)
    have hsplit : word "event" ++ 58 :: 32 :: (event ++ [10]) ++
        (data.splitOn 10).flatMap dataLine ++ rest =
        word "event" ++ [58, 32] ++ event ++
          10 :: ((data.splitOn 10).flatMap dataLine ++ rest) := by
      simp
    rw [hsplit, lines_append_lf, hline, hdata, dataLines]
    simp

theorem lines_eventFrame_append {event : Bytes} (hevent : 13 ∉ event ∧ 10 ∉ event)
    (data rest : Bytes) :
    lines (eventFrame event data ++ rest) =
      nameLines event ++ dataLines data ++ [[]] ++ lines rest := by
  rw [eventFrame_eq, List.append_assoc, lines_frameBody_append hevent]
  simp [lines, linesFrom]

/-! ### Round trip -/

/-- The type a reader gives an event. -/
def eventType (event : Bytes) : Bytes :=
  if event = [] then defaultType else event

/-- A reader that is between two events: nothing is built up. -/
structure Between (r : Reader) : Prop where
  /-- No type is built up. -/
  eventType : r.eventType = []
  /-- No data is built up. -/
  data : r.data = []

/-- The name's line sets the type, if there is one. -/
theorem foldl_nameLines (event : Bytes) {r : Reader} (hr : r.eventType = []) :
    (nameLines event).foldl Reader.readLine r = { r with eventType := event } := by
  rw [nameLines]
  split
  · rename_i hevent
    rw [hevent, ← hr]
    rfl
  · exact Reader.readLine_event event r

/-- Data without CR is read line by line as it was written. -/
theorem dataLines_of_notMem {data : Bytes} (hdata : 13 ∉ data) :
    dataLines data = (data.splitOn 10).map (word "data" ++ 58 :: 32 :: ·) := by
  rw [dataLines, List.map_eq_flatMap]
  refine List.flatMap_congr fun line hline ↦ ?_
  obtain ⟨hlf, hsub⟩ := mem_splitOn hline
  rw [lines_of_notMem (fun h ↦ hdata (hsub h)) hlf]
  rfl

/-- **One frame**: the reader dispatches the event that was sent and is between two events again. -/
theorem foldl_eventFrame {event data : Bytes} (hdata : 13 ∉ data) {r : Reader} (hr : Between r) :
    (nameLines event ++ dataLines data ++ [[]]).foldl Reader.readLine r =
      { r with dispatched := r.dispatched ++ [⟨eventType event, data, r.lastEventId⟩] } := by
  rw [List.foldl_append, List.foldl_append, foldl_nameLines event hr.eventType,
    dataLines_of_notMem hdata, Reader.foldl_readLine_data, flatMap_splitOn, hr.data]
  show Reader.readLine _ [] = _
  rw [Reader.readLine, if_pos rfl, Reader.dispatch, if_neg (by simp)]
  obtain ⟨htype, hbuilt⟩ := hr
  rcases r with ⟨type, built, lastEventId, reconnectionTime, dispatched⟩
  obtain rfl : type = [] := htype
  obtain rfl : built = [] := hbuilt
  simp [Reader.eventData, eventType]

/-- A sequence of sends, one after the other, with what each returns. -/
def sendEach : List (Bytes × Bytes) → SseConnection × Endpoint →
    List Bool × SseConnection × Endpoint
  | [], s => ([], s)
  | e :: events, s =>
    let (sent, s) := s.1.send e.1 e.2 s.2
    let (rest, s) := sendEach events s
    (sent :: rest, s)

/-- Sends that all succeed write their frames, one after the other. -/
theorem sent_sendEach {events : List (Bytes × Bytes)} {s : SseConnection × Endpoint}
    (hsent : ∀ sent ∈ (sendEach events s).1, sent = true) :
    (sendEach events s).2.2.sent = s.2.sent ++ frames events := by
  induction events generalizing s with
  | nil => exact (List.append_nil _).symm
  | cons e events ih =>
    have hfirst : (s.1.send e.1 e.2 s.2).1 = true := hsent _ List.mem_cons_self
    have hrest := ih (s := (s.1.send e.1 e.2 s.2).2) fun sent h ↦ hsent sent
      (List.mem_cons_of_mem _ h)
    show (sendEach events (s.1.send e.1 e.2 s.2).2).2.2.sent = _
    rw [hrest, sent_of_send hfirst, frames, frames, List.flatMap_cons, List.append_assoc]

/-- **The frames of a list of events**, from a reader between two events. -/
theorem foldl_frames {events : List (Bytes × Bytes)}
    (hclean : ∀ e ∈ events, (13 ∉ e.1 ∧ 10 ∉ e.1) ∧ 13 ∉ e.2) {r : Reader} (hr : Between r) :
    (lines (frames events)).foldl Reader.readLine r =
      { r with dispatched := r.dispatched ++
          events.map fun e ↦ ⟨eventType e.1, e.2, r.lastEventId⟩ } := by
  induction events generalizing r with
  | nil => simp [frames, lines, linesFrom]
  | cons e events ih =>
    obtain ⟨hevent, hdata⟩ := hclean e List.mem_cons_self
    have hframes : frames (e :: events) = eventFrame e.1 e.2 ++ frames events := rfl
    have hnext : Between { r with
        dispatched := r.dispatched ++ [⟨eventType e.1, e.2, r.lastEventId⟩] } :=
      ⟨hr.eventType, hr.data⟩
    rw [hframes, lines_eventFrame_append hevent, List.foldl_append, foldl_eventFrame hdata hr,
      ih (fun d hd ↦ hclean d (List.mem_cons_of_mem _ hd)) hnext]
    simp

/-- **The round trip of a stream**: a reader of what successful sends wrote dispatches exactly the
events that were sent, in order. -/
theorem read_sendEach (events : List (Bytes × Bytes)) (s : SseConnection × Endpoint)
    (hclean : ∀ e ∈ events, (13 ∉ e.1 ∧ 10 ∉ e.1) ∧ 13 ∉ e.2)
    (hsent : ∀ sent ∈ (sendEach events s).1, sent = true) :
    ∃ written, (sendEach events s).2.2.sent = s.2.sent ++ written ∧
      (read written).dispatched = events.map fun e ↦ ⟨eventType e.1, e.2, []⟩ := by
  refine ⟨frames events, sent_sendEach hsent, ?_⟩
  have hstart : Between .start := ⟨rfl, rfl⟩
  rw [EventStream.read, foldl_frames hclean hstart]
  rfl

/-- A live stream on a socket that takes few bytes at first. -/
def slowStream : SseConnection × Endpoint :=
  (⟨⟨⟨some 3⟩⟩, true⟩,
    { incoming := [], ending := .eof, sendResults := [2, 5], sent := [], closed := false })

/-- The events of the run: line feeds, leading spaces and colons in the data, and no data. -/
def slowEvents : List (Bytes × Bytes) :=
  [(ascii "tick", ascii "\n id: 7\n"), ([], []), (ascii " a:b", ascii ":")]

theorem read_sendEach_slowStream : ∃ written,
    (sendEach slowEvents slowStream).2.2.sent = [] ++ written ∧
      (read written).dispatched =
        [⟨ascii "tick", ascii "\n id: 7\n", []⟩, ⟨ascii "message", [], []⟩,
          ⟨ascii " a:b", ascii ":", []⟩] := by
  obtain ⟨written, hwritten, hread⟩ := read_sendEach slowEvents slowStream (by decide +kernel)
    (by decide +kernel)
  refine ⟨written, hwritten, hread.trans ?_⟩
  decide +kernel

/-! ### Forged frames -/

/-- A frame that a reader takes for one event of the given name and for nothing else. -/
structure SingleEvent (event frame : Bytes) : Prop where
  /-- One event is dispatched, of the type that was passed, and without an identifier. -/
  dispatched : ∃ data, (read frame).dispatched = [⟨eventType event, data, []⟩]
  /-- Nothing is dispatched before the end of the frame. -/
  at_end : ∀ part, part <+: frame → part ≠ frame → (read part).dispatched = []
  /-- No line sets an identifier or the reconnection time. -/
  no_id_retry : ∀ line ∈ lines frame, fieldOf line ≠ .id ∧ fieldOf line ≠ .retry
  /-- The name's line is the only one that sets the type. -/
  types : (lines frame).countP (fieldOf · = .event) = if event = [] then 0 else 1

/-- Arguments of a send that stay within their fields. -/
structure FrameSafe (event data : Bytes) : Prop where
  /-- No line end in the name. -/
  event_clean : 13 ∉ event ∧ 10 ∉ event
  /-- What a reader sees after the first CR of a line of data are lines of data, or lines that it
  ignores; in particular none of them is empty. -/
  data_harmless : ∀ line ∈ data.splitOn 10, ∀ l ∈ (lines (line ++ [10])).tail, Harmless l

/-- A line of data is harmless. -/
theorem harmless_data (value : Bytes) : Harmless (word "data" ++ 58 :: 32 :: value) := by
  have hname : nameOf (word "data" ++ 58 :: 32 :: value) = word "data" :=
    nameOf_append (by decide +kernel)
  exact ⟨by simp, Or.inl (by rw [fieldOf, if_pos hname])⟩

/-- The lines read for the data are lines of data, and those after the CRs. -/
theorem mem_dataLines {data l : Bytes} :
    l ∈ dataLines data ↔ ∃ line ∈ data.splitOn 10,
      (∃ first, (lines (line ++ [10])).head? = some first ∧
        l = word "data" ++ 58 :: 32 :: first) ∨ l ∈ (lines (line ++ [10])).tail := by
  rw [dataLines, List.mem_flatMap]
  refine exists_congr fun line ↦ and_congr_right fun _ ↦ ?_
  rcases lines (line ++ [10]) with - | ⟨first, rest⟩
  · simp
  · simp

/-- The first line read for the data is a line of data. -/
theorem exists_dataLines (data : Bytes) :
    ∃ first rest, dataLines data = (word "data" ++ 58 :: 32 :: first) :: rest := by
  obtain ⟨line, lines', hpieces⟩ := List.exists_cons_of_ne_nil (List.splitOn_ne_nil 10 data)
  obtain ⟨first, rest, hlines⟩ := List.exists_cons_of_ne_nil (lines_lf_ne_nil line)
  refine ⟨first, rest ++ lines'.flatMap fun line ↦
    (lines (line ++ [10])).modifyHead (word "data" ++ 58 :: 32 :: ·), ?_⟩
  rw [dataLines, hpieces, List.flatMap_cons, hlines]
  rfl

/-- The name's line is not empty, sets the type and nothing else. -/
theorem fieldOf_of_mem_nameLines {event l : Bytes} (hl : l ∈ nameLines event) :
    event ≠ [] ∧ l ≠ [] ∧ fieldOf l = .event := by
  rw [nameLines] at hl
  split at hl
  · exact absurd hl List.not_mem_nil
  · rename_i hevent
    obtain rfl := List.mem_singleton.1 hl
    have hname : nameOf (word "event" ++ 58 :: 32 :: event) = word "event" :=
      nameOf_append (by decide +kernel)
    refine ⟨hevent, by simp, ?_⟩
    rw [fieldOf, hname]
    rfl

theorem countP_nameLines (event : Bytes) :
    (nameLines event).countP (fieldOf · = .event) = if event = [] then 0 else 1 := by
  have hall : (nameLines event).countP (fieldOf · = .event) = (nameLines event).length :=
    List.countP_eq_length.2 fun l hl ↦ by simpa using (fieldOf_of_mem_nameLines hl).2.2
  rw [hall, nameLines]
  split <;> rfl

section Lines

variable {event : Bytes} (hevent : 13 ∉ event ∧ 10 ∉ event) (data : Bytes)

include hevent

theorem lines_frameBody : lines (frameBody event data) = nameLines event ++ dataLines data := by
  have h := lines_frameBody_append hevent data []
  rw [List.append_nil] at h
  simpa [lines, linesFrom] using h

theorem lines_eventFrame :
    lines (eventFrame event data) = nameLines event ++ dataLines data ++ [[]] := by
  have h := lines_eventFrame_append hevent data []
  rw [List.append_nil] at h
  simpa [lines, linesFrom] using h

/-- The name and the data, in the counts of the lines that set the type. -/
theorem countP_lines_eventFrame :
    (lines (eventFrame event data)).countP (fieldOf · = .event) =
      (if event = [] then 0 else 1) + (dataLines data).countP (fieldOf · = .event) := by
  have hempty : [([] : Bytes)].countP (fieldOf · = .event) = 0 := by decide +kernel
  rw [lines_eventFrame hevent, List.countP_append, List.countP_append, countP_nameLines, hempty,
    Nat.add_zero]

/-- An empty line among those of the data dispatches before the frame has ended. -/
theorem dispatched_frameBody_ne_nil (hempty : [] ∈ dataLines data) :
    (read (frameBody event data)).dispatched ≠ [] := by
  obtain ⟨first, rest, hlines⟩ := exists_dataLines data
  have hrest : [] ∈ rest := by
    rw [hlines] at hempty
    exact (List.mem_cons.1 hempty).resolve_left (by simp)
  rw [EventStream.read, lines_frameBody hevent, List.foldl_append, foldl_nameLines event rfl,
    hlines, List.foldl_cons, Reader.readLine_data]
  exact Reader.dispatched_foldl_ne_nil hrest (by simp)

end Lines

/-- Arguments that stay within their fields make one event of their frame. -/
theorem singleEvent_of_frameSafe {event data : Bytes} (hsafe : FrameSafe event data) :
    SingleEvent event (eventFrame event data) := by
  have hharmless : ∀ l ∈ dataLines data, Harmless l := by
    intro l hl
    obtain ⟨line, hline, ⟨first, -, rfl⟩ | hafter⟩ := mem_dataLines.1 hl
    · exact harmless_data first
    · exact hsafe.data_harmless line hline l hafter
  have hbody : ∀ l ∈ nameLines event ++ dataLines data, l ≠ [] := by
    intro l hl
    rcases List.mem_append.1 hl with hname | hdata
    · exact (fieldOf_of_mem_nameLines hname).2.1
    · exact (hharmless l hdata).1
  refine ⟨?_, fun part hpart hne ↦ ?_, fun l hl ↦ ?_, ?_⟩
  · obtain ⟨first, rest, hlines⟩ := exists_dataLines data
    rw [EventStream.read, lines_eventFrame hsafe.event_clean, List.append_assoc, List.foldl_append,
      foldl_nameLines event rfl, hlines, List.cons_append, List.foldl_cons, Reader.readLine_data]
    exact Reader.dispatched_of_harmless
      (fun l hl ↦ hharmless l (hlines ▸ List.mem_cons_of_mem _ hl)) (by simp)
  · -- a proper part of the frame is part of the body, whose lines are not empty
    rw [eventFrame_eq] at hpart hne
    obtain ⟨rest, hrest⟩ := (List.prefix_concat_iff.1 hpart).resolve_left hne
    have hlines : lines part <+: nameLines event ++ dataLines data := by
      rw [← lines_frameBody hsafe.event_clean, ← hrest]
      exact lines_prefix
    exact Reader.dispatched_foldl (fun l hl ↦ hbody l (hlines.subset hl)) .start
  · rw [lines_eventFrame hsafe.event_clean, List.mem_append, List.mem_append] at hl
    rcases hl with (hname | hdata) | hempty
    · rw [(fieldOf_of_mem_nameLines hname).2.2]
      exact ⟨by simp, by simp⟩
    · rcases (hharmless l hdata).2 with hfield | hfield <;> simp [hfield]
    · obtain rfl := List.mem_singleton.1 hempty
      exact ⟨by decide +kernel, by decide +kernel⟩
  · have hcount : (dataLines data).countP (fieldOf · = .event) = 0 :=
      List.countP_eq_zero.2 fun l hl ↦ by
        rcases (hharmless l hl).2 with hfield | hfield <;> simp [hfield]
    rw [countP_lines_eventFrame hsafe.event_clean, hcount, Nat.add_zero]

/-- A frame that is one event comes from arguments that stay within their fields. -/
theorem frameSafe_of_singleEvent {event data : Bytes}
    (h : SingleEvent event (eventFrame event data)) : FrameSafe event data := by
  have hevent : 13 ∉ event ∧ 10 ∉ event := by
    obtain ⟨data', hdispatched⟩ := h.dispatched
    have htype := notMem_type_read (hdispatched ▸ List.mem_singleton_self _)
    rw [eventType] at htype
    split at htype
    · rename_i hnil
      rw [hnil]
      exact ⟨List.not_mem_nil, List.not_mem_nil⟩
    · exact htype
  have htypes := h.types
  rw [countP_lines_eventFrame hevent, Nat.add_eq_left, List.countP_eq_zero] at htypes
  refine ⟨hevent, fun line hline l hl ↦ ?_⟩
  have hmem : l ∈ dataLines data := mem_dataLines.2 ⟨line, hline, Or.inr hl⟩
  have hread : l ∈ lines (eventFrame event data) := by
    rw [lines_eventFrame hevent]
    exact List.mem_append_left _ (List.mem_append_right _ hmem)
  refine ⟨?_, ?_⟩
  · rintro rfl
    refine dispatched_frameBody_ne_nil hevent data hmem (h.at_end _ ?_ ?_)
    · rw [eventFrame_eq]
      exact List.prefix_append _ _
    · rw [eventFrame_eq]
      simp
  · obtain ⟨hid, hretry⟩ := h.no_id_retry l hread
    have hname : fieldOf l ≠ .event := by simpa using htypes l hmem
    rcases hfield : fieldOf l with - | - | - | - | - <;> simp_all

/-- **Which frames cannot be forged**: the frame of a send that succeeds is one event of the given
name and nothing else exactly when the arguments stay within their fields. -/
theorem send_singleEvent_iff (sse : SseConnection) (event data : Bytes) (endpoint : Endpoint)
    (hsend : (sse.send event data endpoint).1 = true) :
    ∃ frame, (sse.send event data endpoint).2.2.sent = endpoint.sent ++ frame ∧
      (SingleEvent event frame ↔ FrameSafe event data) :=
  ⟨eventFrame event data, sent_of_send hsend, frameSafe_of_singleEvent, singleEvent_of_frameSafe⟩

theorem send_singleEvent_slowStream : ∃ frame,
    (slowStream.1.send (ascii "tick") (ascii "a\rb\r") slowStream.2).2.2.sent = [] ++ frame ∧
      SingleEvent (ascii "tick") frame := by
  obtain ⟨frame, hframe, hiff⟩ := send_singleEvent_iff slowStream.1 (ascii "tick")
    (ascii "a\rb\r") slowStream.2 (by decide +kernel)
  exact ⟨frame, hframe, hiff.2 ⟨by decide +kernel, by decide +kernel⟩⟩

/-- Data that closes its event with two CRs and goes on with an event of its own. -/
def forgedData : Bytes :=
  ascii "hi\r\revent: admin\rdata: forged"

/-- A send that succeeds and whose frame is two events. -/
theorem send_forgedData : (slowStream.1.send [] forgedData slowStream.2).1 = true ∧
    ∃ frame, (slowStream.1.send [] forgedData slowStream.2).2.2.sent = [] ++ frame ∧
      (read frame).dispatched =
        [⟨ascii "message", ascii "hi", []⟩, ⟨ascii "admin", ascii "forged", []⟩] ∧
      ¬ SingleEvent [] frame := by
  have hsend : (slowStream.1.send [] forgedData slowStream.2).1 = true := by decide +kernel
  refine ⟨hsend, eventFrame [] forgedData, sent_of_send hsend, by decide +kernel, fun h ↦ ?_⟩
  have hharmless := (frameSafe_of_singleEvent h).data_harmless
  exact absurd hharmless (by decide +kernel)

end SseConnection

end FalconHTTP
