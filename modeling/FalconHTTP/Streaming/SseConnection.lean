import FalconHTTP.Core.Connection
import FalconHTTP.Foundation.Interaction
import FalconHTTP.Foundation.Occurrence

/-!
# Server-sent event connections

An `SseConnection` owns the connection it was built from, writes the stream's preamble once, and
frames every event that is sent. It is alive until a write fails or it is closed; past that, a send
writes nothing.

A stream handler is an arbitrary program over the connection it is given (`StreamProgram`): it may
send, ask whether the connection is alive, close it, or move it away. What it does between these
calls is left open, and so is how it ends: it returns or it throws.

`Streaming.run` is what a handler that keeps its connection can write: on a socket that accepts
writes, the frames of the events it sends while the connection is alive, and nothing else.
-/

namespace FalconHTTP

open Occurrence FiniteMap

/-- A server-sent event connection. -/
structure SseConnection where
  /-- The owned connection. -/
  connection : Connection
  /-- Whether no write has failed and it has not been closed. -/
  alive : Bool

namespace SseConnection

/-! ### Writing -/

/-- The loop over the lines of the data, from `start` on. -/
def appendDataLines (data : Bytes) : ℕ → ℕ → Bytes → Bytes
  | 0, _, frame => frame
  | fuel + 1, start, frame =>
    match indexFrom? [10] data start with
    | none => frame ++ ascii "data: " ++ data.drop start ++ ascii "\n"
    | some newline =>
      let line := (data.drop start).take (newline - start)
      appendDataLines data fuel (newline + 1) (frame ++ ascii "data: " ++ line ++ ascii "\n")

/-- The frame of one event. -/
def eventFrame (event data : Bytes) : Bytes :=
  let frame := if event = [] then [] else ascii "event: " ++ event ++ ascii "\n"
  appendDataLines data (data.length + 1) 0 frame ++ ascii "\n"

example : eventFrame (ascii "tick") (ascii "a\nb") =
    ascii "event: tick\ndata: a\ndata: b\n\n" := by decide +kernel

variable {M : Type} [FiniteMap M Bytes Bytes]

/-- The preamble of a stream. -/
def preamble (extraHeaders : M) : Bytes :=
  let preamble := ascii "HTTP/1.1 200 OK\r\n" ++ ascii "Content-Type: text/event-stream\r\n" ++
    ascii "Cache-Control: no-cache\r\n" ++ ascii "Connection: close\r\n"
  (entries extraHeaders).foldl
    (fun preamble entry ↦ preamble ++ entry.1 ++ ascii ": " ++ entry.2 ++ crlf) preamble ++ crlf

/-- Take ownership of a connection and write the preamble. -/
def new (connection : Connection) (extraHeaders : M) (endpoint : Endpoint) :
    SseConnection × Endpoint :=
  -- a preamble that cannot be written leaves a stream that is dead from the start
  let (alive, endpoint) := connection.sendAll (preamble extraHeaders) endpoint
  (⟨connection, alive⟩, endpoint)

/-- Frame and send one event. -/
def send (sse : SseConnection) (event data : Bytes) (endpoint : Endpoint) :
    Bool × SseConnection × Endpoint :=
  if ¬ sse.alive then (false, sse, endpoint)
  else
    -- the connection stays open when a write fails: only the flag is cleared
    match sse.connection.sendAll (eventFrame event data) endpoint with
    | (true, endpoint) => (true, sse, endpoint)
    | (false, endpoint) => (false, { sse with alive := false }, endpoint)

/-- Close the connection and mark it dead. -/
def close (sse : SseConnection) (endpoint : Endpoint) : SseConnection × Endpoint :=
  let (connection, endpoint) := sse.connection.close endpoint
  (⟨connection, false⟩, endpoint)

/-- What a move leaves behind: the connection is gone, the flag is copied. -/
def movedFrom (sse : SseConnection) : SseConnection :=
  { sse with connection := .movedFrom }

/-- The destructor closes the connection, if it is still open. -/
def destroy (sse : SseConnection) (endpoint : Endpoint) : Endpoint :=
  (sse.connection.close endpoint).2

/-! ### Writing to any socket -/

theorem preamble_ne_nil (extraHeaders : M) : preamble extraHeaders ≠ [] := by
  rw [preamble, crlf]
  simp

/-- **The constructor writes a prefix of the preamble**, and the stream is alive exactly when it is
all of it. -/
theorem new_spec (connection : Connection) (extraHeaders : M) (endpoint : Endpoint) :
    ∃ accepted endpoint', new connection extraHeaders endpoint =
        (⟨connection, decide (accepted = preamble extraHeaders)⟩, endpoint') ∧
      accepted <+: preamble extraHeaders ∧ endpoint.Took accepted endpoint' := by
  obtain ⟨accepted, endpoint', hsend, hprefix, htook⟩ :=
    connection.sendAll_spec (preamble extraHeaders) endpoint
  refine ⟨accepted, endpoint', ?_, hprefix, htook⟩
  rw [new, hsend]

/-- A stream that is not alive sends nothing. -/
theorem send_of_not_alive {sse : SseConnection} (halive : sse.alive = false) (event data : Bytes)
    (endpoint : Endpoint) : sse.send event data endpoint = (false, sse, endpoint) :=
  if_pos (by simp [halive])

/-- **A send on a live stream writes a prefix of the frame**, and the stream stays alive exactly
when it is all of it. -/
theorem send_of_alive {sse : SseConnection} (halive : sse.alive = true) (event data : Bytes)
    (endpoint : Endpoint) :
    ∃ accepted endpoint', sse.send event data endpoint =
        (decide (accepted = eventFrame event data),
          { sse with alive := decide (accepted = eventFrame event data) }, endpoint') ∧
      accepted <+: eventFrame event data ∧ endpoint.Took accepted endpoint' := by
  obtain ⟨accepted, endpoint', hsend, hprefix, htook⟩ :=
    sse.connection.sendAll_spec (eventFrame event data) endpoint
  refine ⟨accepted, endpoint', ?_, hprefix, htook⟩
  rw [send, if_neg (by simp [halive]), hsend]
  rcases hwhole : decide (accepted = eventFrame event data) with - | -
  · rfl
  · have hself : { sse with alive := true } = sse := by rw [← halive]
    rw [hself]

/-- Closing writes nothing. -/
theorem sent_close (sse : SseConnection) (endpoint : Endpoint) :
    (sse.close endpoint).2.sent = endpoint.sent := by
  rw [close]
  by_cases hopen : sse.connection.isOpen
  · rw [Connection.close_of_isOpen hopen]
  · rw [Connection.close_of_not_isOpen hopen]

/-- A send that succeeds has written its frame. -/
theorem sent_of_send {sse : SseConnection} {event data : Bytes} {endpoint : Endpoint}
    (hsend : (sse.send event data endpoint).1 = true) :
    (sse.send event data endpoint).2.2.sent = endpoint.sent ++ eventFrame event data := by
  rcases halive : sse.alive with - | -
  · rw [send_of_not_alive halive] at hsend
    exact absurd hsend (by simp)
  · obtain ⟨accepted, endpoint', hres, -, htook⟩ := send_of_alive halive event data endpoint
    rw [hres] at hsend ⊢
    rw [← of_decide_eq_true hsend]
    exact htook.sent

end SseConnection

/-! ### Stream handlers -/

/-- What a stream handler can do with its connection. -/
inductive SseOp
  /-- Send an event. -/
  | send (event data : Bytes)
  /-- Ask whether the connection is alive. -/
  | isConnected
  /-- Close the connection. -/
  | close
  /-- Move the connection away. -/
  | moveAway

/-- What the calls answer. -/
def SseOp.Res : SseOp → Type
  | send _ _ => Bool
  | isConnected => Bool
  | close => Unit
  | moveAway => Unit

/-- A stream handler at work: it returns or throws. -/
abbrev StreamProgram := Interaction SseOp SseOp.Res (Except Exn Unit)

/-- The connection under a stream handler's calls. -/
def sseCall (op : SseOp) (s : SseConnection × Endpoint) : op.Res × SseConnection × Endpoint :=
  match op with
  | .send event data => s.1.send event data s.2
  | .isConnected => (s.1.alive, s)
  | .close => ((), s.1.close s.2)
  | .moveAway => ((), s.1.movedFrom, s.2)

/-- The events of a run of calls that were sent while the connection was alive. -/
def sentEvents (calls : List (SseOp × SseConnection × Endpoint)) : List (Bytes × Bytes) :=
  calls.filterMap fun c ↦
    match c.1 with
    | .send event data => if c.2.1.alive then some (event, data) else none
    | _ => none

@[simp] theorem sentEvents_cons (c : SseOp × SseConnection × Endpoint)
    (calls : List (SseOp × SseConnection × Endpoint)) :
    sentEvents (c :: calls) = sentEvents [c] ++ sentEvents calls :=
  List.filterMap_append (l := [c])

/-- The frames of a list of events. -/
def frames (events : List (Bytes × Bytes)) : Bytes :=
  events.flatMap fun e ↦ SseConnection.eventFrame e.1 e.2

/-- The call keeps the connection where it is. -/
def SseOp.Keeps (op : SseOp) : Prop :=
  op ≠ .moveAway

/-! ### Streams on a socket that accepts writes -/

/-- A stream whose writes succeed: it is alive as long as it owns its connection, and the descriptor
is open just as long. -/
structure Streaming (s : SseConnection × Endpoint) : Prop where
  /-- The socket accepts writes. -/
  accepts : s.2.AcceptsWrites
  /-- The flag tells whether the connection is open. -/
  alive_eq : s.1.alive = s.1.connection.isOpen
  /-- The descriptor is closed with the connection. -/
  closed_eq : s.2.closed = !s.1.alive

/-- A new stream on an open connection has written its preamble. -/
theorem SseConnection.streaming_new {M : Type} [FiniteMap M Bytes Bytes] {connection : Connection}
    {endpoint : Endpoint} (hopen : connection.isOpen) (haccepts : endpoint.AcceptsWrites)
    (hclosed : endpoint.closed = false) (extraHeaders : M) :
    Streaming (SseConnection.new connection extraHeaders endpoint) ∧
      (SseConnection.new connection extraHeaders endpoint).2.sent =
        endpoint.sent ++ preamble extraHeaders := by
  obtain ⟨endpoint', hsend, hwrote⟩ :=
    Connection.sendAll_of_acceptsWrites hopen haccepts (preamble extraHeaders)
  rw [SseConnection.new, hsend]
  exact ⟨⟨hwrote.accepts, hopen.symm, hwrote.closed.trans hclosed⟩, hwrote.sent⟩

/-- What one call does to a stream whose writes succeed. -/
theorem Streaming.sseCall {s : SseConnection × Endpoint} (h : Streaming s) {op : SseOp}
    (hop : op.Keeps) :
    Streaming (sseCall op s).2 ∧
      (sseCall op s).2.2.sent = s.2.sent ++ frames (sentEvents [(op, s)]) := by
  obtain ⟨sse, endpoint⟩ := s
  cases op with
  | send event data =>
    by_cases halive : sse.alive = true
    · have hopen : sse.connection.isOpen := h.alive_eq ▸ halive
      obtain ⟨endpoint', hsend, hwrote⟩ := Connection.sendAll_of_acceptsWrites hopen h.accepts
        (SseConnection.eventFrame event data)
      have hcall : FalconHTTP.sseCall (.send event data) (sse, endpoint) =
          (true, sse, endpoint') := by
        show sse.send event data endpoint = _
        rw [SseConnection.send, if_neg (by simp [halive]), hsend]
      rw [hcall]
      refine ⟨⟨hwrote.accepts, h.alive_eq, hwrote.closed.trans h.closed_eq⟩, ?_⟩
      rw [hwrote.sent]
      simp [sentEvents, frames, halive]
    · have hcall : FalconHTTP.sseCall (.send event data) (sse, endpoint) =
          (false, sse, endpoint) := if_pos halive
      rw [hcall]
      exact ⟨h, by simp [sentEvents, frames, halive]⟩
  | isConnected => exact ⟨h, (List.append_nil _).symm⟩
  | close =>
    have hcall : (FalconHTTP.sseCall .close (sse, endpoint)).2 = sse.close endpoint := rfl
    rw [hcall, SseConnection.close]
    by_cases hopen : sse.connection.isOpen
    · rw [Connection.close_of_isOpen hopen]
      exact ⟨⟨h.accepts, rfl, rfl⟩, (List.append_nil _).symm⟩
    · have hnot : sse.connection.isOpen = false := by simpa using hopen
      have hdead : sse.alive = false := h.alive_eq.trans hnot
      have hclosed : endpoint.closed = !sse.alive := h.closed_eq
      rw [Connection.close_of_not_isOpen hopen]
      rw [hdead] at hclosed
      exact ⟨⟨h.accepts, hnot.symm, hclosed⟩, (List.append_nil _).symm⟩
  | moveAway => exact absurd rfl hop

/-- **What a handler writes** that keeps its connection: the frames of the events it sends while the
connection is alive. -/
theorem Streaming.run {p : StreamProgram} (hp : p.CallsOnly SseOp.Keeps)
    {s : SseConnection × Endpoint} (h : Streaming s) :
    Streaming (p.run FalconHTTP.sseCall s).2 ∧
      (p.run FalconHTTP.sseCall s).2.2.sent =
        s.2.sent ++ frames (sentEvents (p.calls FalconHTTP.sseCall s)) := by
  induction p generalizing s with
  | done result => exact ⟨h, (List.append_nil _).symm⟩
  | call op next ih =>
    obtain ⟨hstep, hsent⟩ := h.sseCall hp.1
    obtain ⟨hrun, hsent'⟩ := ih _ (hp.2 _) hstep
    refine ⟨hrun, ?_⟩
    rw [Interaction.calls_call, sentEvents_cons, frames, List.flatMap_append, ← List.append_assoc,
      ← frames, ← frames, ← hsent]
    exact hsent'

/-- The destructor closes the descriptor of a stream that still owns it. -/
theorem Streaming.destroy {s : SseConnection × Endpoint} (h : Streaming s) :
    (s.1.destroy s.2).closed = true ∧ (s.1.destroy s.2).sent = s.2.sent := by
  rw [SseConnection.destroy]
  by_cases hopen : s.1.connection.isOpen
  · rw [Connection.close_of_isOpen hopen]
    exact ⟨rfl, rfl⟩
  · rw [Connection.close_of_not_isOpen hopen]
    refine ⟨?_, rfl⟩
    rw [h.closed_eq, h.alive_eq]
    simpa using hopen

/-! ### Streams without a connection -/

/-- A stream that owns no connection and knows it. -/
structure Disconnected (s : SseConnection × Endpoint) : Prop where
  /-- The connection is not open. -/
  not_isOpen : s.1.connection.isOpen = false
  /-- The flag is cleared. -/
  not_alive : s.1.alive = false

/-- A stream built from a connection that was moved away writes nothing. -/
theorem SseConnection.disconnected_new {M : Type} [FiniteMap M Bytes Bytes]
    {connection : Connection} (hopen : connection.isOpen = false) (extraHeaders : M)
    (endpoint : Endpoint) :
    Disconnected (SseConnection.new connection extraHeaders endpoint) ∧
      (SseConnection.new connection extraHeaders endpoint).2 = endpoint := by
  have hpreamble := preamble_ne_nil extraHeaders
  rw [SseConnection.new, Connection.sendAll_of_not_isOpen (by simp [hopen])]
  exact ⟨⟨hopen, by simpa using hpreamble⟩, rfl⟩

/-- Whatever a handler does with a stream without a connection, nothing is written. -/
theorem Disconnected.run {p : StreamProgram} {s : SseConnection × Endpoint} (h : Disconnected s) :
    Disconnected (p.run sseCall s).2 ∧ (p.run sseCall s).2.2 = s.2 := by
  refine Interaction.run_invariant (I := fun t ↦ Disconnected t ∧ t.2 = s.2) ?_ ⟨h, rfl⟩
  rintro op ⟨sse, endpoint⟩ ⟨ht, hendpoint⟩
  cases op with
  | send event data =>
    have hcall : FalconHTTP.sseCall (.send event data) (sse, endpoint) = (false, sse, endpoint) :=
      if_pos (by simp [show sse.alive = false from ht.not_alive])
    rw [hcall]
    exact ⟨ht, hendpoint⟩
  | isConnected => exact ⟨ht, hendpoint⟩
  | close =>
    have hcall : (FalconHTTP.sseCall .close (sse, endpoint)).2 = sse.close endpoint := rfl
    rw [hcall, SseConnection.close, Connection.close_of_not_isOpen (by simp [ht.not_isOpen])]
    exact ⟨⟨ht.not_isOpen, rfl⟩, hendpoint⟩
  | moveAway => exact ⟨⟨rfl, ht.not_alive⟩, hendpoint⟩

theorem Disconnected.destroy {s : SseConnection × Endpoint} (h : Disconnected s) :
    s.1.destroy s.2 = s.2 := by
  rw [SseConnection.destroy, Connection.close_of_not_isOpen (by simp [h.not_isOpen])]

end FalconHTTP
