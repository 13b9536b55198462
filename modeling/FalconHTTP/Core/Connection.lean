import FalconHTTP.HTTP.Message

/-!
# Sockets and connections

The operating system's side of one accepted socket is an `Endpoint`: the data its `recv` calls will
deliver, the results its `send` calls will have, the bytes it has accepted so far, and whether the
descriptor has been closed. A `Socket` owns a descriptor or none; a `Connection` wraps a socket.

A receive delivers a `Chunk`: at least one byte and at most as many as were asked for. Once the
chunks are used up the peer has closed or the socket has failed, and every later receive says so.
The results listed for `send` are those of the calls that are not interrupted (`Socket::send`
retries on `EINTR`); past the list the socket accepts everything. Every finite run of sends is one
of these lists.
-/

namespace FalconHTTP

/-- Bytes requested by one receive, on either side of a connection. -/
def defaultReadChunk : ℕ := 4096

/-- What one receive delivers: at least one byte, at most `limit`. -/
structure Chunk (limit : ℕ) where
  /-- The bytes. -/
  bytes : Bytes
  /-- A receive that returns data returns some. -/
  ne_nil : bytes ≠ []
  /-- A receive returns at most what was asked for. -/
  length_le : bytes.length ≤ limit

/-- The chunks a receiver gets from one connection, in order. -/
abbrev Chunks := List (Chunk defaultReadChunk)

/-- The stream that chunks cut into pieces. -/
def Chunks.stream (chunks : Chunks) : Bytes :=
  (chunks.map Chunk.bytes).flatten

@[simp] theorem Chunks.stream_nil : Chunks.stream [] = [] := rfl

@[simp] theorem Chunks.stream_cons (c : Chunk defaultReadChunk) (cs : Chunks) :
    Chunks.stream (c :: cs) = c.bytes ++ Chunks.stream cs := rfl

/-- How the incoming data ends. -/
inductive StreamEnd
  /-- The peer closed: receives return `0`. -/
  | eof
  /-- The socket failed or timed out: receives return a negative value. -/
  | error
  deriving DecidableEq

/-- The operating system's side of one connected socket. -/
structure Endpoint where
  /-- The data that receives will deliver. -/
  incoming : Chunks
  /-- What receives return once the data is used up. -/
  ending : StreamEnd
  /-- The results of the sends to come. -/
  sendResults : List ℤ
  /-- The bytes accepted so far. -/
  sent : Bytes
  /-- Whether the descriptor has been closed. -/
  closed : Bool

namespace Endpoint

/-- One `send` on the open descriptor: a positive result is capped by what was offered. -/
def send (endpoint : Endpoint) (data : Bytes) : ℤ × Endpoint :=
  match endpoint.sendResults with
  | [] => (data.length, { endpoint with sent := endpoint.sent ++ data })
  | result :: results =>
    if result ≤ 0 then (result, { endpoint with sendResults := results })
    else
      let accepted := min result.toNat data.length
      (accepted, { endpoint with
        sendResults := results, sent := endpoint.sent ++ data.take accepted })

/-- One `recv` on the open descriptor: the next chunk, or how the data ends. -/
def receive (endpoint : Endpoint) : Except StreamEnd Bytes × Endpoint :=
  match endpoint.incoming with
  | [] => (.error endpoint.ending, endpoint)
  | chunk :: chunks => (.ok chunk.bytes, { endpoint with incoming := chunks })

/-- The socket accepts writes: no send to come fails. -/
def AcceptsWrites (endpoint : Endpoint) : Prop :=
  ∀ result ∈ endpoint.sendResults, 0 < result

instance (endpoint : Endpoint) : Decidable endpoint.AcceptsWrites :=
  inferInstanceAs (Decidable (∀ result ∈ endpoint.sendResults, 0 < result))

end Endpoint

/-- A socket: the descriptor it owns, or none (`invalidHandle`). -/
structure Socket where
  /-- The owned descriptor. -/
  fd : Option ℕ
  deriving DecidableEq

namespace Socket

/-- Whether the socket owns a descriptor. -/
def isValid (socket : Socket) : Bool :=
  socket.fd.isSome

/-- A send; without a descriptor the system call fails. -/
def send (socket : Socket) (data : Bytes) (endpoint : Endpoint) : ℤ × Endpoint :=
  match socket.fd with
  | none => (-1, endpoint)
  | some _ => endpoint.send data

/-- A receive; without a descriptor the system call fails. -/
def receive (socket : Socket) (endpoint : Endpoint) : Except StreamEnd Bytes × Endpoint :=
  match socket.fd with
  | none => (.error .error, endpoint)
  | some _ => endpoint.receive

/-- The write loop of `Connection::sendAll` and of `HttpClient::send`: each turn offers what has not
been accepted yet, and the first result that is not positive ends the loop. -/
def writeLoop (socket : Socket) (data : Bytes) : ℕ → ℕ → Endpoint → Bool × Endpoint
  | 0, _, endpoint => (true, endpoint)
  | fuel + 1, totalSent, endpoint =>
    if totalSent < data.length then
      let (sent, endpoint) := socket.send (data.drop totalSent) endpoint
      if sent ≤ 0 then (false, endpoint)
      else writeLoop socket data fuel (totalSent + sent.toNat) endpoint
    else (true, endpoint)

/-- Close the owned descriptor, if any. -/
def close (socket : Socket) (endpoint : Endpoint) : Socket × Endpoint :=
  match socket.fd with
  | none => (socket, endpoint)
  | some _ => (⟨none⟩, { endpoint with closed := true })

end Socket

/-- A connection. -/
structure Connection where
  /-- The socket it wraps. -/
  socket : Socket
  deriving DecidableEq

namespace Connection

/-- Whether the connection's socket owns a descriptor. -/
def isOpen (connection : Connection) : Bool :=
  connection.socket.isValid

/-- The connection a move leaves behind. -/
def movedFrom : Connection := ⟨⟨none⟩⟩

/-- Write all bytes, or stop at the first failure. -/
def sendAll (connection : Connection) (data : Bytes) (endpoint : Endpoint) : Bool × Endpoint :=
  connection.socket.writeLoop data data.length 0 endpoint

/-- One read of at most `defaultReadChunk` bytes; empty at the end of the data and on failure. -/
def receiveAvailable (connection : Connection) (endpoint : Endpoint) : Bytes × Endpoint :=
  match connection.socket.receive endpoint with
  | (.ok buffer, endpoint) => (buffer, endpoint)
  | (.error _, endpoint) => ([], endpoint)

/-- Close the connection. -/
def close (connection : Connection) (endpoint : Endpoint) : Connection × Endpoint :=
  let (socket, endpoint) := connection.socket.close endpoint
  (⟨socket⟩, endpoint)

end Connection

/-! ### Writing -/

namespace Endpoint

/-- A write of `data` went through, and the socket still accepts writes. -/
structure Wrote (data : Bytes) (endpoint endpoint' : Endpoint) : Prop where
  /-- Nothing was received. -/
  incoming : endpoint'.incoming = endpoint.incoming
  /-- The incoming data still ends the same way. -/
  ending : endpoint'.ending = endpoint.ending
  /-- The data was accepted, after what had been accepted before. -/
  sent : endpoint'.sent = endpoint.sent ++ data
  /-- The descriptor was not closed. -/
  closed : endpoint'.closed = endpoint.closed
  /-- No send to come fails. -/
  accepts : endpoint'.AcceptsWrites

theorem Wrote.nil {endpoint : Endpoint} (haccepts : endpoint.AcceptsWrites) :
    Wrote [] endpoint endpoint :=
  ⟨rfl, rfl, (List.append_nil _).symm, rfl, haccepts⟩

theorem Wrote.trans {data data' : Bytes} {e e' e'' : Endpoint} (h : Wrote data e e')
    (h' : Wrote data' e' e'') : Wrote (data ++ data') e e'' :=
  ⟨h'.incoming.trans h.incoming, h'.ending.trans h.ending,
    by rw [h'.sent, h.sent, List.append_assoc], h'.closed.trans h.closed, h'.accepts⟩

/-- A send to a socket that accepts writes accepts a nonempty prefix of what is offered. -/
theorem send_of_acceptsWrites {endpoint : Endpoint} (haccepts : endpoint.AcceptsWrites)
    {data : Bytes} (hdata : data ≠ []) :
    ∃ accepted endpoint', 0 < accepted ∧ endpoint.send data = (Int.ofNat accepted, endpoint') ∧
      Wrote (data.take accepted) endpoint endpoint' := by
  have hpos := List.length_pos_iff.2 hdata
  rcases hresults : endpoint.sendResults with - | ⟨result, results⟩
  · refine ⟨data.length, { endpoint with sent := endpoint.sent ++ data }, hpos, ?_, ?_⟩
    · rw [send, hresults]
      rfl
    · exact ⟨rfl, rfl, by rw [List.take_length], rfl, haccepts⟩
  · have hresult : 0 < result := haccepts result (hresults ▸ List.mem_cons_self)
    refine ⟨min result.toNat data.length, { endpoint with
      sendResults := results, sent := endpoint.sent ++ data.take (min result.toNat data.length) },
      by omega, ?_, ?_⟩
    · rw [send, hresults]
      exact if_neg (Int.not_le.2 hresult)
    · exact ⟨rfl, rfl, rfl, rfl, fun r hr ↦ haccepts r (hresults ▸ List.mem_cons_of_mem _ hr)⟩

end Endpoint

/-- **The write loop writes everything** to a socket that accepts writes. -/
theorem Socket.writeLoop_of_acceptsWrites {socket : Socket} (hvalid : socket.isValid)
    (data : Bytes) {fuel totalSent : ℕ} (hfuel : data.length ≤ totalSent + fuel)
    {endpoint : Endpoint} (haccepts : endpoint.AcceptsWrites) :
    ∃ endpoint', socket.writeLoop data fuel totalSent endpoint = (true, endpoint') ∧
      endpoint.Wrote (data.drop totalSent) endpoint' := by
  induction fuel generalizing totalSent endpoint with
  | zero =>
    refine ⟨endpoint, rfl, ?_⟩
    rw [List.drop_of_length_le (show data.length ≤ totalSent from hfuel)]
    exact Endpoint.Wrote.nil haccepts
  | succ fuel ih =>
    rw [writeLoop]
    by_cases hlt : totalSent < data.length
    · have hdata : data.drop totalSent ≠ [] := by
        rw [ne_eq, List.drop_eq_nil_iff]
        omega
      obtain ⟨accepted, endpoint₁, hpos, hsend, hwrote⟩ :=
        Endpoint.send_of_acceptsWrites haccepts hdata
      obtain ⟨fd, hfd⟩ := Option.isSome_iff_exists.1 hvalid
      have hsocket : socket.send (data.drop totalSent) endpoint =
          (Int.ofNat accepted, endpoint₁) := by
        rw [Socket.send, hfd]
        exact hsend
      obtain ⟨endpoint₂, hloop, hwrote'⟩ :=
        ih (show data.length ≤ totalSent + accepted + fuel by omega) hwrote.accepts
      refine ⟨endpoint₂, ?_, ?_⟩
      · rw [if_pos hlt, hsocket]
        have hpositive : ¬ Int.ofNat accepted ≤ 0 := Int.not_le.2 (Int.natCast_pos.2 hpos)
        exact (if_neg hpositive).trans hloop
      · have hall := hwrote.trans hwrote'
        rwa [← List.drop_drop, List.take_append_drop] at hall
    · refine ⟨endpoint, if_neg hlt, ?_⟩
      rw [List.drop_of_length_le (Nat.le_of_not_lt hlt)]
      exact Endpoint.Wrote.nil haccepts

/-- A connection that is open writes everything to a socket that accepts writes. -/
theorem Connection.sendAll_of_acceptsWrites {connection : Connection} (hopen : connection.isOpen)
    {endpoint : Endpoint} (haccepts : endpoint.AcceptsWrites) (data : Bytes) :
    ∃ endpoint', connection.sendAll data endpoint = (true, endpoint') ∧
      endpoint.Wrote data endpoint' :=
  Socket.writeLoop_of_acceptsWrites hopen data (Nat.le_add_left _ _) haccepts

/-- A connection that has been moved away or closed writes nothing, and fails unless there is
nothing to write. -/
theorem Connection.sendAll_of_not_isOpen {connection : Connection} (hopen : ¬ connection.isOpen)
    (data : Bytes) (endpoint : Endpoint) :
    connection.sendAll data endpoint = (data.isEmpty, endpoint) := by
  have hfd : connection.socket.fd = none := Option.not_isSome_iff_eq_none.1 hopen
  rw [sendAll]
  cases data with
  | nil => rfl
  | cons c data =>
    rw [List.length_cons, Socket.writeLoop, Socket.send, hfd]
    rfl

/-! ### Writing to any socket -/

namespace Endpoint

/-- The endpoint took `accepted`, and nothing but its sends has moved on. -/
structure Took (accepted : Bytes) (endpoint endpoint' : Endpoint) : Prop where
  /-- Nothing was received. -/
  incoming : endpoint'.incoming = endpoint.incoming
  /-- The incoming data still ends the same way. -/
  ending : endpoint'.ending = endpoint.ending
  /-- The bytes were accepted, after what had been accepted before. -/
  sent : endpoint'.sent = endpoint.sent ++ accepted
  /-- The descriptor was not closed. -/
  closed : endpoint'.closed = endpoint.closed

theorem Took.nil (endpoint : Endpoint) : Took [] endpoint endpoint :=
  ⟨rfl, rfl, (List.append_nil _).symm, rfl⟩

theorem Took.trans {data data' : Bytes} {e e' e'' : Endpoint} (h : Took data e e')
    (h' : Took data' e' e'') : Took (data ++ data') e e'' :=
  ⟨h'.incoming.trans h.incoming, h'.ending.trans h.ending,
    by rw [h'.sent, h.sent, List.append_assoc], h'.closed.trans h.closed⟩

/-- A send takes a nonempty prefix of what is offered, or fails and takes nothing. -/
theorem send_spec (endpoint : Endpoint) {data : Bytes} (hdata : data ≠ []) :
    (∃ accepted endpoint', 0 < accepted ∧ endpoint.send data = (Int.ofNat accepted, endpoint') ∧
      Took (data.take accepted) endpoint endpoint') ∨
    ∃ result endpoint', result ≤ 0 ∧ endpoint.send data = (result, endpoint') ∧
      Took [] endpoint endpoint' := by
  have hpos := List.length_pos_iff.2 hdata
  rcases hresults : endpoint.sendResults with - | ⟨result, results⟩
  · refine Or.inl ⟨data.length, { endpoint with sent := endpoint.sent ++ data }, hpos, ?_, ?_⟩
    · rw [send, hresults]
      rfl
    · exact ⟨rfl, rfl, by rw [List.take_length], rfl⟩
  · by_cases hresult : result ≤ 0
    · refine Or.inr ⟨result, { endpoint with sendResults := results }, hresult, ?_, ?_⟩
      · rw [send, hresults]
        exact if_pos hresult
      · exact ⟨rfl, rfl, (List.append_nil _).symm, rfl⟩
    · refine Or.inl ⟨min result.toNat data.length, { endpoint with
        sendResults := results, sent := endpoint.sent ++ data.take (min result.toNat data.length) },
        by omega, ?_, ⟨rfl, rfl, rfl, rfl⟩⟩
      rw [send, hresults]
      exact if_neg hresult

end Endpoint

/-- **The write loop writes a prefix**, and reports success exactly when the prefix is all there
was. -/
theorem Socket.writeLoop_spec (socket : Socket) (data : Bytes) {fuel totalSent : ℕ}
    (hfuel : data.length ≤ totalSent + fuel) (endpoint : Endpoint) :
    ∃ accepted endpoint', socket.writeLoop data fuel totalSent endpoint =
        (decide (accepted = data.drop totalSent), endpoint') ∧
      accepted <+: data.drop totalSent ∧ endpoint.Took accepted endpoint' := by
  induction fuel generalizing totalSent endpoint with
  | zero =>
    have hdone : data.drop totalSent = [] := List.drop_of_length_le hfuel
    exact ⟨[], endpoint, by simp [writeLoop, hdone], List.nil_prefix, Endpoint.Took.nil endpoint⟩
  | succ fuel ih =>
    rw [writeLoop]
    by_cases hlt : totalSent < data.length
    · have hdata : data.drop totalSent ≠ [] := by
        rw [ne_eq, List.drop_eq_nil_iff]
        omega
      rw [if_pos hlt]
      rcases hfd : socket.fd with - | fd
      · -- without a descriptor the first send fails
        have hsend : socket.send (data.drop totalSent) endpoint = (-1, endpoint) := by
          rw [Socket.send, hfd]
        refine ⟨[], endpoint, ?_, List.nil_prefix, Endpoint.Took.nil endpoint⟩
        rw [hsend, decide_eq_false fun hnil ↦ hdata hnil.symm]
        rfl
      · have hsend : socket.send (data.drop totalSent) endpoint =
            endpoint.send (data.drop totalSent) := by
          rw [Socket.send, hfd]
        rw [hsend]
        rcases Endpoint.send_spec endpoint hdata with
          ⟨accepted, endpoint₁, hpos, hres, htook⟩ | ⟨result, endpoint₁, hfail, hres, htook⟩
        · obtain ⟨rest, endpoint₂, hloop, hprefix, htook'⟩ :=
            ih (show data.length ≤ totalSent + accepted + fuel by omega) endpoint₁
          have hsplit : data.drop totalSent =
              (data.drop totalSent).take accepted ++ data.drop (totalSent + accepted) := by
            rw [← List.drop_drop, List.take_append_drop]
          refine ⟨(data.drop totalSent).take accepted ++ rest, endpoint₂, ?_, ?_,
            htook.trans htook'⟩
          · have hpositive : ¬ Int.ofNat accepted ≤ 0 := Int.not_le.2 (Int.natCast_pos.2 hpos)
            have hall : (data.drop totalSent).take accepted ++ rest = data.drop totalSent ↔
                rest = data.drop (totalSent + accepted) :=
              ⟨fun h ↦ List.append_cancel_left (h.trans hsplit), fun h ↦ by rw [h, ← hsplit]⟩
            rw [hres, decide_eq_decide.2 hall]
            exact (if_neg hpositive).trans hloop
          · have hwhole := (List.prefix_append_right_inj
              ((data.drop totalSent).take accepted)).2 hprefix
            rwa [← hsplit] at hwhole
        · refine ⟨[], endpoint₁, ?_, List.nil_prefix, htook⟩
          rw [hres, decide_eq_false fun hnil ↦ hdata hnil.symm]
          exact if_pos hfail
    · have hdone : data.drop totalSent = [] := List.drop_of_length_le (Nat.le_of_not_lt hlt)
      refine ⟨[], endpoint, ?_, List.nil_prefix, Endpoint.Took.nil endpoint⟩
      rw [if_neg hlt, hdone]
      rfl

/-- **A write takes a prefix of the data**, and succeeds exactly when it takes all of it. -/
theorem Connection.sendAll_spec (connection : Connection) (data : Bytes) (endpoint : Endpoint) :
    ∃ accepted endpoint', connection.sendAll data endpoint =
        (decide (accepted = data), endpoint') ∧
      accepted <+: data ∧ endpoint.Took accepted endpoint' :=
  Socket.writeLoop_spec connection.socket data (Nat.le_add_left _ _) endpoint

/-! ### Reading -/

/-- A receive on an open connection takes the next chunk. -/
theorem Connection.receiveAvailable_of_cons {connection : Connection} (hopen : connection.isOpen)
    {endpoint : Endpoint} {chunk : Chunk defaultReadChunk} {chunks : Chunks}
    (hincoming : endpoint.incoming = chunk :: chunks) :
    connection.receiveAvailable endpoint = (chunk.bytes, { endpoint with incoming := chunks }) := by
  obtain ⟨fd, hfd⟩ := Option.isSome_iff_exists.1 hopen
  rw [receiveAvailable, Socket.receive, hfd]
  simp only [Endpoint.receive, hincoming]

/-- **A receive is empty exactly at the end of the data**, so the chunks are all that the reading
loops see of a connection. -/
theorem Connection.receiveAvailable_eq_nil_iff {connection : Connection}
    (hopen : connection.isOpen) (endpoint : Endpoint) :
    (connection.receiveAvailable endpoint).1 = [] ↔ endpoint.incoming = [] := by
  rcases hincoming : endpoint.incoming with - | ⟨chunk, chunks⟩
  · obtain ⟨fd, hfd⟩ := Option.isSome_iff_exists.1 hopen
    rw [receiveAvailable, Socket.receive, hfd]
    simp [Endpoint.receive, hincoming]
  · rw [receiveAvailable_of_cons hopen hincoming]
    exact iff_of_false chunk.ne_nil (List.cons_ne_nil _ _)

/-! ### Closing -/

/-- Closing an open connection closes its descriptor. -/
theorem Connection.close_of_isOpen {connection : Connection} (hopen : connection.isOpen)
    (endpoint : Endpoint) :
    connection.close endpoint = (.movedFrom, { endpoint with closed := true }) := by
  obtain ⟨fd, hfd⟩ := Option.isSome_iff_exists.1 hopen
  rw [close, Socket.close, hfd]
  rfl

/-- Closing a connection that is not open does nothing. -/
theorem Connection.close_of_not_isOpen {connection : Connection} (hopen : ¬ connection.isOpen)
    (endpoint : Endpoint) : connection.close endpoint = (connection, endpoint) := by
  have hfd : connection.socket.fd = none := Option.not_isSome_iff_eq_none.1 hopen
  rw [close, Socket.close, hfd]

end FalconHTTP
