import FalconHTTP.Core.HandleOwnership
import FalconHTTP.Streaming.SseConnection

/-!
# Who streams on a socket

An `SseConnection` keeps a flag beside the connection that it describes. Both moves are defaulted:
they take the connection away from the object that is moved from, and copy the flag. So a move from
a stream that is alive leaves an object behind that says it is connected and has no socket.

This module follows any number of streams through whole programs. Their sockets are a program on
sockets, which keeps every handle with one owner (`balanced_of_run`). The flags agree with the
sockets throughout exactly when every move is from a stream that is dead (`connectedOwn_iff`).
-/

namespace FalconHTTP

open FiniteMap Ledger

variable {M : Type} [FiniteMap M Bytes Bytes]

namespace SseConnection

/-- `isConnected()`. -/
def isConnected (sse : SseConnection) : Bool :=
  sse.alive

/-- `SseConnection(SseConnection&&)`: the new stream, and the one moved from. -/
def moveConstruct (other : SseConnection) : SseConnection × SseConnection :=
  let (socket, left) := other.connection.socket.moveConstruct
  (⟨⟨socket⟩, other.alive⟩, ⟨⟨left⟩, other.alive⟩)

/-- `operator=(SseConnection&&)` of two streams. -/
def moveAssign (self other : SseConnection) (log : HandleLog) :
    SseConnection × SseConnection × HandleLog :=
  let (socket, left, log) := self.connection.socket.moveAssign other.connection.socket log
  (⟨⟨socket⟩, other.alive⟩, ⟨⟨left⟩, other.alive⟩, log)

/-- `close()`, with what happens to the handle. -/
def closeHandle (sse : SseConnection) (log : HandleLog) : SseConnection × HandleLog :=
  let (socket, log) := sse.connection.socket.closeHandle log
  (⟨⟨socket⟩, false⟩, log)

/-- A new stream that is connected has an open connection: the preamble is not empty. -/
theorem isOpen_of_new {connection : Connection} {extraHeaders : M} {endpoint : Endpoint}
    (h : (new connection extraHeaders endpoint).1.isConnected = true) :
    connection.isOpen = true := by
  by_contra hclosed
  have hsend := Connection.sendAll_of_not_isOpen hclosed (preamble extraHeaders) endpoint
  rw [isConnected, new, hsend] at h
  exact preamble_ne_nil extraHeaders (List.isEmpty_iff.1 h)

/-- A send leaves the connection in place, and may clear the flag. -/
theorem connection_send (sse : SseConnection) (event data : Bytes) (endpoint : Endpoint) :
    (sse.send event data endpoint).2.1.connection = sse.connection ∧
      ((sse.send event data endpoint).2.1.isConnected = true → sse.isConnected = true) := by
  rcases halive : sse.alive with - | -
  · rw [send_of_not_alive halive]
    exact ⟨rfl, id⟩
  · obtain ⟨accepted, endpoint', hsend, -⟩ := send_of_alive halive event data endpoint
    rw [hsend]
    exact ⟨rfl, fun _ ↦ halive⟩

end SseConnection

/-! ### Programs -/

/-- The streams of a program, and what happened to the handles. -/
structure StreamWorld where
  /-- The streams that have been constructed and not destroyed. -/
  streams : ℕ → Option SseConnection
  /-- What happened to the handles. -/
  log : HandleLog

/-- An operation on streams, by the names of the objects. A constructor and a send come with the
endpoint that they write to. -/
inductive StreamOp (M : Type)
  /-- Construction from a connection around a handle, or around none. -/
  | construct (i : ℕ) (fd : Option ℕ) (extraHeaders : M) (endpoint : Endpoint)
  /-- `send(event, data)`. -/
  | send (i : ℕ) (event data : Bytes) (endpoint : Endpoint)
  /-- `close()`. -/
  | close (i : ℕ)
  /-- Move construction of `i` from `j`. -/
  | moveConstruct (i j : ℕ)
  /-- Move assignment to `i` from `j`. -/
  | moveAssign (i j : ℕ)
  /-- Destruction. -/
  | destroy (i : ℕ)

namespace StreamWorld

/-- Replace a stream. -/
def put (w : StreamWorld) (i : ℕ) (sse : Option SseConnection) (log : HandleLog) : StreamWorld where
  streams := Function.update w.streams i sse
  log := log

/-- One operation. A stream is constructed where there is none, around a handle that is not open;
the other operations are on streams that there are. -/
def step (w : StreamWorld) : StreamOp M → Option StreamWorld
  | .construct i fd extraHeaders endpoint =>
    match w.streams i with
    | some _ => none
    | none =>
      if ∀ k ∈ fd, ¬ IsOut w.log k then
        let (socket, log) := Socket.adopt fd w.log
        some (w.put i (some (SseConnection.new ⟨socket⟩ extraHeaders endpoint).1) log)
      else none
  | .send i event data endpoint =>
    match w.streams i with
    | some sse => some (w.put i (some (sse.send event data endpoint).2.1) w.log)
    | none => none
  | .close i =>
    match w.streams i with
    | some sse =>
      let (sse, log) := sse.closeHandle w.log
      some (w.put i (some sse) log)
    | none => none
  | .moveConstruct i j =>
    match w.streams i, w.streams j with
    | none, some other =>
      let (sse, other) := other.moveConstruct
      some ((w.put j (some other) w.log).put i (some sse) w.log)
    | _, _ => none
  | .moveAssign i j =>
    match w.streams i, w.streams j with
    | some self, some other =>
      -- each member is assigned to itself: the socket guards against it, the flag keeps its value
      if i = j then some w
      else
        let (self, other, log) := self.moveAssign other w.log
        some ((w.put j (some other) log).put i (some self) log)
    | _, _ => none
  | .destroy i =>
    match w.streams i with
    | some sse =>
      -- the destructor of the connection closes
      let (_, log) := sse.closeHandle w.log
      some (w.put i none log)
    | none => none

/-- Programs on streams. -/
def program (M : Type) [FiniteMap M Bytes Bytes] : TransitionSystem StreamWorld (StreamOp M) where
  init := ⟨fun _ ↦ none, []⟩
  step := step

/-- What one operation can do. -/
inductive Stepped (w : StreamWorld) : StreamOp M → StreamWorld → Prop
  | construct {i : ℕ} {fd : Option ℕ} {extraHeaders : M} {endpoint : Endpoint}
      (hfree : w.streams i = none) (hfresh : ∀ k ∈ fd, ¬ IsOut w.log k) :
      Stepped w (.construct i fd extraHeaders endpoint)
        (w.put i (some (SseConnection.new ⟨⟨fd⟩⟩ extraHeaders endpoint).1)
          (w.log ++ fd.toList.map .acquired))
  | send {i : ℕ} {event data : Bytes} {endpoint : Endpoint} {sse : SseConnection}
      (hi : w.streams i = some sse) :
      Stepped w (.send i event data endpoint)
        (w.put i (some (sse.send event data endpoint).2.1) w.log)
  | close {i : ℕ} {sse : SseConnection} (hi : w.streams i = some sse) :
      Stepped w (.close i) (w.put i (some ⟨.movedFrom, false⟩)
        (w.log ++ sse.connection.socket.fd.toList.map .released))
  | moveConstruct {i j : ℕ} {other : SseConnection} (hi : w.streams i = none)
      (hj : w.streams j = some other) :
      Stepped w (.moveConstruct i j)
        ((w.put j (some other.movedFrom) w.log).put i (some other) w.log)
  | selfAssign {i : ℕ} {sse : SseConnection} (hi : w.streams i = some sse) :
      Stepped w (.moveAssign i i) w
  | moveAssign {i j : ℕ} {self other : SseConnection} (hij : i ≠ j) (hi : w.streams i = some self)
      (hj : w.streams j = some other) {log : HandleLog}
      (hlog : log = w.log ++ self.connection.socket.fd.toList.map .released) :
      Stepped w (.moveAssign i j) ((w.put j (some other.movedFrom) log).put i (some other) log)
  | destroy {i : ℕ} {sse : SseConnection} (hi : w.streams i = some sse) :
      Stepped w (.destroy i)
        (w.put i none (w.log ++ sse.connection.socket.fd.toList.map .released))

variable {w w' : StreamWorld} {i j : ℕ}

theorem streams_put_self (w : StreamWorld) (i : ℕ) (sse : Option SseConnection) (log : HandleLog) :
    (w.put i sse log).streams i = sse :=
  Function.update_self _ _ _

theorem streams_put_of_ne (h : j ≠ i) (sse : Option SseConnection) (log : HandleLog) :
    (w.put i sse log).streams j = w.streams j :=
  Function.update_of_ne h _ _

/-- **The step function does nothing else.** -/
theorem stepped_of_step {op : StreamOp M} (h : w.step op = some w') : Stepped w op w' := by
  cases op with
  | construct i fd extraHeaders endpoint =>
    rw [step] at h
    rcases hi : w.streams i with - | sse
    · simp only [hi, Socket.adopt_eq] at h
      split at h
      · rename_i hfresh
        obtain rfl := Option.some.inj h
        exact .construct hi hfresh
      · cases h
    · simp only [hi] at h
      cases h
  | send i event data endpoint =>
    rw [step] at h
    rcases hi : w.streams i with - | sse
    · simp only [hi] at h
      cases h
    · simp only [hi] at h
      obtain rfl := Option.some.inj h
      exact .send hi
  | close i =>
    rw [step] at h
    rcases hi : w.streams i with - | sse
    · simp only [hi] at h
      cases h
    · simp only [hi, SseConnection.closeHandle, Socket.closeHandle_eq] at h
      obtain rfl := Option.some.inj h
      exact .close hi
  | moveConstruct i j =>
    rw [step] at h
    split at h
    · rename_i other hi hj
      obtain rfl := Option.some.inj h
      exact .moveConstruct hi hj
    · cases h
  | moveAssign i j =>
    rw [step] at h
    split at h
    · rename_i self other hi hj
      split at h
      · rename_i heq
        obtain rfl := heq
        obtain rfl := Option.some.inj h
        exact .selfAssign hi
      · rename_i hij
        simp only [SseConnection.moveAssign, Socket.moveAssign, Socket.closeHandle_eq] at h
        obtain rfl := Option.some.inj h
        exact .moveAssign hij hi hj rfl
    · cases h
  | destroy i =>
    rw [step] at h
    rcases hi : w.streams i with - | sse
    · simp only [hi] at h
      cases h
    · simp only [hi, SseConnection.closeHandle, Socket.closeHandle_eq] at h
      obtain rfl := Option.some.inj h
      exact .destroy hi

/-! ### The sockets -/

/-- The sockets of the streams. -/
def sockets (w : StreamWorld) : SocketWorld where
  sockets i := (w.streams i).map fun sse ↦ sse.connection.socket
  log := w.log

theorem sockets_put (w : StreamWorld) (i : ℕ) (sse : Option SseConnection) (log : HandleLog) :
    (w.put i sse log).sockets =
      w.sockets.put i (sse.map fun sse ↦ sse.connection.socket) log := by
  rw [sockets, SocketWorld.put, SocketWorld.mk.injEq]
  refine ⟨?_, rfl⟩
  funext k
  show (Function.update w.streams i sse k).map _ = _
  rw [Function.update_apply, Function.update_apply]
  split
  · rfl
  · rfl

/-- **The sockets of a program on streams are a program on sockets**: every operation on streams is
one on their sockets, or leaves them alone. -/
theorem step_sockets {op : StreamOp M} (h : w.step op = some w') :
    w'.sockets = w.sockets ∨ ∃ socketOp, w.sockets.step socketOp = some w'.sockets := by
  have hsocket : ∀ i, w.sockets.sockets i = (w.streams i).map fun sse ↦ sse.connection.socket :=
    fun _ ↦ rfl
  cases stepped_of_step h with
  | @construct i fd extraHeaders endpoint hfree hfresh =>
    refine Or.inr ⟨.adopt i fd, ?_⟩
    have hdead : w.sockets.sockets i = none ∧ ∀ k ∈ fd, ¬ IsOut w.sockets.log k :=
      ⟨by rw [hsocket, hfree, Option.map_none], hfresh⟩
    rw [SocketWorld.step, if_pos hdead, Socket.adopt_eq, sockets_put]
    rfl
  | @send i event data endpoint sse hi =>
    refine Or.inl ?_
    have hkept : w.sockets.sockets i = some sse.connection.socket := by
      rw [hsocket, hi, Option.map_some]
    rw [sockets_put, Option.map_some, (sse.connection_send event data endpoint).1, ← hkept,
      SocketWorld.put, Function.update_eq_self]
    rfl
  | @close i sse hi =>
    refine Or.inr ⟨.close i, ?_⟩
    rw [SocketWorld.step, hsocket, hi, sockets_put]
    simp only [Option.map_some, Socket.closeHandle_eq]
    rfl
  | @moveConstruct i j other hi hj =>
    refine Or.inr ⟨.moveConstruct i j, ?_⟩
    rw [SocketWorld.step, hsocket, hsocket, hi, hj, sockets_put, sockets_put]
    rfl
  | selfAssign hi => exact Or.inl rfl
  | @moveAssign i j self other hij hi hj log hlog =>
    refine Or.inr ⟨.moveAssign i j, ?_⟩
    rw [SocketWorld.step, hsocket, hsocket, hi, hj, sockets_put, sockets_put, hlog]
    simp only [Option.map_some, if_neg hij, Socket.moveAssign, Socket.closeHandle_eq]
    rfl
  | @destroy i sse hi =>
    refine Or.inr ⟨.destroy i, ?_⟩
    rw [SocketWorld.step, hsocket, hi, sockets_put]
    simp only [Option.map_some, Socket.closeHandle_eq]
    rfl

/-- So no handle ever has two owners. -/
theorem balanced_of_run {ops : List (StreamOp M)} (h : (program M).run ops = some w) :
    Ledger.Balanced w.sockets.handle w.log := by
  refine TransitionSystem.run_induction (P := fun _ w ↦ Ledger.Balanced w.sockets.handle w.log) ?_
    (fun _ w op w' _ hw hstep ↦ ?_) h
  · exact Ledger.balanced_none
  · rcases step_sockets hstep with heq | ⟨socketOp, hsocketStep⟩
    · have hlog : w'.log = w.log := congrArg SocketWorld.log heq
      rwa [heq, hlog]
    · exact SocketWorld.balanced_step hw hsocketStep

/-! ### The flags -/

/-- The connection that a stream describes by its flag. -/
def Backed (sse : SseConnection) : Prop :=
  sse.isConnected = true → sse.connection.isOpen = true

/-- A stream that says it is connected has an open connection, and so no two of them say it of one
socket. -/
structure ConnectedOwn (w : StreamWorld) : Prop where
  /-- The flag is backed by the connection. -/
  backed : ∀ i sse, w.streams i = some sse → Backed sse
  /-- Streams that are connected by one handle are one stream. -/
  unique : ∀ i j sse sse' k, w.streams i = some sse → w.streams j = some sse' →
    sse.isConnected = true → sse'.isConnected = true → sse.connection.socket.fd = some k →
    sse'.connection.socket.fd = some k → i = j

/-- After the operation the streams that are connected own their sockets. -/
def OwnAfter (w : StreamWorld) (op : StreamOp M) : Prop :=
  ∀ w', w.step op = some w' → w'.ConnectedOwn

/-- The operation does not move a stream that is connected, other than to itself. -/
def MovesDead (w : StreamWorld) : StreamOp M → Prop
  | .moveConstruct _ j => ∀ sse, w.streams j = some sse → sse.isConnected = false
  | .moveAssign i j => i = j ∨ ∀ sse, w.streams j = some sse → sse.isConnected = false
  | .construct _ _ _ _ => True
  | .send _ _ _ _ => True
  | .close _ => True
  | .destroy _ => True

/-- Replacing a stream by one whose flag is backed. -/
theorem backed_put (hw : ∀ i sse, w.streams i = some sse → Backed sse) {i : ℕ}
    {replaced : Option SseConnection} (hreplaced : ∀ sse ∈ replaced, Backed sse) (log : HandleLog) :
    ∀ j sse, (w.put i replaced log).streams j = some sse → Backed sse := by
  intro j sse hj
  rcases eq_or_ne j i with rfl | hji
  · rw [streams_put_self] at hj
    exact hreplaced sse hj
  · rw [streams_put_of_ne hji] at hj
    exact hw j sse hj

/-- Moving a stream that is not connected: neither object is connected afterwards. -/
theorem backed_put_moved (hw : ∀ i sse, w.streams i = some sse → Backed sse) {i j : ℕ}
    {other : SseConnection} (hdead : other.isConnected = false) (log log' : HandleLog) :
    ∀ k sse, ((w.put j (some other.movedFrom) log).put i (some other) log').streams k = some sse →
      Backed sse := by
  have hfalse : ∀ {sse : SseConnection}, sse.isConnected = false → Backed sse := by
    intro sse hfalse htrue
    exact absurd (hfalse.symm.trans htrue) Bool.false_ne_true
  have hother : ∀ sse ∈ some other, Backed sse := by
    rintro sse ⟨rfl⟩
    exact hfalse hdead
  have hleft : ∀ sse ∈ some other.movedFrom, Backed sse := by
    rintro sse ⟨rfl⟩
    exact hfalse hdead
  exact backed_put (backed_put hw hleft log) hother log'

/-- **One operation** keeps the flags backed unless it moves a stream that is connected. -/
theorem backed_step {op : StreamOp M} (hw : ∀ i sse, w.streams i = some sse → Backed sse)
    (hmoves : w.MovesDead op) (h : w.step op = some w') :
    ∀ i sse, w'.streams i = some sse → Backed sse := by
  cases stepped_of_step h with
  | construct hfree hfresh =>
    refine backed_put hw (fun sse hsse ↦ ?_) _
    obtain rfl := Option.some.inj hsse
    exact SseConnection.isOpen_of_new
  | @send i event data endpoint sse hi =>
    refine backed_put hw (fun sse' hsse ↦ ?_) _
    obtain rfl := Option.some.inj hsse
    obtain ⟨hconnection, hconnected⟩ := sse.connection_send event data endpoint
    intro htrue
    rw [hconnection]
    exact hw i sse hi (hconnected htrue)
  | close hi =>
    refine backed_put hw (fun sse hsse ↦ ?_) _
    obtain rfl := Option.some.inj hsse
    exact fun htrue ↦ absurd htrue Bool.false_ne_true
  | @moveConstruct i j other hi hj => exact backed_put_moved hw (hmoves other hj) _ _
  | selfAssign hi => exact hw
  | @moveAssign i j self other hij hi hj log hlog =>
    exact backed_put_moved hw (hmoves.resolve_left hij other hj) _ _
  | destroy hi => exact backed_put hw (fun _ hsse ↦ absurd hsse (by simp)) _

/-- A move of a stream that is connected leaves one behind that is not backed. -/
theorem movesDead_of_backed {op : StreamOp M} (h : w.step op = some w')
    (hw' : ∀ i sse, w'.streams i = some sse → Backed sse) : w.MovesDead op := by
  have hleft : ∀ {i j : ℕ} {sse other : SseConnection} {log log' : HandleLog}, i ≠ j →
      ((w.put j (some other.movedFrom) log).put i (some sse) log').streams j =
        some other.movedFrom := by
    intro i j sse other log log' hij
    rw [streams_put_of_ne hij.symm, streams_put_self]
  have hfalse : ∀ {other : SseConnection}, Backed other.movedFrom → other.isConnected = false := by
    intro other hbacked
    exact Bool.eq_false_iff.2 fun htrue ↦ Bool.false_ne_true (hbacked htrue)
  cases stepped_of_step h with
  | construct hfree hfresh => trivial
  | send hi => trivial
  | close hi => trivial
  | @moveConstruct i j other hi hj =>
    have hij : i ≠ j := by
      rintro rfl
      cases hi.symm.trans hj
    intro sse hsse
    obtain rfl := Option.some.inj (hj.symm.trans hsse)
    exact hfalse (hw' j _ (hleft hij))
  | selfAssign hi => exact Or.inl rfl
  | @moveAssign i j self other hij hi hj log hlog =>
    refine Or.inr fun sse hsse ↦ ?_
    obtain rfl := Option.some.inj (hj.symm.trans hsse)
    exact hfalse (hw' j _ (hleft hij))
  | destroy hi => trivial

/-- In a reachable world only the flags can be wrong: no two streams own one socket. -/
theorem connectedOwn_of_backed {ops : List (StreamOp M)} (h : (program M).run ops = some w)
    (hw : ∀ i sse, w.streams i = some sse → Backed sse) : w.ConnectedOwn where
  backed := hw
  unique i j sse sse' k hi hj _ _ hk hk' := by
    have howner : ∀ {i sse}, w.streams i = some sse → sse.connection.socket.fd = some k →
        w.sockets.handle i = some k := by
      intro i sse hi hk
      show ((w.streams i).map fun sse ↦ sse.connection.socket).bind Socket.fd = some k
      rw [hi, Option.map_some, Option.bind_some, hk]
    exact (balanced_of_run h).unique (howner hi hk) (howner hj hk')

/-- **When the streams that say they are connected own their sockets**, after every operation of a
program: exactly when every move is from a stream that is not connected, or to itself. -/
theorem connectedOwn_iff {ops : List (StreamOp M)} (h : (program M).run ops = some w) :
    (program M).Meets OwnAfter ops ↔ (program M).Meets MovesDead ops := by
  constructor
  · intro hmeets pre op post s heq hs
    obtain ⟨r, hr⟩ := TransitionSystem.exists_step_of_run (heq ▸ h) hs
    exact movesDead_of_backed hr (hmeets pre op post s heq hs r hr).backed
  · intro hmeets pre op post s heq hs w' hstep
    have hpre : (program M).Meets MovesDead (pre ++ [op]) := by
      rw [heq, ← List.singleton_append, ← List.append_assoc] at hmeets
      exact hmeets.of_append
    have hrun : (program M).run (pre ++ [op]) = some w' :=
      TransitionSystem.run_concat_eq_some_iff.2 ⟨s, hs, hstep⟩
    refine connectedOwn_of_backed hrun (TransitionSystem.run_induction_of_meets
      (P := fun _ w ↦ ∀ i sse, w.streams i = some sse → Backed sse) ?_ ?_ hpre hrun)
    · exact fun _ _ hsse ↦ absurd hsse (by simp [program])
    · exact fun _ _ _ _ hw hmoves hstep ↦ backed_step hw hmoves hstep

/-- An endpoint that accepts everything. -/
def acceptingEndpoint : Endpoint :=
  { incoming := [], ending := .eof, sendResults := [], sent := [], closed := false }

/-- A stream that is closed before it is moved. -/
def closedThenMoved : List (StreamOp BytesMap) :=
  [.construct 0 (some 3) ∅ acceptingEndpoint, .close 0, .moveConstruct 1 0]

theorem connectedOwn_closedThenMoved : (program BytesMap).Meets OwnAfter closedThenMoved := by
  refine (connectedOwn_iff rfl).2 (((TransitionSystem.Meets.nil.concat rfl trivial).concat rfl
    trivial).concat rfl ?_)
  intro sse hsse
  obtain rfl := Option.some.inj hsse
  rfl

/-- A stream that is moved while it is connected, as a handler's argument is. -/
def movedWhileConnected : List (StreamOp BytesMap) :=
  [.construct 0 (some 3) ∅ acceptingEndpoint, .moveConstruct 1 0]

/-- The object moved from says that it is connected, and has no socket. -/
theorem not_connectedOwn :
    ((program BytesMap).run movedWhileConnected).isSome ∧
      ¬ (program BytesMap).Meets OwnAfter movedWhileConnected := by
  refine ⟨rfl, fun h ↦ ?_⟩
  have hown := h [.construct 0 (some 3) ∅ acceptingEndpoint] (.moveConstruct 1 0) [] _ rfl rfl _ rfl
  cases hown.backed 0 _ rfl rfl

end StreamWorld

end FalconHTTP
