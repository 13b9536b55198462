import FalconHTTP.Core.Connection
import FalconHTTP.Foundation.Ledger
import FalconHTTP.Foundation.TransitionSystem

/-!
# Who owns a handle

A `Socket` owns at most one handle, and every operation that takes the handle away does so by one
atomic exchange with `invalidHandle` (`Socket.release`). This module follows the handles through
whole programs: any sequence of operations on any number of sockets.

The sockets of a program and what happened to the handles are a `SocketWorld`; an operation that the
language does not allow, such as one on a destroyed object, is no step of it. Every operation is
made of the three moves of `Ledger`, so every reachable world is balanced (`balanced_of_run`), and
what the repository relies on is read off (`HandleOwnership`).

Concurrent calls of `close` on one socket are a system of their own, in which the exchange and the
system call are separate steps: the exchange decides which call closes (`closedOnce_of_run`).
-/

namespace FalconHTTP

open Ledger

/-- What happened to handles, oldest first: adopted by a socket, or passed to the OS close. -/
abbrev HandleLog := List (Event ℕ)

namespace Socket

/-- `fd_.exchange(invalidHandle)`: what the socket owned, and the socket without it. -/
def release (socket : Socket) : Option ℕ × Socket :=
  (socket.fd, ⟨none⟩)

/-- `Socket(int)`, and `createTcp()` with what the system call returned. -/
def adopt (fd : Option ℕ) (log : HandleLog) : Socket × HandleLog :=
  match fd with
  | none => (⟨none⟩, log)
  | some fd => (⟨some fd⟩, log ++ [.acquired fd])

/-- `close()`. -/
def closeHandle (socket : Socket) (log : HandleLog) : Socket × HandleLog :=
  match socket.release with
  | (none, socket) => (socket, log)
  | (some fd, socket) => (socket, log ++ [.released fd])

@[simp] theorem adopt_eq (fd : Option ℕ) (log : HandleLog) :
    adopt fd log = (⟨fd⟩, log ++ fd.toList.map .acquired) := by
  rcases fd with - | fd
  · simp [adopt]
  · rfl

@[simp] theorem closeHandle_eq (socket : Socket) (log : HandleLog) :
    socket.closeHandle log = (⟨none⟩, log ++ socket.fd.toList.map .released) := by
  rcases socket with ⟨- | fd⟩
  · simp [closeHandle, release]
  · rfl

/-- `Socket(Socket&&)`: the new socket, and the one moved from. -/
def moveConstruct (other : Socket) : Socket × Socket :=
  let (fd, other) := other.release
  (⟨fd⟩, other)

/-- `operator=(Socket&&)` of two sockets. -/
def moveAssign (self other : Socket) (log : HandleLog) : Socket × Socket × HandleLog :=
  let (_, log) := self.closeHandle log
  let (fd, other) := other.release
  (⟨fd⟩, other, log)

end Socket

/-! ### Programs -/

/-- The sockets of a program, and what happened to the handles. -/
structure SocketWorld where
  /-- The sockets that are alive. -/
  sockets : ℕ → Option Socket
  /-- What happened to the handles. -/
  log : HandleLog

/-- An operation on sockets, by the names of the objects. -/
inductive SocketOp
  /-- Default construction. -/
  | construct (i : ℕ)
  /-- Construction around a handle, or around none. -/
  | adopt (i : ℕ) (fd : Option ℕ)
  /-- Move construction of `i` from `j`. -/
  | moveConstruct (i j : ℕ)
  /-- Move assignment to `i` from `j`. -/
  | moveAssign (i j : ℕ)
  /-- `close()`. -/
  | close (i : ℕ)
  /-- Destruction. -/
  | destroy (i : ℕ)
  deriving DecidableEq

/-- The object that an operation constructs, assigns to, closes or destroys. -/
def SocketOp.subject : SocketOp → ℕ
  | construct i => i
  | adopt i _ => i
  | moveConstruct i _ => i
  | moveAssign i _ => i
  | close i => i
  | destroy i => i

namespace SocketWorld

/-- The handle that an object owns. -/
def handle (w : SocketWorld) (i : ℕ) : Option ℕ :=
  (w.sockets i).bind Socket.fd

/-- Replace an object. -/
def put (w : SocketWorld) (i : ℕ) (socket : Option Socket) (log : HandleLog) : SocketWorld where
  sockets := Function.update w.sockets i socket
  log := log

/-- One operation. A socket is constructed where none is alive, around a handle that is not open;
the other operations are on sockets that are alive. -/
def step (w : SocketWorld) : SocketOp → Option SocketWorld
  | .construct i => if w.sockets i = none then some (w.put i (some ⟨none⟩) w.log) else none
  | .adopt i fd =>
    if w.sockets i = none ∧ ∀ k ∈ fd, ¬ IsOut w.log k then
      let (socket, log) := Socket.adopt fd w.log
      some (w.put i (some socket) log)
    else none
  | .moveConstruct i j =>
    match w.sockets i, w.sockets j with
    | none, some other =>
      let (socket, other) := other.moveConstruct
      some ((w.put j (some other) w.log).put i (some socket) w.log)
    | _, _ => none
  | .moveAssign i j =>
    match w.sockets i, w.sockets j with
    | some self, some other =>
      -- `if (this != &other)`
      if i = j then some w
      else
        let (self, other, log) := self.moveAssign other w.log
        some ((w.put j (some other) log).put i (some self) log)
    | _, _ => none
  | .close i =>
    match w.sockets i with
    | some socket =>
      let (socket, log) := socket.closeHandle w.log
      some (w.put i (some socket) log)
    | none => none
  | .destroy i =>
    match w.sockets i with
    | some socket =>
      -- the destructor closes
      let (_, log) := socket.closeHandle w.log
      some (w.put i none log)
    | none => none

/-- Programs on sockets. -/
def program : TransitionSystem SocketWorld SocketOp where
  init := ⟨fun _ ↦ none, []⟩
  step := step

/-! ### What one operation does -/

variable {w w' : SocketWorld} {i j : ℕ}

@[simp] theorem handle_put (w : SocketWorld) (i : ℕ) (socket : Option Socket) (log : HandleLog) :
    (w.put i socket log).handle = Function.update w.handle i (socket.bind Socket.fd) := by
  funext k
  show (Function.update w.sockets i socket k).bind Socket.fd = _
  rw [Function.update_apply, Function.update_apply]
  split
  · rfl
  · rfl

theorem handle_of_sockets {socket : Option Socket} (h : w.sockets i = socket) :
    w.handle i = socket.bind Socket.fd := by
  rw [handle, h]

theorem step_construct (h : w.step (.construct i) = some w') :
    w'.handle = w.handle ∧ w'.log = w.log := by
  rw [step] at h
  split at h
  · rename_i hdead
    obtain rfl := Option.some.inj h
    refine ⟨?_, rfl⟩
    rw [handle_put, Function.update_eq_self_iff, handle_of_sockets hdead]
    rfl
  · exact absurd h (by simp)

theorem step_adopt {fd : Option ℕ} (h : w.step (.adopt i fd) = some w') :
    w.handle i = none ∧ (∀ k ∈ fd, ¬ IsOut w.log k) ∧
      w'.handle = Function.update w.handle i fd ∧
      w'.log = w.log ++ fd.toList.map .acquired := by
  rw [step] at h
  split at h
  · rename_i hfresh
    rw [Socket.adopt_eq] at h
    obtain rfl := Option.some.inj h
    exact ⟨handle_of_sockets hfresh.1, hfresh.2, handle_put _ _ _ _, rfl⟩
  · exact absurd h (by simp)

theorem step_moveConstruct (h : w.step (.moveConstruct i j) = some w') :
    w.handle i = none ∧ i ≠ j ∧
      w'.handle = Function.update (Function.update w.handle j none) i (w.handle j) ∧
      w'.log = w.log := by
  rw [step] at h
  split at h
  · rename_i other hi hj
    obtain rfl := Option.some.inj h
    refine ⟨handle_of_sockets hi, ?_, ?_, rfl⟩
    · rintro rfl
      exact absurd (hi.symm.trans hj) (by simp)
    · rw [handle_put, handle_put, handle_of_sockets hj]
      rfl
  · exact absurd h (by simp)

/-- Assignment to itself does nothing; another assignment closes what the target owned. -/
theorem step_moveAssign (h : w.step (.moveAssign i j) = some w') :
    i = j ∧ w' = w ∨
      i ≠ j ∧ w'.handle = Function.update (Function.update w.handle j none) i (w.handle j) ∧
        w'.log = w.log ++ (w.handle i).toList.map .released := by
  rw [step] at h
  split at h
  · rename_i self other hi hj
    split at h
    · rename_i heq
      exact Or.inl ⟨heq, (Option.some.inj h).symm⟩
    · rename_i hne
      rw [Socket.moveAssign, Socket.closeHandle_eq] at h
      obtain rfl := Option.some.inj h
      refine Or.inr ⟨hne, ?_, ?_⟩
      · rw [handle_put, handle_put, handle_of_sockets hj]
        rfl
      · rw [handle_of_sockets hi]
        rfl
  · exact absurd h (by simp)

theorem step_close (h : w.step (.close i) = some w') :
    w'.handle = Function.update w.handle i none ∧
      w'.log = w.log ++ (w.handle i).toList.map .released := by
  rw [step] at h
  split at h
  · rename_i socket hi
    rw [Socket.closeHandle_eq] at h
    obtain rfl := Option.some.inj h
    rw [handle_put, handle_of_sockets hi]
    exact ⟨rfl, rfl⟩
  · exact absurd h (by simp)

theorem step_destroy (h : w.step (.destroy i) = some w') :
    w'.handle = Function.update w.handle i none ∧
      w'.log = w.log ++ (w.handle i).toList.map .released := by
  rw [step] at h
  split at h
  · rename_i socket hi
    rw [Socket.closeHandle_eq] at h
    obtain rfl := Option.some.inj h
    rw [handle_put, handle_of_sockets hi]
    exact ⟨rfl, rfl⟩
  · exact absurd h (by simp)

/-! ### Balance -/

/-- Every operation is made of the moves of the ledger. -/
theorem balanced_step {a : SocketOp} (hw : Ledger.Balanced w.handle w.log)
    (h : w.step a = some w') : Ledger.Balanced w'.handle w'.log := by
  cases a with
  | construct i =>
    obtain ⟨hhandle, hlog⟩ := step_construct h
    rwa [hhandle, hlog]
  | adopt i fd =>
    obtain ⟨hi, hfresh, hhandle, hlog⟩ := step_adopt h
    rw [hhandle, hlog]
    rcases fd with - | k
    · rw [Function.update_eq_self_iff.2 hi.symm]
      simpa using hw
    · refine hw.acquire hi fun j hj ↦ hfresh k rfl ?_
      exact hw.isOut_iff.2 ⟨j, hj⟩
  | moveConstruct i j =>
    obtain ⟨hi, hij, hhandle, hlog⟩ := step_moveConstruct h
    rw [hhandle, hlog]
    exact hw.transfer hi hij
  | moveAssign i j =>
    rcases step_moveAssign h with ⟨-, rfl⟩ | ⟨hij, hhandle, hlog⟩
    · exact hw
    · have hdrop := (hw.drop i).transfer (Function.update_self _ _ _) hij
      rw [hhandle, hlog]
      rwa [Function.update_of_ne hij.symm, Function.update_comm hij, Function.update_idem] at hdrop
  | close i =>
    obtain ⟨hhandle, hlog⟩ := step_close h
    rw [hhandle, hlog]
    exact hw.drop i
  | destroy i =>
    obtain ⟨hhandle, hlog⟩ := step_destroy h
    rw [hhandle, hlog]
    exact hw.drop i

/-- **Every program keeps the ledger balanced.** -/
theorem balanced_of_run {ops : List SocketOp} (h : program.run ops = some w) :
    Ledger.Balanced w.handle w.log :=
  TransitionSystem.run_induction (P := fun _ w ↦ Ledger.Balanced w.handle w.log) balanced_none
    (fun _ _ _ _ _ hw hstep ↦ balanced_step hw hstep) h

/-! ### Closing -/

theorem count_released_append (log : HandleLog) (fd : Option ℕ) (k : ℕ) :
    (log ++ fd.toList.map Event.released).count (.released k) =
      log.count (.released k) + if fd = some k then 1 else 0 := by
  rcases fd with - | l
  · simp
  · rcases eq_or_ne l k with rfl | h
    · simp [List.count_append]
    · simp [List.count_append, h]

/-- One handle leaves a world: it was owned by the object of the operation and by no other, it was
passed to the OS once, and nobody owns it afterwards. -/
structure Closes (w w' : SocketWorld) (i k : ℕ) : Prop where
  /-- The object owned it. -/
  owned : w.handle i = some k
  /-- No other object did. -/
  alone : ∀ j, w.handle j = some k → j = i
  /-- Nobody owns it afterwards. -/
  gone : ∀ j, w'.handle j ≠ some k
  /-- It was passed to the OS once. -/
  once : w'.log.count (.released k) = w.log.count (.released k) + 1

/-- The log grows by what the object owned, and after that nobody owns it. -/
theorem Closes.of_log {k : ℕ} (hw : Ledger.Balanced w.handle w.log)
    (hlog : w'.log = w.log ++ (w.handle i).toList.map .released)
    (hgone : ∀ k j, w.handle i = some k → w'.handle j ≠ some k)
    (h : w.log.count (.released k) < w'.log.count (.released k)) : Closes w w' i k := by
  rw [hlog, count_released_append] at h
  split at h
  · rename_i howned
    refine ⟨howned, fun j hj ↦ hw.unique hj howned, fun j ↦ hgone k j howned, ?_⟩
    rw [hlog, count_released_append, if_pos howned]
  · omega

/-- Once its one owner gives a handle up, nobody owns it. -/
theorem update_none_ne (hw : Ledger.Balanced w.handle w.log) (k j : ℕ) (hi : w.handle i = some k) :
    Function.update w.handle i none j ≠ some k := by
  intro hj
  rcases eq_or_ne j i with rfl | hji
  · rw [Function.update_self] at hj
    exact absurd hj (by simp)
  · rw [Function.update_of_ne hji] at hj
    exact hji (hw.unique hj hi)

/-- **No operation closes a handle that another socket owns.** -/
theorem closes_of_step {a : SocketOp} {k : ℕ} (hw : Ledger.Balanced w.handle w.log)
    (h : w.step a = some w') (hclosed : w.log.count (.released k) < w'.log.count (.released k)) :
    Closes w w' a.subject k := by
  cases a with
  | construct i =>
    rw [(step_construct h).2] at hclosed
    exact absurd hclosed (Nat.lt_irrefl _)
  | adopt i fd =>
    obtain ⟨-, -, -, hlog⟩ := step_adopt h
    rw [hlog] at hclosed
    rcases fd with - | l
    · exact absurd hclosed (by simp)
    · exact absurd hclosed (by simp [List.count_append])
  | moveConstruct i j =>
    obtain ⟨-, -, -, hlog⟩ := step_moveConstruct h
    rw [hlog] at hclosed
    exact absurd hclosed (Nat.lt_irrefl _)
  | moveAssign i j =>
    rcases step_moveAssign h with ⟨-, rfl⟩ | ⟨hij, hhandle, hlog⟩
    · exact absurd hclosed (Nat.lt_irrefl _)
    · refine Closes.of_log hw hlog (fun l x hi hx ↦ ?_) hclosed
      rw [hhandle] at hx
      rcases eq_or_ne x i with rfl | hxi
      · rw [Function.update_self] at hx
        exact hij (hw.unique hi hx)
      · rw [Function.update_of_ne hxi] at hx
        rcases eq_or_ne x j with rfl | hxj
        · rw [Function.update_self] at hx
          exact absurd hx (by simp)
        · rw [Function.update_of_ne hxj] at hx
          exact hxi (hw.unique hx hi)
  | close i =>
    obtain ⟨hhandle, hlog⟩ := step_close h
    exact Closes.of_log hw hlog (hhandle ▸ update_none_ne hw) hclosed
  | destroy i =>
    obtain ⟨hhandle, hlog⟩ := step_destroy h
    exact Closes.of_log hw hlog (hhandle ▸ update_none_ne hw) hclosed

/-- What the repository relies on, at one point of a program. -/
structure HandleOwnership (w : SocketWorld) : Prop where
  /-- An open handle is owned by exactly one socket. -/
  owner : ∀ k, IsOut w.log k → ∃! i, w.handle i = some k
  /-- An owned handle is open. -/
  isOut : ∀ i k, w.handle i = some k → IsOut w.log k
  /-- Between two adoptions of a handle lies one close of it, and no close is without one. -/
  alternate : ∀ k, w.log.count (.released k) ≤ w.log.count (.acquired k) ∧
    w.log.count (.acquired k) ≤ w.log.count (.released k) + 1
  /-- Once all objects are destroyed, every adoption has had its close. -/
  all_closed : (∀ i, w.sockets i = none) →
    ∀ k, w.log.count (.released k) = w.log.count (.acquired k)
  /-- The next operation closes a handle only if its object owned it and no other did. -/
  closes : ∀ a w' k, w.step a = some w' →
    w.log.count (.released k) < w'.log.count (.released k) → Closes w w' a.subject k

theorem handleOwnership_of_balanced (hw : Ledger.Balanced w.handle w.log) : HandleOwnership w where
  owner _ hout := hw.existsUnique_holder hout
  isOut _ _ hi := hw.isOut_iff.2 ⟨_, hi⟩
  alternate := hw.count_le
  all_closed hdead k := by
    refine (hw.idle fun i ↦ ?_).symm
    rw [handle_of_sockets (hdead i)]
    simp
  closes _ _ _ hstep hclosed := closes_of_step hw hstep hclosed

example : (program.run [.adopt 0 (some 5), .moveConstruct 1 0, .moveAssign 1 1, .construct 2,
    .moveAssign 2 1, .close 2, .close 2, .destroy 0, .destroy 1, .destroy 2]).map SocketWorld.log =
      some [.acquired 5, .released 5] := by
  decide

end SocketWorld

/-! ### Concurrent calls of `close` -/

/-- The step a call of `close` takes next. -/
inductive ClosePoint
  /-- `fd_.exchange(invalidHandle)`. -/
  | exchange
  /-- The OS close of what the exchange returned. -/
  | osClose (fd : ℕ)
  /-- The call has returned. -/
  | returned
  deriving DecidableEq

/-- One socket and the calls of `close` under way on it. -/
structure ClosingSocket (ι : Type) where
  /-- The socket. -/
  socket : Socket
  /-- Where each call stands. -/
  point : ι → ClosePoint
  /-- The handles passed to the OS close, and by which call. -/
  closed : List (ι × ℕ)

namespace ClosingSocket

variable {ι : Type}

/-- One step of one call. -/
def step [DecidableEq ι] (s : ClosingSocket ι) (i : ι) : Option (ClosingSocket ι) :=
  match s.point i with
  | .exchange =>
    match s.socket.release with
    | (none, socket) =>
      some { s with socket := socket, point := Function.update s.point i .returned }
    | (some fd, socket) =>
      some { s with socket := socket, point := Function.update s.point i (.osClose fd) }
  | .osClose fd =>
    some { s with
      point := Function.update s.point i .returned
      closed := s.closed ++ [(i, fd)] }
  | .returned => none

/-- Concurrent calls of `close` on a socket that owns a handle, or none. -/
def calls (ι : Type) [DecidableEq ι] (fd : Option ℕ) :
    TransitionSystem (ClosingSocket ι) ι where
  init := ⟨⟨fd⟩, fun _ ↦ .exchange, []⟩
  step := step

/-- Where the handle is: in the socket, with the call that took it, or closed by that call. No other
call is about to close. -/
inductive Whereabouts (fd : Option ℕ) (s : ClosingSocket ι) : Prop
  /-- No exchange has returned a handle. -/
  | inSocket (hsocket : s.socket.fd = fd) (hpoint : ∀ i k, s.point i ≠ .osClose k)
    (hstart : fd ≠ none → ∀ i, s.point i = .exchange) (hclosed : s.closed = [])
  /-- A call has taken the handle. -/
  | taken (i : ι) (k : ℕ) (hfd : fd = some k) (hsocket : s.socket.fd = none)
    (hpoint : s.point i = .osClose k) (hothers : ∀ j l, s.point j = .osClose l → j = i)
    (hclosed : s.closed = [])
  /-- That call has closed it. -/
  | closed (i : ι) (k : ℕ) (hfd : fd = some k) (hsocket : s.socket.fd = none)
    (hpoint : ∀ j l, s.point j ≠ .osClose l) (hclosed : s.closed = [(i, k)])

variable {fd : Option ℕ} {s s' : ClosingSocket ι} {i : ι}

/-- What concurrent calls of `close` on one socket amount to. -/
structure ClosedOnce (fd : Option ℕ) (s : ClosingSocket ι) : Prop where
  /-- At most one close has been passed to the OS, and it was of the handle owned. -/
  at_most : s.closed.length ≤ 1 ∧ ∀ c ∈ s.closed, fd = some c.2
  /-- At most one call is about to close, and none once the handle has been closed. -/
  alone : ∀ i k, s.point i = .osClose k →
    s.closed = [] ∧ ∀ j l, s.point j = .osClose l → j = i
  /-- When all calls have returned, and there was one, the socket and the handle are as after a
  single call. -/
  as_one : (∀ i, s.point i = .returned) → Nonempty ι →
    (s.socket, s.closed.map fun c ↦ Event.released c.2) = Socket.closeHandle ⟨fd⟩ []

theorem Whereabouts.closedOnce (h : Whereabouts fd s) : ClosedOnce fd s := by
  have hsocket_eq : s.socket.fd = none → s.socket = ⟨none⟩ := fun h ↦ congrArg Socket.mk h
  cases h with
  | inSocket hsocket hpoint hstart hclosed =>
    refine ⟨by simp [hclosed], fun j l hj ↦ absurd hj (hpoint j l), fun hall ⟨j⟩ ↦ ?_⟩
    have hnone : fd = none := by
      by_contra hne
      exact ClosePoint.noConfusion ((hall j).symm.trans (hstart hne j))
    subst hnone
    rw [hsocket_eq hsocket, hclosed]
    rfl
  | taken i k hfd hsocket hpoint hothers hclosed =>
    refine ⟨by simp [hclosed], fun j l hj ↦ ⟨hclosed, fun x m hx ↦ ?_⟩, fun hall _ ↦ ?_⟩
    · rw [hothers x m hx, hothers j l hj]
    · exact ClosePoint.noConfusion ((hall i).symm.trans hpoint)
  | closed i k hfd hsocket hpoint hclosed =>
    refine ⟨by simp [hclosed, hfd], fun j l hj ↦ absurd hj (hpoint j l), fun _ _ ↦ ?_⟩
    rw [hsocket_eq hsocket, hclosed, hfd]
    rfl

section Steps

variable [DecidableEq ι]

/-- After its exchange or its OS close a call is about to close what the exchange returned, if
anything; the other calls stand where they stood. -/
theorem update_eq_osClose {q : ClosePoint} {j : ι} {l : ℕ}
    (h : Function.update s.point i q j = .osClose l) :
    j = i ∧ q = .osClose l ∨ j ≠ i ∧ s.point j = .osClose l := by
  rcases eq_or_ne j i with rfl | hji
  · rw [Function.update_self] at h
    exact Or.inl ⟨rfl, h⟩
  · rw [Function.update_of_ne hji] at h
    exact Or.inr ⟨hji, h⟩

/-- A call that returns leaves the others about to close, or not, as they were. -/
theorem returned_ne_osClose (hpoint : ∀ j l, s.point j ≠ .osClose l) (j : ι) (l : ℕ) :
    Function.update s.point i .returned j ≠ .osClose l := by
  intro h
  rcases update_eq_osClose h with ⟨-, hq⟩ | ⟨-, hj⟩
  · exact ClosePoint.noConfusion hq
  · exact hpoint j l hj

/-- An exchange that finds no handle: the call returns. -/
theorem Whereabouts.exchange_none (h : Whereabouts fd s) (hi : s.point i = .exchange)
    (hfd : s.socket.fd = none) :
    Whereabouts fd { s with socket := ⟨none⟩, point := Function.update s.point i .returned } := by
  cases h with
  | inSocket hsocket hpoint hstart hclosed =>
    obtain rfl := hsocket.symm.trans hfd
    exact .inSocket rfl (returned_ne_osClose hpoint) (fun hne ↦ absurd rfl hne) hclosed
  | taken j l hl hsocket hpoint hothers hclosed =>
    have hji : j ≠ i := by
      rintro rfl
      exact ClosePoint.noConfusion (hi.symm.trans hpoint)
    refine .taken j l hl rfl ?_ (fun x m hx ↦ ?_) hclosed
    · exact (Function.update_of_ne hji _ _).trans hpoint
    · rcases update_eq_osClose hx with ⟨-, hq⟩ | ⟨-, hx⟩
      · exact ClosePoint.noConfusion hq
      · exact hothers x m hx
  | closed j l hl hsocket hpoint hclosed =>
    exact .closed j l hl rfl (returned_ne_osClose hpoint) hclosed

/-- An exchange that finds the handle takes it; no other call has. -/
theorem Whereabouts.exchange_some (h : Whereabouts fd s) {k : ℕ} (hfd : s.socket.fd = some k) :
    Whereabouts fd
      { s with socket := ⟨none⟩, point := Function.update s.point i (.osClose k) } := by
  cases h with
  | inSocket hsocket hpoint hstart hclosed =>
    refine .taken i k (hsocket.symm.trans hfd) rfl (Function.update_self _ _ _)
      (fun x m hx ↦ ?_) hclosed
    rcases update_eq_osClose hx with ⟨hx, -⟩ | ⟨-, hx⟩
    · exact hx
    · exact absurd hx (hpoint x m)
  | taken j l hl hsocket hpoint hothers hclosed => cases hsocket.symm.trans hfd
  | closed j l hl hsocket hpoint hclosed => cases hsocket.symm.trans hfd

/-- The OS close, by the call that took the handle. -/
theorem Whereabouts.osClose (h : Whereabouts fd s) {k : ℕ} (hi : s.point i = .osClose k) :
    Whereabouts fd
      { s with point := Function.update s.point i .returned, closed := s.closed ++ [(i, k)] } := by
  cases h with
  | inSocket hsocket hpoint hstart hclosed => exact absurd hi (hpoint i k)
  | taken j l hl hsocket hpoint hothers hclosed =>
    obtain rfl := hothers i k hi
    obtain rfl := ClosePoint.osClose.inj (hi.symm.trans hpoint)
    refine .closed i k hl hsocket (fun x m hx ↦ ?_) ?_
    · rcases update_eq_osClose hx with ⟨-, hq⟩ | ⟨hne, hx⟩
      · exact ClosePoint.noConfusion hq
      · exact hne (hothers x m hx)
    · show s.closed ++ [(i, k)] = _
      rw [hclosed]
      rfl
  | closed j l hl hsocket hpoint hclosed => exact absurd hi (hpoint i k)

/-- **One step** of a call. -/
theorem whereabouts_step (h : Whereabouts fd s) (hstep : s.step i = some s') :
    Whereabouts fd s' := by
  rw [step] at hstep
  rcases hi : s.point i with - | k | -
  · rw [hi] at hstep
    rcases hfd : s.socket.fd with - | k
    · simp only [Socket.release, hfd] at hstep
      obtain rfl := Option.some.inj hstep
      exact h.exchange_none hi hfd
    · simp only [Socket.release, hfd] at hstep
      obtain rfl := Option.some.inj hstep
      exact h.exchange_some hfd
  · rw [hi] at hstep
    obtain rfl := Option.some.inj hstep
    exact h.osClose hi
  · rw [hi] at hstep
    cases hstep

/-- **The exchange decides which call closes**, in every interleaving. -/
theorem closedOnce_of_run {steps : List ι} (h : (calls ι fd).run steps = some s) :
    ClosedOnce fd s := by
  refine (TransitionSystem.run_induction (P := fun _ s ↦ Whereabouts fd s) ?_
    (fun _ _ _ _ _ hs hstep ↦ whereabouts_step hs hstep) h).closedOnce
  exact .inSocket rfl (fun _ _ ↦ ClosePoint.noConfusion) (fun _ _ ↦ rfl) rfl

end Steps

end ClosingSocket

/-- **Handles have one owner and are closed once**: at every point of every program on sockets, and
under any number of concurrent calls of `close` on one socket, in any order of their steps. -/
theorem handles_closed_once :
    (∀ (ops : List SocketOp) (w : SocketWorld), SocketWorld.program.run ops = some w →
      w.HandleOwnership) ∧
    ∀ (ι : Type) [DecidableEq ι] (fd : Option ℕ) (steps : List ι) (s : ClosingSocket ι),
      (ClosingSocket.calls ι fd).run steps = some s → s.ClosedOnce fd :=
  ⟨fun _ _ h ↦ SocketWorld.handleOwnership_of_balanced (SocketWorld.balanced_of_run h),
    fun _ _ _ _ _ h ↦ ClosingSocket.closedOnce_of_run h⟩

end FalconHTTP
