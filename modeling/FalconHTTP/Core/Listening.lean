import FalconHTTP.Core.HandleOwnership
import FalconHTTP.Core.Lifecycle

/-!
# Starting a listener

`Listener::start` makes a socket, sets an option on it, binds it and listens on it. Each of the four
system calls may fail, and `start` may be called on a listener that is already listening, so what
the listener says of itself afterwards depends on its history.

`Truthful` is what it should say after a call: that it is listening exactly when the call was a
`start` that succeeded, on the port of that call, and otherwise that its port is `0`, with no socket
left open. Two ways out of `start` break this. The one after a failed `setsockopt` leaves the new
socket in place, open, and with it a listener that says it is listening; and every failure leaves
the port of an earlier `start` in place. `truthful_iff` says that there is no other: over any
sequence of calls, a listener is truthful throughout exactly when no call takes one of the two
(`UndoesAll`).
-/

namespace FalconHTTP

open Ledger

/-- The results of the system calls that one `start` makes, as far as it makes them. -/
structure StartResults where
  /-- `socket`: the new handle, if any. -/
  socket : Option ℕ
  /-- Whether `setsockopt` succeeds. -/
  setsockopt : Bool
  /-- Whether `bind` succeeds. -/
  bind : Bool
  /-- Whether `listen` succeeds. -/
  listen : Bool
  deriving DecidableEq

namespace StartResults

/-- Every system call succeeds. -/
def AllSucceed (results : StartResults) : Prop :=
  results.socket.isSome ∧ results.setsockopt ∧ results.bind ∧ results.listen

/-- A socket is made, but the option cannot be set on it. -/
def OptionFails (results : StartResults) : Prop :=
  results.socket.isSome ∧ results.setsockopt = false

instance (results : StartResults) : Decidable results.AllSucceed :=
  inferInstanceAs (Decidable (_ ∧ _))

instance (results : StartResults) : Decidable results.OptionFails :=
  inferInstanceAs (Decidable (_ ∧ _))

end StartResults

namespace Listener

/-- `Listener::start`, with what happens to the handles. -/
def start (listener : Listener) (port : UInt16) (results : StartResults) (log : HandleLog) :
    Bool × Listener × HandleLog :=
  -- `socket_ = Socket::createTcp()`, and the destruction of the temporary
  let (created, log) := Socket.adopt results.socket log
  let (socket, created, log) := listener.socket.moveAssign created log
  let (_, log) := created.closeHandle log
  let listener := { listener with socket := socket }
  if ¬ listener.socket.isValid then (false, listener, log)
  else if ¬ results.setsockopt then (false, listener, log)
  else if ¬ results.bind then
    let (socket, log) := listener.socket.closeHandle log
    (false, { listener with socket := socket }, log)
  else if ¬ results.listen then
    let (socket, log) := listener.socket.closeHandle log
    (false, { listener with socket := socket }, log)
  else (true, { listener with port := port.toNat }, log)

/-- The handles after the new socket has taken the place of the old one. -/
def replaced (listener : Listener) (results : StartResults) (log : HandleLog) : HandleLog :=
  log ++ results.socket.toList.map .acquired ++ listener.socket.fd.toList.map .released

/-- **The ways out of `start`**: it succeeds, it fails with the new socket in place, or it fails and
closes it. The port is touched only by the first. -/
theorem start_eq (listener : Listener) (port : UInt16) (results : StartResults)
    (log : HandleLog) :
    listener.start port results log =
      if results.AllSucceed then
        (true, ⟨⟨results.socket⟩, port.toNat⟩, listener.replaced results log)
      else if results.OptionFails then
        (false, ⟨⟨results.socket⟩, listener.port⟩, listener.replaced results log)
      else
        (false, ⟨⟨none⟩, listener.port⟩,
          listener.replaced results log ++ results.socket.toList.map .released) := by
  rcases results with ⟨- | fd, setsockopt, bind, listen⟩
  · simp [start, replaced, Socket.moveAssign, Socket.release, Socket.isValid,
      StartResults.AllSucceed, StartResults.OptionFails]
  · cases setsockopt <;> cases bind <;> cases listen <;>
      simp [start, replaced, Socket.moveAssign, Socket.release, Socket.isValid,
        StartResults.AllSucceed, StartResults.OptionFails]

end Listener

/-! ### Histories -/

/-- A listener, and what happened to its handles. -/
structure ListenerWorld where
  /-- The listener. -/
  listener : Listener
  /-- What happened to the handles. -/
  log : HandleLog

/-- A call on a listener. -/
inductive ListenerCall
  /-- `start(port)`, with the results of its system calls. -/
  | start (port : UInt16) (results : StartResults)
  /-- `stop()`. -/
  | stop
  deriving DecidableEq

/-- The port that a call asks for. -/
def ListenerCall.port : ListenerCall → ℕ
  | start port _ => port.toNat
  | stop => 0

namespace ListenerWorld

/-- The world after a call. -/
def after (w : ListenerWorld) : ListenerCall → ListenerWorld
  | .start port results =>
    let (_, listener, log) := w.listener.start port results w.log
    ⟨listener, log⟩
  | .stop => ⟨w.listener.stop, (w.listener.socket.closeHandle w.log).2⟩

/-- Whether a call is a `start` that returns `true`. -/
def started (w : ListenerWorld) : ListenerCall → Bool
  | .start port results => (w.listener.start port results w.log).1
  | .stop => false

/-- The OS makes a new socket under a handle that is not open. -/
def Fresh (w : ListenerWorld) : ListenerCall → Prop
  | .start _ results => ∀ k ∈ results.socket, ¬ IsOut w.log k
  | .stop => True

instance (w : ListenerWorld) : (call : ListenerCall) → Decidable (w.Fresh call)
  | .start _ results => inferInstanceAs (Decidable (∀ k ∈ results.socket, ¬ IsOut w.log k))
  | .stop => inferInstanceAs (Decidable True)

/-- One call. -/
def step (w : ListenerWorld) (call : ListenerCall) : Option ListenerWorld :=
  if w.Fresh call then some (w.after call) else none

/-- The calls on a default-constructed listener. -/
def history : TransitionSystem ListenerWorld ListenerCall where
  init := ⟨⟨⟨none⟩, 0⟩, []⟩
  step := step

/-- What a listener should say after a call. -/
structure Truthful (w : ListenerWorld) (call : ListenerCall) : Prop where
  /-- It is listening exactly when the call was a `start` that returned `true`. -/
  listening : (w.after call).listener.isListening = true ↔ w.started call = true
  /-- Its port is that of the call when it is listening, and `0` otherwise. -/
  port : (w.after call).listener.port =
    if (w.after call).listener.isListening then call.port else 0
  /-- After any other call no socket is open. -/
  none_open : w.started call = false → ∀ k, ¬ IsOut (w.after call).log k

/-- A `start` undoes what it and an earlier one have done: it succeeds, or it fails elsewhere than
in `setsockopt` on a listener without a port. -/
def UndoesAll (w : ListenerWorld) : ListenerCall → Prop
  | .start _ results => results.AllSucceed ∨ ¬ results.OptionFails ∧ w.listener.port = 0
  | .stop => True

instance (w : ListenerWorld) : (call : ListenerCall) → Decidable (w.UndoesAll call)
  | .start _ _ => inferInstanceAs (Decidable (_ ∨ _))
  | .stop => inferInstanceAs (Decidable True)

/-! ### The handles -/

/-- The handles of the listener and of the temporary in `start`. -/
def holding (listener temporary : Option ℕ) : Bool → Option ℕ
  | true => listener
  | false => temporary

theorem update_holding (listener temporary : Option ℕ) :
    (∀ fd, Function.update (holding listener temporary) true fd = holding fd temporary) ∧
      ∀ fd, Function.update (holding listener temporary) false fd = holding listener fd := by
  constructor
  · intro fd
    funext b
    cases b <;> rfl
  · intro fd
    funext b
    cases b <;> rfl

/-- The listener's handle is all that is open. -/
def Sound (w : ListenerWorld) : Prop :=
  Ledger.Balanced (holding w.listener.socket.fd none) w.log

variable {w w' : ListenerWorld} {call : ListenerCall}

/-- Without a socket nothing is open. -/
theorem not_isOut_of_balanced {log : HandleLog} (h : Ledger.Balanced (holding none none) log)
    (k : ℕ) : ¬ IsOut log k := by
  rintro hout
  obtain ⟨b, hb⟩ := h.isOut_iff.1 hout
  cases b <;> cases hb

/-- The old socket is closed after the new one is made, and the new one takes its place. -/
theorem balanced_replaced {results : StartResults} (h : w.Sound)
    (hfresh : ∀ k ∈ results.socket, ¬ IsOut w.log k) :
    Ledger.Balanced (holding results.socket none) (w.listener.replaced results w.log) := by
  have hmade : Ledger.Balanced (holding w.listener.socket.fd results.socket)
      (w.log ++ results.socket.toList.map .acquired) := by
    rcases hsocket : results.socket with - | k
    · simpa using (show Ledger.Balanced (holding w.listener.socket.fd none) w.log from h)
    · have hacquire := h.acquire (i := false) rfl
        fun j hj ↦ hfresh k hsocket (h.isOut_iff.2 ⟨j, hj⟩)
      rwa [(update_holding _ _).2] at hacquire
  have hdrop := hmade.drop true
  rw [(update_holding _ _).1] at hdrop
  have htransfer := hdrop.transfer (i := true) (j := false) rfl Bool.false_ne_true.symm
  rwa [(update_holding _ _).2, (update_holding _ _).1] at htransfer

/-- A failed `start` that closes the new socket leaves nothing open. -/
theorem balanced_closed {results : StartResults} (h : w.Sound)
    (hfresh : ∀ k ∈ results.socket, ¬ IsOut w.log k) :
    Ledger.Balanced (holding none none)
      (w.listener.replaced results w.log ++ results.socket.toList.map .released) := by
  have hdrop := (balanced_replaced h hfresh).drop true
  rwa [(update_holding _ _).1] at hdrop

theorem sound_stop (h : w.Sound) : (w.after .stop).Sound := by
  have hdrop := Ledger.Balanced.drop h true
  rw [(update_holding _ _).1] at hdrop
  show Ledger.Balanced (holding none none) (w.listener.socket.closeHandle w.log).2
  rwa [Socket.closeHandle_eq]

/-- **One call** keeps the listener's handle all that is open. -/
theorem sound_after (h : w.Sound) (hfresh : w.Fresh call) : (w.after call).Sound := by
  cases call with
  | start port results =>
    have hreplaced := balanced_replaced h hfresh
    have hclosed := balanced_closed h hfresh
    rw [after, Listener.start_eq, Sound]
    by_cases hall : results.AllSucceed
    · simpa only [if_pos hall] using hreplaced
    · by_cases hoption : results.OptionFails
      · simpa only [if_neg hall, if_pos hoption] using hreplaced
      · simpa only [if_neg hall, if_neg hoption] using hclosed
  | stop => exact sound_stop h

theorem step_eq_some : w.step call = some w' ↔ w.Fresh call ∧ w' = w.after call := by
  rw [step]
  split
  · rename_i hfresh
    rw [Option.some.injEq, eq_comm]
    exact (and_iff_right hfresh).symm
  · rename_i hfresh
    simp [hfresh]

/-- **Every history.** -/
theorem sound_of_run {calls : List ListenerCall} (h : history.run calls = some w) : w.Sound := by
  refine TransitionSystem.run_induction (P := fun _ w ↦ w.Sound) ?_
    (fun _ w call w' _ hw hstep ↦ ?_) h
  · have hnone : holding none none = fun _ ↦ (none : Option ℕ) := by
      funext b
      cases b <;> rfl
    show Ledger.Balanced (holding none none) []
    rw [hnone]
    exact balanced_none
  · obtain ⟨hfresh, rfl⟩ := step_eq_some.1 hstep
    exact sound_after hw hfresh

/-! ### When a listener is truthful -/

section Start

variable {port : UInt16} {results : StartResults}

/-- After a `start` that succeeds. -/
theorem truthful_of_allSucceed (hall : results.AllSucceed) :
    w.Truthful (.start port results) := by
  have hstart := Listener.start_eq w.listener port results w.log
  rw [if_pos hall] at hstart
  have hsocket : (⟨results.socket⟩ : Socket).isValid = true := hall.1
  refine ⟨?_, ?_, fun hfailed ↦ ?_⟩
  · simp [after, started, hstart, Listener.isListening, hsocket]
  · simp [after, hstart, Listener.isListening, hsocket, ListenerCall.port]
  · simp [started, hstart] at hfailed

/-- After a `start` that cannot set the option: it says that it is listening. -/
theorem not_truthful_of_optionFails (hall : ¬ results.AllSucceed) (hoption : results.OptionFails) :
    ¬ w.Truthful (.start port results) := by
  intro htruthful
  have hstart := Listener.start_eq w.listener port results w.log
  rw [if_neg hall, if_pos hoption] at hstart
  have hsocket : (⟨results.socket⟩ : Socket).isValid = true := hoption.1
  have hlistening := htruthful.listening.1
  simp [after, started, hstart, Listener.isListening, hsocket] at hlistening

/-- After a `start` that fails elsewhere: the port of an earlier one is still there. -/
theorem truthful_iff_port (h : w.Sound) (hfresh : w.Fresh (.start port results))
    (hall : ¬ results.AllSucceed) (hoption : ¬ results.OptionFails) :
    w.Truthful (.start port results) ↔ w.listener.port = 0 := by
  have hstart := Listener.start_eq w.listener port results w.log
  rw [if_neg hall, if_neg hoption] at hstart
  constructor
  · intro htruthful
    have hport := htruthful.port
    simp only [after, hstart, Listener.isListening, Socket.isValid, Option.isSome_none,
      Bool.false_eq_true, if_false] at hport
    exact hport
  · intro hport
    refine ⟨?_, ?_, fun _ ↦ ?_⟩
    · simp [after, started, hstart, Listener.isListening, Socket.isValid]
    · simp [after, hstart, Listener.isListening, Socket.isValid, hport]
    · rw [after, hstart]
      exact not_isOut_of_balanced (balanced_closed h hfresh)

end Start

/-- **One call**: a listener is truthful after it exactly when it undoes all that failed. -/
theorem truthful_iff_undoesAll (h : w.Sound) (hfresh : w.Fresh call) :
    w.Truthful call ↔ w.UndoesAll call := by
  cases call with
  | start port results =>
    by_cases hall : results.AllSucceed
    · exact iff_of_true (truthful_of_allSucceed hall) (Or.inl hall)
    · refine Iff.trans ?_ (or_iff_right hall).symm
      by_cases hoption : results.OptionFails
      · exact iff_of_false (not_truthful_of_optionFails hall hoption) fun hundoes ↦
          hundoes.1 hoption
      · exact (truthful_iff_port h hfresh hall hoption).trans (and_iff_right hoption).symm
  | stop =>
    refine iff_of_true ⟨?_, rfl, fun _ ↦ not_isOut_of_balanced (sound_stop h)⟩ trivial
    exact iff_of_false Bool.false_ne_true Bool.false_ne_true

/-- **When a listener is truthful after every call of a history**: exactly when every call undoes
all that failed. -/
theorem truthful_iff {calls : List ListenerCall} (h : history.run calls = some w) :
    history.Meets Truthful calls ↔ history.Meets UndoesAll calls := by
  have hstep : ∀ pre call post s, calls = pre ++ call :: post → history.run pre = some s →
      (s.Truthful call ↔ s.UndoesAll call) := by
    intro pre call post s heq hs
    obtain ⟨r, hr⟩ := TransitionSystem.exists_step_of_run (heq ▸ h) hs
    exact truthful_iff_undoesAll (sound_of_run hs) (step_eq_some.1 hr).1
  constructor
  · exact fun hmeets pre call post s heq hs ↦
      (hstep pre call post s heq hs).1 (hmeets pre call post s heq hs)
  · exact fun hmeets pre call post s heq hs ↦
      (hstep pre call post s heq hs).2 (hmeets pre call post s heq hs)

/-- A listener that is started, stopped, and refused another port. -/
def refusedAfterStop : List ListenerCall :=
  [.start 8080 ⟨some 3, true, true, true⟩, .stop, .start 80 ⟨some 3, true, false, true⟩]

theorem refusedAfterStop_truthful : history.Meets Truthful refusedAfterStop :=
  (truthful_iff rfl).2 <|
    ((TransitionSystem.Meets.nil.concat rfl (by decide)).concat rfl trivial).concat rfl (by decide)

/-- The option cannot be set on the new socket. -/
def optionFails : List ListenerCall :=
  [.start 8080 ⟨some 3, false, true, true⟩]

/-- A listener that is started, and refused another port while it is listening. -/
def refusedWhileListening : List ListenerCall :=
  [.start 8080 ⟨some 3, true, true, true⟩, .start 80 ⟨some 4, true, false, true⟩]

/-- A listener whose `start` failed says that it is listening; one that is not listening any more
says that its port is 8080. -/
theorem not_truthful :
    ((history.run optionFails).isSome ∧ ¬ history.Meets Truthful optionFails) ∧
      (history.run refusedWhileListening).isSome ∧
        ¬ history.Meets Truthful refusedWhileListening := by
  refine ⟨⟨rfl, fun h ↦ ?_⟩, rfl, fun h ↦ ?_⟩
  · cases (h [] _ [] _ rfl rfl).listening.1 rfl
  · exact absurd (h [.start 8080 ⟨some 3, true, true, true⟩] _ [] _ rfl rfl).port (by decide)

end ListenerWorld

end FalconHTTP
