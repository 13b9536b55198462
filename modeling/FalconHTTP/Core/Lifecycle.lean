import FalconHTTP.Core.Connection
import FalconHTTP.Foundation.TransitionSystem

/-!
# Starting and stopping a server

One thread executes `Server::run` and another `Server::stop`, after `Server::start` has succeeded
and with no later call of the three. Each access to `running_` and each call on the listener is one
step, and the steps of the two threads interleave freely.

`run` checks the listener and stores `running_ = true` in two steps. When `stop` stores `false`
between them, the store of `run` comes last: `running_` is `true` for good, and the loop goes round
on a closed listener (`lostStop_spins`). `stopKept_storesFirst` says that this is the only way
in which a stop is lost.
-/

namespace FalconHTTP

/-! ### The listener -/

/-- A listener: its socket and the port it is bound to. -/
structure Listener where
  /-- The listening socket, if any. -/
  socket : Socket
  /-- The port; `0` when the listener is stopped. -/
  port : ℕ

namespace Listener

/-- Whether the listener owns a socket. -/
def isListening (listener : Listener) : Bool :=
  listener.socket.isValid

/-- One call of `accept`, with the descriptor the system call returns, if any. Without a listening
socket the call fails. -/
def accept (listener : Listener) (clientFd : Option ℕ) : Socket :=
  if listener.isListening then ⟨clientFd⟩ else ⟨none⟩

/-- Close the socket. -/
def stop (listener : Listener) : Listener :=
  { listener with socket := ⟨none⟩, port := 0 }

end Listener

/-! ### The two threads -/

/-- The step the thread in `run` takes next. -/
inductive RunPoint
  /-- The check of the router and the listener. -/
  | check
  /-- `running_ = true`. -/
  | store
  /-- The test of `running_` at the head of the loop. -/
  | test
  /-- `listener_.accept()` and what the loop does with the socket. -/
  | accept
  /-- `run` has returned. -/
  | returned
  deriving DecidableEq

/-- The step the thread in `stop` takes next. -/
inductive StopPoint
  /-- `running_ = false`. -/
  | store
  /-- `listener_.stop()`. -/
  | listener
  /-- `stop` has returned. -/
  | returned
  deriving DecidableEq

/-- A server between `start` and the end of `run` and `stop`. -/
structure Lifecycle where
  /-- Whether a router is bound. -/
  routerBound : Bool
  /-- The flag `running_`. -/
  running : Bool
  /-- The listener. -/
  listener : Listener
  /-- The accepted sockets handed to the pool so far. -/
  detached : List Socket
  /-- Where `run` stands. -/
  runPoint : RunPoint
  /-- Where `stop` stands. -/
  stopPoint : StopPoint

/-- A step of one of the two threads. -/
inductive LifecycleStep
  /-- `run` checks the router and the listener. -/
  | runCheck
  /-- `run` stores `true`. -/
  | runStore
  /-- `run` tests the flag. -/
  | runTest
  /-- `run` accepts, with the descriptor the system call returns. -/
  | runAccept (clientFd : Option ℕ)
  /-- `stop` stores `false`. -/
  | stopStore
  /-- `stop` stops the listener. -/
  | stopListener
  deriving DecidableEq

namespace LifecycleStep

/-- A test of the flag. -/
def isTest : LifecycleStep → Bool
  | runTest => true
  | _ => false

/-- A call of `accept`. -/
def isAccept : LifecycleStep → Bool
  | runAccept _ => true
  | _ => false

end LifecycleStep

namespace Lifecycle

/-- The step is the next one of its thread. -/
def Ready (s : Lifecycle) : LifecycleStep → Prop
  | .runCheck => s.runPoint = .check
  | .runStore => s.runPoint = .store
  | .runTest => s.runPoint = .test
  | .runAccept _ => s.runPoint = .accept
  | .stopStore => s.stopPoint = .store
  | .stopListener => s.stopPoint = .listener

instance (s : Lifecycle) : (a : LifecycleStep) → Decidable (s.Ready a)
  | .runCheck => inferInstanceAs (Decidable (_ = _))
  | .runStore => inferInstanceAs (Decidable (_ = _))
  | .runTest => inferInstanceAs (Decidable (_ = _))
  | .runAccept _ => inferInstanceAs (Decidable (_ = _))
  | .stopStore => inferInstanceAs (Decidable (_ = _))
  | .stopListener => inferInstanceAs (Decidable (_ = _))

/-- What a step does. -/
def after (s : Lifecycle) : LifecycleStep → Lifecycle
  | .runCheck =>
    { s with runPoint := if ¬ s.routerBound ∨ ¬ s.listener.isListening then .returned else .store }
  -- the check is not repeated: whatever `stop` has done since is overwritten
  | .runStore => { s with running := true, runPoint := .test }
  | .runTest => { s with runPoint := if s.running then .accept else .returned }
  | .runAccept clientFd =>
    let clientSocket := s.listener.accept clientFd
    -- an invalid socket is skipped and the loop goes on
    { s with
      detached := if ¬ clientSocket.isValid then s.detached else s.detached ++ [clientSocket]
      runPoint := .test }
  | .stopStore => { s with running := false, stopPoint := .listener }
  | .stopListener => { s with listener := s.listener.stop, stopPoint := .returned }

/-- One step of the two threads. -/
def step (s : Lifecycle) (a : LifecycleStep) : Option Lifecycle :=
  if s.Ready a then some (s.after a) else none

/-- A server that has been started, with neither thread under way. -/
def started (routerBound : Bool) (fd port : ℕ) : Lifecycle where
  routerBound := routerBound
  running := false
  listener := ⟨⟨some fd⟩, port⟩
  detached := []
  runPoint := .check
  stopPoint := .store

/-- `run` and `stop` on a started server. -/
def system (routerBound : Bool) (fd port : ℕ) : TransitionSystem Lifecycle LifecycleStep where
  init := started routerBound fd port
  step := step

theorem step_eq_some {s s' : Lifecycle} {a : LifecycleStep} :
    s.step a = some s' ↔ s.Ready a ∧ s' = s.after a := by
  rw [step]
  split
  · rename_i hready
    rw [Option.some.injEq, eq_comm]
    exact (and_iff_right hready).symm
  · rename_i hready
    simp [hready]

/-! ### What a stop promises -/

section Stop

variable (routerBound : Bool) (fd port : ℕ)

/-- In the rest of a run, once `stop` has returned, `running_` stays `false`, and at most one test
of it and at most one `accept` are still to come. -/
def StopKept (as : List LifecycleStep) : Prop :=
  ∀ pre mid post s s', as = pre ++ (mid ++ post) →
    (system routerBound fd port).run pre = some s → s.stopPoint = .returned →
    (system routerBound fd port).runFrom s mid = some s' →
      s'.running = false ∧ mid.countP LifecycleStep.isTest ≤ 1 ∧
        mid.countP LifecycleStep.isAccept ≤ 1

/-- `run` does not store `true` after `stop` has stored `false`. -/
def StoresFirst (s : Lifecycle) (a : LifecycleStep) : Prop :=
  a = .runStore → s.stopPoint = .store

variable {routerBound fd port} {s s' : Lifecycle} {a : LifecycleStep} {as : List LifecycleStep}

/-- `stop` has returned and nothing has undone it. -/
structure Stopped (s : Lifecycle) : Prop where
  /-- `stop` has returned. -/
  stopPoint_eq : s.stopPoint = .returned
  /-- The flag is down. -/
  running_eq : s.running = false
  /-- The listener is closed. -/
  isListening_eq : s.listener.isListening = false

/-- `stop` has stored `false`, and `run` has stored `true` after it. -/
structure Lost (s : Lifecycle) : Prop where
  /-- `stop` has stored `false`. -/
  stopPoint_ne : s.stopPoint ≠ .store
  /-- The flag is up. -/
  running_eq : s.running = true

/-- The listener is closed when `stop` returns. -/
theorem isListening_of_returned (hs : (system routerBound fd port).run as = some s) :
    s.stopPoint = .returned → s.listener.isListening = false := by
  refine TransitionSystem.run_induction
    (P := fun _ s ↦ s.stopPoint = .returned → s.listener.isListening = false)
    (fun h ↦ by cases h) (fun _ r a r' _ ih hstep hstop ↦ ?_) hs
  obtain ⟨-, rfl⟩ := step_eq_some.1 hstep
  cases a with
  | runCheck => exact ih hstop
  | runStore => exact ih hstop
  | runTest => exact ih hstop
  | runAccept clientFd => exact ih hstop
  | stopStore => cases hstop
  | stopListener => rfl

/-- As long as `run` stores first, the flag is down from the store of `stop` on. -/
theorem running_of_meets (hmeets : (system routerBound fd port).Meets StoresFirst as)
    (hs : (system routerBound fd port).run as = some s) :
    s.stopPoint ≠ .store → s.running = false := by
  refine TransitionSystem.run_induction_of_meets
    (P := fun _ s ↦ s.stopPoint ≠ .store → s.running = false)
    (fun h ↦ absurd rfl h) (fun _ r a r' ih hcond hstep hstop ↦ ?_) hmeets hs
  obtain ⟨-, rfl⟩ := step_eq_some.1 hstep
  cases a with
  | runCheck => exact ih hstop
  | runStore => exact absurd (hcond rfl) hstop
  | runTest => exact ih hstop
  | runAccept clientFd => exact ih hstop
  | stopStore => rfl
  | stopListener =>
    -- the store of `stop` is behind, so the flag is down already
    obtain ⟨hready, -⟩ := step_eq_some.1 hstep
    exact ih (by rw [show r.stopPoint = .listener from hready]; decide)

/-- The tests of the flag still to come, once it is down and the listener is closed. -/
def testsLeft (s : Lifecycle) : ℕ :=
  match s.runPoint with
  | .test | .accept => 1
  | .check | .store | .returned => 0

/-- The calls of `accept` still to come, once the flag is down and the listener is closed. -/
def acceptsLeft (s : Lifecycle) : ℕ :=
  match s.runPoint with
  | .accept => 1
  | .check | .store | .test | .returned => 0

theorem testsLeft_le_one (s : Lifecycle) : testsLeft s ≤ 1 := by
  rw [testsLeft]
  split <;> decide

theorem acceptsLeft_le_one (s : Lifecycle) : acceptsLeft s ≤ 1 := by
  rw [acceptsLeft]
  split <;> decide

/-- A step after `stop` has returned. -/
theorem Stopped.step (hstopped : Stopped s) (hcond : StoresFirst s a) (hstep : s.step a = some s') :
    Stopped s' ∧
      (if a.isTest then 1 else 0) + testsLeft s' ≤ testsLeft s ∧
      (if a.isAccept then 1 else 0) + acceptsLeft s' ≤ acceptsLeft s := by
  obtain ⟨hready, rfl⟩ := step_eq_some.1 hstep
  have hkept : ∀ {r : Lifecycle}, r.stopPoint = s.stopPoint → r.running = s.running →
      r.listener = s.listener → Stopped r := fun hpoint hrunning hlistener ↦
    ⟨hpoint.trans hstopped.stopPoint_eq, hrunning.trans hstopped.running_eq,
      hlistener ▸ hstopped.isListening_eq⟩
  cases a with
  | runCheck =>
    -- the listener is closed, so `run` returns without a test
    refine ⟨hkept rfl rfl rfl, ?_⟩
    simp [testsLeft, acceptsLeft, after, hstopped.isListening_eq, LifecycleStep.isTest,
      LifecycleStep.isAccept]
  | runStore =>
    have := hcond rfl
    rw [hstopped.stopPoint_eq] at this
    cases this
  | runTest =>
    -- the flag is down, so this test is the last
    refine ⟨hkept rfl rfl rfl, ?_⟩
    simp [testsLeft, acceptsLeft, after, hstopped.running_eq, LifecycleStep.isTest,
      LifecycleStep.isAccept, show s.runPoint = .test from hready]
  | runAccept clientFd =>
    refine ⟨hkept rfl rfl rfl, ?_⟩
    simp [testsLeft, acceptsLeft, after, LifecycleStep.isTest, LifecycleStep.isAccept,
      show s.runPoint = .accept from hready]
  | stopStore =>
    have hpoint : s.stopPoint = .store := hready
    rw [hstopped.stopPoint_eq] at hpoint
    cases hpoint
  | stopListener =>
    have hpoint : s.stopPoint = .listener := hready
    rw [hstopped.stopPoint_eq] at hpoint
    cases hpoint

/-- Where `run` stores first, a stop is kept. -/
theorem stopKept_of_meets (hmeets : (system routerBound fd port).Meets StoresFirst as) :
    StopKept routerBound fd port as := by
  rintro pre mid post s s' rfl hs hstop hs'
  have hstopped : Stopped s :=
    ⟨hstop, running_of_meets hmeets.of_append hs (by rw [hstop]; decide),
      isListening_of_returned hs hstop⟩
  obtain ⟨hstopped', htests⟩ :=
    TransitionSystem.countP_le_of_meets LifecycleStep.isTest testsLeft
      (fun _ _ _ hr hcond hstep ↦ ⟨(hr.step hcond hstep).1, (hr.step hcond hstep).2.1⟩)
      hmeets hs hstopped hs'
  obtain ⟨-, haccepts⟩ :=
    TransitionSystem.countP_le_of_meets LifecycleStep.isAccept acceptsLeft
      (fun _ _ _ hr hcond hstep ↦ ⟨(hr.step hcond hstep).1, (hr.step hcond hstep).2.2⟩)
      hmeets hs hstopped hs'
  have htestsLeft := testsLeft_le_one s
  have hacceptsLeft := acceptsLeft_le_one s
  exact ⟨hstopped'.running_eq, by omega, by omega⟩

/-- A lost stop stays lost. -/
theorem Lost.step (hlost : Lost s) (hstep : s.step a = some s') : Lost s' := by
  obtain ⟨hready, rfl⟩ := step_eq_some.1 hstep
  cases a with
  | runCheck => exact ⟨hlost.stopPoint_ne, hlost.running_eq⟩
  | runStore => exact ⟨hlost.stopPoint_ne, rfl⟩
  | runTest => exact ⟨hlost.stopPoint_ne, hlost.running_eq⟩
  | runAccept clientFd => exact ⟨hlost.stopPoint_ne, hlost.running_eq⟩
  | stopStore => exact absurd hready hlost.stopPoint_ne
  | stopListener => exact ⟨StopPoint.noConfusion, hlost.running_eq⟩

/-- A run in which `run` does not store first has lost the stop. -/
theorem meets_or_lost (hs : (system routerBound fd port).run as = some s) :
    (system routerBound fd port).Meets StoresFirst as ∨ Lost s := by
  refine TransitionSystem.run_induction
    (P := fun as s ↦ (system routerBound fd port).Meets StoresFirst as ∨ Lost s)
    (Or.inl .nil) (fun as r a r' hr ih hstep ↦ ?_) hs
  rcases ih with hmeets | hlost
  · by_cases hcond : StoresFirst r a
    · exact Or.inl (hmeets.concat hr hcond)
    · obtain ⟨-, rfl⟩ := step_eq_some.1 hstep
      obtain ⟨rfl, hpoint⟩ := Classical.not_imp.1 hcond
      exact Or.inr ⟨hpoint, rfl⟩
  · exact Or.inr (hlost.step hstep)

/-- **When a stop is kept**: whenever `run` stores first; and in a run in which `stop` returns, only
then. -/
theorem stopKept_storesFirst (hs : (system routerBound fd port).run as = some s) :
    ((system routerBound fd port).Meets StoresFirst as → StopKept routerBound fd port as) ∧
      (s.stopPoint = .returned → StopKept routerBound fd port as →
        (system routerBound fd port).Meets StoresFirst as) := by
  refine ⟨stopKept_of_meets, fun hstop hkept ↦ ?_⟩
  rcases meets_or_lost hs with hmeets | hlost
  · exact hmeets
  · -- at the end of the run `stop` has returned and the flag is up
    obtain ⟨hrunning, -⟩ := hkept as [] [] s s (by simp) hs hstop rfl
    rw [hlost.running_eq] at hrunning
    cases hrunning

/-- A run in which `stop` finds `run` in `accept`. -/
def keptStop : List LifecycleStep :=
  [.runCheck, .runStore] ++ [.runTest, .stopStore, .stopListener, .runAccept none, .runTest]

/-- The stop of `keptStop` is kept. -/
theorem stopKept_keptStop : StopKept true 3 8080 keptStop := by
  have hstored : (system true 3 8080).Meets StoresFirst [.runCheck, .runStore] :=
    (TransitionSystem.Meets.nil.concat rfl LifecycleStep.noConfusion).concat rfl fun _ ↦ rfl
  have hmeets : (system true 3 8080).Meets StoresFirst keptStop :=
    hstored.append_of_forall (by simp [StoresFirst])
  exact (stopKept_storesFirst (show (system true 3 8080).run keptStop = some _ from rfl)).1 hmeets

/-- `stop` falls between the check and the store of `run`. -/
def lostStop : List LifecycleStep :=
  [.runCheck, .stopStore, .stopListener, .runStore]

/-- One turn of the loop on a closed listener. -/
def idleTurn : List LifecycleStep :=
  [.runTest, .runAccept none]

end Stop

/-- The stop is lost: `running_` is `true` after `stop` has returned. -/
theorem not_stopKept : ¬ ∀ routerBound fd port as s,
    (system routerBound fd port).run as = some s → StopKept routerBound fd port as := by
  intro h
  have hkept := h true 3 8080 lostStop _ rfl
  obtain ⟨hrunning, -⟩ := hkept [.runCheck, .stopStore, .stopListener] [.runStore] [] _ _
    rfl rfl rfl rfl
  cases hrunning

/-- After a lost stop the loop goes round forever, however often it has gone round before. -/
theorem lostStop_spins (fd port turns : ℕ) :
    ∃ s, (system true fd port).run (lostStop ++ (List.replicate turns idleTurn).flatten) = some s ∧
      s.stopPoint = .returned ∧ s.running = true ∧ s.runPoint = .test ∧ s.detached = [] := by
  have hstate : ∀ n, (system true fd port).run (lostStop ++ (List.replicate n idleTurn).flatten) =
      (system true fd port).run lostStop := by
    intro n
    induction n with
    | zero => rw [List.replicate_zero, List.flatten_nil, List.append_nil]
    | succ n ih =>
      rw [List.replicate_succ', List.flatten_concat, ← List.append_assoc, TransitionSystem.run,
        TransitionSystem.runFrom_append, ← TransitionSystem.run, ih]
      rfl
  exact ⟨_, hstate turns, rfl, rfl, rfl, rfl⟩

end Lifecycle

end FalconHTTP
