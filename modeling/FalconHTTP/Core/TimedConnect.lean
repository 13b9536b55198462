import FalconHTTP.Core.Connection

/-!
# Connecting with a timeout

`Socket::connect` with a timeout puts the socket in non-blocking mode, starts the connection, and
when that is in progress waits in `poll`. The system's side is a `ConnectAnswers`: how each call
ends, and an infinite sequence of outcomes for the polls. A poll that a signal interrupts has used
some of the wait it was given.

The polls of one attempt are a list of `PollCall`s, so that two things can be said of them. They are
`WithinBudget` when a poll is only repeated after an interruption, with no more than what is left of
its wait; then there is at most one for each millisecond of the first wait, and one more
(`WithinBudget.length_le`). The loop of `awaitConnect` repeats a poll with the whole wait, so its
polls are within a budget only if there is one, and it ends only if some poll is not interrupted:
`connect_endsInTime_iff` has the exact conditions, and a timer that fires every millisecond is a
sequence under which `connect` never returns.
-/

namespace FalconHTTP

/-! ### Polls -/

/-- What one call of `poll` comes to. -/
inductive PollOutcome
  /-- The descriptor is ready. -/
  | ready
  /-- The wait is over. -/
  | timedOut
  /-- The call fails, other than by a signal. -/
  | failed
  /-- A signal interrupts the call, which has used some milliseconds of its wait. -/
  | interrupted (elapsed : ℕ) (pos : 0 < elapsed)

namespace PollOutcome

/-- What the call returns. -/
def result : PollOutcome → ℤ
  | ready => 1
  | timedOut => 0
  | failed => -1
  | interrupted _ _ => -1

/-- `errno == EINTR`. -/
def eintr : PollOutcome → Bool
  | interrupted _ _ => true
  | _ => false

theorem result_neg_of_eintr {outcome : PollOutcome} (h : outcome.eintr = true) :
    outcome.result < 0 := by
  cases outcome with
  | ready => cases h
  | timedOut => cases h
  | failed => cases h
  | interrupted elapsed pos => exact Int.negSucc_lt_zero 0

end PollOutcome

/-- One call of `poll`. -/
structure PollCall where
  /-- The wait it was given, in milliseconds. -/
  wait : ℕ
  /-- What it came to. -/
  outcome : PollOutcome

/-- The polls share the budget of the first: one is repeated only after an interruption, and with no
more than what the interrupted one has left. -/
def WithinBudget (calls : List PollCall) : Prop :=
  calls.IsChain fun call next ↦
    ∃ elapsed pos, call.outcome = .interrupted elapsed pos ∧ next.wait + elapsed ≤ call.wait

/-- **A budget bounds the polls**: each interruption uses a millisecond of the first wait. -/
theorem WithinBudget.length_le {call : PollCall} {calls : List PollCall}
    (h : WithinBudget (call :: calls)) : calls.length ≤ call.wait := by
  induction calls generalizing call with
  | nil => exact Nat.zero_le _
  | cons next calls ih =>
    rw [WithinBudget, List.isChain_cons_cons] at h
    obtain ⟨⟨elapsed, pos, -, hle⟩, hrest⟩ := h
    have hlength : calls.length ≤ next.wait := ih hrest
    rw [List.length_cons]
    omega

/-- The loop around `poll`, from a number of polls on: the last result, and the calls; `none` when
the fuel runs out. -/
def pollLoop (timeoutMs : ℕ) (polls : ℕ → PollOutcome) : ℕ → ℕ → Option (ℤ × List PollCall)
  | 0, _ => none
  | fuel + 1, made =>
    let outcome := polls made
    if outcome.result < 0 ∧ outcome.eintr then
      (pollLoop timeoutMs polls fuel (made + 1)).map fun ran ↦
        (ran.1, ⟨timeoutMs, outcome⟩ :: ran.2)
    else some (outcome.result, [⟨timeoutMs, outcome⟩])

section PollLoop

variable {timeoutMs : ℕ} {polls : ℕ → PollOutcome} {fuel made : ℕ}

/-- An interrupted poll is repeated, with the whole wait. -/
theorem pollLoop_of_eintr (h : (polls made).eintr = true) :
    pollLoop timeoutMs polls (fuel + 1) made =
      (pollLoop timeoutMs polls fuel (made + 1)).map fun ran ↦
        (ran.1, ⟨timeoutMs, polls made⟩ :: ran.2) :=
  if_pos ⟨PollOutcome.result_neg_of_eintr h, h⟩

/-- Any other poll is the last. -/
theorem pollLoop_of_not_eintr (h : (polls made).eintr = false) :
    pollLoop timeoutMs polls (fuel + 1) made =
      some ((polls made).result, [⟨timeoutMs, polls made⟩]) :=
  if_neg fun hpolled ↦ Bool.false_ne_true (h.symm.trans hpolled.2)

/-- The loop ends at a poll that is not interrupted. -/
theorem exists_pollLoop {left : ℕ} (h : (polls (made + left)).eintr = false) :
    ∃ ready calls, pollLoop timeoutMs polls (left + 1) made = some (ready, calls) ∧
      calls.length ≤ left + 1 := by
  induction left generalizing made with
  | zero => exact ⟨_, _, pollLoop_of_not_eintr h, Nat.le_refl 1⟩
  | succ left ih =>
    rcases hfirst : (polls made).eintr with - | -
    · exact ⟨_, _, pollLoop_of_not_eintr hfirst, Nat.le_add_left 1 _⟩
    · have hlater : (polls (made + 1 + left)).eintr = false := by
        rwa [Nat.add_assoc, Nat.add_comm 1 left]
      obtain ⟨ready, calls, hrun, hlength⟩ := ih hlater
      refine ⟨ready, ⟨timeoutMs, polls made⟩ :: calls, ?_, Nat.succ_le_succ hlength⟩
      rw [pollLoop_of_eintr hfirst, hrun, Option.map_some]

/-- What a run of the loop made: its last poll is not interrupted, and when the first one is, the
second had the whole wait again. -/
theorem pollLoop_spec {ready : ℤ} {calls : List PollCall}
    (h : pollLoop timeoutMs polls fuel made = some (ready, calls)) :
    ∃ left, calls.length = left + 1 ∧ (polls (made + left)).eintr = false ∧
      ∃ rest, calls = ⟨timeoutMs, polls made⟩ :: rest ∧
        ((polls made).eintr = true → ∃ rest', rest = ⟨timeoutMs, polls (made + 1)⟩ :: rest') := by
  induction fuel generalizing made ready calls with
  | zero => cases h
  | succ fuel ih =>
    rcases hfirst : (polls made).eintr with - | -
    · rw [pollLoop_of_not_eintr hfirst] at h
      cases h
      exact ⟨0, rfl, hfirst, [], rfl, fun heintr ↦ absurd heintr Bool.false_ne_true⟩
    · rw [pollLoop_of_eintr hfirst, Option.map_eq_some_iff] at h
      obtain ⟨⟨ready', calls'⟩, hrun, hran⟩ := h
      obtain ⟨left, hlength, hlast, rest, rfl, -⟩ := ih hrun
      cases hran
      refine ⟨left + 1, congrArg (· + 1) hlength, ?_, _, rfl, fun _ ↦ ⟨rest, rfl⟩⟩
      rwa [← Nat.add_assoc, Nat.add_right_comm]

/-- The polls of the loop share a budget only when there is one. -/
theorem withinBudget_pollLoop_iff {ready : ℤ} {calls : List PollCall}
    (h : pollLoop timeoutMs polls fuel made = some (ready, calls)) :
    WithinBudget calls ↔ (polls made).eintr = false := by
  obtain ⟨left, hlength, hlast, rest, rfl, hagain⟩ := pollLoop_spec h
  constructor
  · intro hbudget
    rw [Bool.eq_false_iff]
    intro heintr
    obtain ⟨rest', rfl⟩ := hagain heintr
    rw [WithinBudget, List.isChain_cons_cons] at hbudget
    obtain ⟨⟨elapsed, pos, -, hle⟩, -⟩ := hbudget
    have hused : timeoutMs + elapsed ≤ timeoutMs := hle
    omega
  · intro hfirst
    obtain ⟨fuel, rfl⟩ := Nat.exists_eq_add_one_of_ne_zero (n := fuel) (by rintro rfl; cases h)
    rw [pollLoop_of_not_eintr hfirst] at h
    cases h
    exact .singleton _

end PollLoop

/-! ### Connecting -/

/-- What `::connect` comes to on a socket that does not block. -/
inductive ConnectAttempt
  /-- The connection is established at once. -/
  | established
  /-- `EINPROGRESS`. -/
  | inProgress
  /-- The attempt fails. -/
  | failed

/-- What the system answers in one `connect`. -/
structure ConnectAnswers where
  /-- `inet_pton` accepts the address. -/
  addressValid : Bool
  /-- The socket can be put in non-blocking mode. -/
  madeNonBlocking : Bool
  /-- How the attempt starts. -/
  attempt : ConnectAttempt
  /-- The polls, as many as are made. -/
  polls : ℕ → PollOutcome
  /-- `SO_ERROR`; `none` when `getsockopt` fails. -/
  pendingError : Option ℤ
  /-- The socket can be put back in blocking mode. -/
  madeBlocking : Bool

/-- What came of one `connect`. -/
structure ConnectRun where
  /-- The result. -/
  connected : Bool
  /-- The polls that were made. -/
  polls : List PollCall
  /-- Whether the socket is left in non-blocking mode. -/
  nonBlocking : Bool

namespace Socket

/-- `std::numeric_limits<int>::max()`. -/
def intMax : ℤ :=
  2147483647

/-- Set or clear non-blocking mode, when the system lets it: the result, and the mode. -/
def setNonBlocking (allowed enable nonBlocking : Bool) : Bool × Bool :=
  if allowed then (true, enable) else (false, nonBlocking)

/-- Whether the connection is established, by the last result of `poll` and `SO_ERROR`. -/
def established (ready : ℤ) (pendingError : Option ℤ) : Bool :=
  if ready ≤ 0 then false
  else
    match pendingError with
    | none => false
    | some error => error == 0

/-- Wait for a connection in progress, and read its outcome. -/
def awaitConnect (timeoutMs : ℕ) (polls : ℕ → PollOutcome) (pendingError : Option ℤ) (fuel : ℕ) :
    Option (Bool × List PollCall) :=
  (pollLoop timeoutMs polls fuel 0).map fun ran ↦ (established ran.1 pendingError, ran.2)

/-- The wait that `poll` is given. -/
def clamped (timeout : ℤ) : ℕ :=
  (min timeout intMax).toNat

/-- Connect, giving up after a timeout; `none` when the polls do not end within the fuel. -/
def connect (socket : Socket) (timeout : ℤ) (answers : ConnectAnswers) (nonBlocking : Bool)
    (fuel : ℕ) : Option ConnectRun :=
  if ¬ socket.isValid ∨ timeout ≤ 0 ∨ ¬ answers.addressValid then some ⟨false, [], nonBlocking⟩
  else
    match setNonBlocking answers.madeNonBlocking true nonBlocking with
    | (false, nonBlocking) => some ⟨false, [], nonBlocking⟩
    | (true, nonBlocking) =>
      -- blocking mode on return, whatever the result
      let restored := (setNonBlocking answers.madeBlocking false nonBlocking).2
      match answers.attempt with
      | .established => some ⟨true, [], restored⟩
      | .failed => some ⟨false, [], restored⟩
      | .inProgress =>
        (awaitConnect (clamped timeout) answers.polls answers.pendingError fuel).map fun ran ↦
          ⟨ran.1, ran.2, restored⟩

/-- The attempt gets as far as waiting for the connection. -/
structure Awaits (socket : Socket) (timeout : ℤ) (answers : ConnectAnswers) : Prop where
  /-- The socket owns a descriptor. -/
  isValid : socket.isValid = true
  /-- The timeout is positive. -/
  timeout_pos : 0 < timeout
  /-- The address is valid. -/
  addressValid : answers.addressValid = true
  /-- The socket does not block. -/
  madeNonBlocking : answers.madeNonBlocking = true
  /-- The connection is in progress. -/
  inProgress : answers.attempt = .inProgress

section Connect

variable {socket : Socket} {timeout : ℤ} {answers : ConnectAnswers} {nonBlocking : Bool} {fuel : ℕ}

theorem clamped_le (timeout : ℤ) : clamped timeout ≤ timeout.toNat := by
  rw [clamped, intMax]
  omega

/-- An attempt that does not get as far as waiting makes no poll. -/
theorem connect_of_not_awaits (h : ¬ Awaits socket timeout answers) :
    ∃ run, socket.connect timeout answers nonBlocking fuel = some run ∧ run.polls = [] := by
  rw [connect]
  split
  · exact ⟨_, rfl, rfl⟩
  · rename_i hrefused
    simp only [not_or, Int.not_le, not_not] at hrefused
    obtain ⟨hvalid, htimeout, haddress⟩ := hrefused
    rw [setNonBlocking]
    rcases hallowed : answers.madeNonBlocking with - | -
    · exact ⟨_, rfl, rfl⟩
    · rcases hattempt : answers.attempt with - | - | -
      · exact ⟨_, rfl, rfl⟩
      · exact absurd ⟨hvalid, htimeout, haddress, hallowed, hattempt⟩ h
      · exact ⟨_, rfl, rfl⟩

/-- An attempt that waits makes the polls of the loop. -/
theorem connect_of_awaits (h : Awaits socket timeout answers) :
    socket.connect timeout answers nonBlocking fuel =
      (pollLoop (clamped timeout) answers.polls fuel 0).map fun ran ↦
        ⟨established ran.1 answers.pendingError, ran.2,
          (setNonBlocking answers.madeBlocking false true).2⟩ := by
  have hproceeds : ¬ (¬ socket.isValid = true ∨ timeout ≤ 0 ∨ ¬ answers.addressValid = true) := by
    simp [h.isValid, h.addressValid, h.timeout_pos]
  rw [connect, if_neg hproceeds, h.madeNonBlocking]
  simp only [setNonBlocking, if_true, h.inProgress, awaitConnect, Option.map_map]
  rfl

/-- When the loop ends the attempt does, with its polls. -/
theorem exists_connect (h : Awaits socket timeout answers) {ready : ℤ} {calls : List PollCall}
    (hloop : pollLoop (clamped timeout) answers.polls fuel 0 = some (ready, calls)) :
    ∃ run, socket.connect timeout answers nonBlocking fuel = some run ∧ run.polls = calls := by
  rw [connect_of_awaits h, hloop]
  exact ⟨_, rfl, rfl⟩

/-- The polls of an attempt that returns are those of the loop. -/
theorem exists_pollLoop_of_connect (h : Awaits socket timeout answers) {run : ConnectRun}
    (hrun : socket.connect timeout answers nonBlocking fuel = some run) :
    ∃ ready, pollLoop (clamped timeout) answers.polls fuel 0 = some (ready, run.polls) := by
  rw [connect_of_awaits h, Option.map_eq_some_iff] at hrun
  obtain ⟨ran, hloop, rfl⟩ := hrun
  exact ⟨ran.1, hloop⟩

/-- **Blocking mode on return**: a socket that was blocking is left so, whatever the result, when
the system lets the mode be restored. -/
theorem connect_nonBlocking (hallowed : answers.madeBlocking = true) {run : ConnectRun}
    (h : socket.connect timeout answers false fuel = some run) : run.nonBlocking = false := by
  rw [connect] at h
  split at h
  · cases h
    rfl
  · rcases hset : answers.madeNonBlocking with - | -
    · rw [hset] at h
      cases h
      rfl
    · rw [hset, hallowed] at h
      rcases hattempt : answers.attempt with - | - | -
      · rw [hattempt] at h
        cases h
        rfl
      · rw [hattempt] at h
        obtain ⟨ran, -, rfl⟩ := Option.map_eq_some_iff.1 h
        rfl
      · rw [hattempt] at h
        cases h
        rfl

/-! ### Ending in time -/

/-- The attempt returns, after no more polls than the timeout has milliseconds, and one. -/
def EndsInTime (socket : Socket) (timeout : ℤ) (answers : ConnectAnswers) (nonBlocking : Bool) :
    Prop :=
  ∃ fuel run, socket.connect timeout answers nonBlocking fuel = some run ∧
    run.polls.length ≤ timeout.toNat + 1

/-- The attempt returns, and each poll after the first had what was left of the one before. -/
def KeepsBudget (socket : Socket) (timeout : ℤ) (answers : ConnectAnswers) (nonBlocking : Bool) :
    Prop :=
  ∃ fuel run, socket.connect timeout answers nonBlocking fuel = some run ∧ WithinBudget run.polls

/-- The attempt ends in time exactly when it makes no poll, or one of as many polls as there may be
is not interrupted. -/
theorem endsInTime_iff :
    socket.EndsInTime timeout answers nonBlocking ↔
      ¬ Awaits socket timeout answers ∨ ∃ k ≤ timeout.toNat, (answers.polls k).eintr = false := by
  by_cases hawaits : Awaits socket timeout answers
  · constructor
    · rintro ⟨fuel, run, hrun, hlength⟩
      obtain ⟨ready, hloop⟩ := exists_pollLoop_of_connect hawaits hrun
      obtain ⟨left, hcalls, hlast, -⟩ := pollLoop_spec hloop
      refine .inr ⟨left, ?_, by rwa [Nat.zero_add] at hlast⟩
      rw [hcalls] at hlength
      exact Nat.le_of_succ_le_succ hlength
    · rintro (hnot | ⟨k, hk, hpoll⟩)
      · exact absurd hawaits hnot
      have hlast : (answers.polls (0 + k)).eintr = false := by rwa [Nat.zero_add]
      obtain ⟨ready, calls, hloop, hlength⟩ := exists_pollLoop hlast
      obtain ⟨run, hrun, hpolls⟩ := exists_connect hawaits hloop
      refine ⟨k + 1, run, hrun, ?_⟩
      rw [hpolls]
      exact Nat.le_trans hlength (Nat.succ_le_succ hk)
  · obtain ⟨run, hrun, hpolls⟩ := connect_of_not_awaits hawaits
    refine ⟨fun _ ↦ .inl hawaits, fun _ ↦ ⟨0, run, hrun, ?_⟩⟩
    rw [hpolls]
    exact Nat.zero_le _

/-- The polls keep the budget exactly when there are none, or the first one is not interrupted. -/
theorem keepsBudget_iff :
    socket.KeepsBudget timeout answers nonBlocking ↔
      ¬ Awaits socket timeout answers ∨ (answers.polls 0).eintr = false := by
  by_cases hawaits : Awaits socket timeout answers
  · constructor
    · rintro ⟨fuel, run, hrun, hbudget⟩
      obtain ⟨ready, hloop⟩ := exists_pollLoop_of_connect hawaits hrun
      exact .inr ((withinBudget_pollLoop_iff hloop).1 hbudget)
    · rintro (hnot | hfirst)
      · exact absurd hawaits hnot
      have hloop : pollLoop (clamped timeout) answers.polls 1 0 = some (_, [_]) :=
        pollLoop_of_not_eintr hfirst
      obtain ⟨run, hrun, hpolls⟩ := exists_connect hawaits hloop
      refine ⟨1, run, hrun, ?_⟩
      rw [hpolls]
      exact .singleton _
  · obtain ⟨run, hrun, hpolls⟩ := connect_of_not_awaits hawaits
    refine ⟨fun _ ↦ .inl hawaits, fun _ ↦ ⟨0, run, hrun, ?_⟩⟩
    rw [hpolls]
    exact .nil

/-- Polls that keep the budget end in time. -/
theorem KeepsBudget.endsInTime (h : socket.KeepsBudget timeout answers nonBlocking) :
    socket.EndsInTime timeout answers nonBlocking := by
  obtain ⟨fuel, run, hrun, hbudget⟩ := h
  refine ⟨fuel, run, hrun, ?_⟩
  by_cases hawaits : Awaits socket timeout answers
  · obtain ⟨ready, hloop⟩ := exists_pollLoop_of_connect hawaits hrun
    obtain ⟨left, -, -, rest, hcalls, -⟩ := pollLoop_spec hloop
    rw [hcalls] at hbudget ⊢
    have hrest : rest.length ≤ clamped timeout := hbudget.length_le
    exact Nat.succ_le_succ (Nat.le_trans hrest (clamped_le timeout))
  · obtain ⟨run', hrun', hpolls⟩ := connect_of_not_awaits hawaits
    obtain rfl : run = run' := Option.some_inj.1 (hrun.symm.trans hrun')
    rw [hpolls]
    exact Nat.zero_le _

end Connect

/-- **When a timed connect ends**: in as many polls as the timeout has milliseconds, and one,
exactly when it makes no poll or one of these is not interrupted; and by its budget exactly when it
makes no poll or the first is not interrupted. -/
theorem connect_endsInTime_iff (socket : Socket) (timeout : ℤ) (answers : ConnectAnswers)
    (nonBlocking : Bool) :
    (socket.EndsInTime timeout answers nonBlocking ↔
      ¬ Awaits socket timeout answers ∨ ∃ k ≤ timeout.toNat, (answers.polls k).eintr = false) ∧
    (socket.KeepsBudget timeout answers nonBlocking ↔
      ¬ Awaits socket timeout answers ∨ (answers.polls 0).eintr = false) :=
  ⟨endsInTime_iff, keepsBudget_iff⟩

/-- A connection in progress, while a timer fires every millisecond. -/
def timerAnswers : ConnectAnswers where
  addressValid := true
  madeNonBlocking := true
  attempt := .inProgress
  polls := fun _ ↦ .interrupted 1 Nat.one_pos
  pendingError := some 0
  madeBlocking := true

/-- Half a second is not the end of the wait: under the timer no number of polls is enough. -/
theorem not_endsInTime_timer :
    ¬ EndsInTime ⟨some 3⟩ 500 timerAnswers false ∧
      ∀ fuel, connect ⟨some 3⟩ 500 timerAnswers false fuel = none := by
  have hawaits : Awaits ⟨some 3⟩ 500 timerAnswers := ⟨rfl, by decide, rfl, rfl, rfl⟩
  constructor
  · rw [endsInTime_iff]
    rintro (hnot | ⟨k, -, hpoll⟩)
    · exact hnot hawaits
    · cases hpoll
  · intro fuel
    rw [connect_of_awaits hawaits, Option.map_eq_none_iff, Option.eq_none_iff_forall_ne_some]
    rintro ⟨ready, calls⟩ hloop
    obtain ⟨left, -, hlast, -⟩ := pollLoop_spec hloop
    cases hlast

end Socket

end FalconHTTP
