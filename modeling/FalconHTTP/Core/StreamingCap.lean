import FalconHTTP.Core.Chain
import FalconHTTP.Foundation.Population
import FalconHTTP.Foundation.TransitionSystem

/-!
# The cap on concurrent streams

`activeStreams_` is one atomic counter that all threads of the pool share. A thread in the chain
adds one and compares the old value with the cap; it is then *admitted* until the guard subtracts at
the end of its stream, or *refused* until the compensating subtraction. Every interleaving of these
operations is a run of `streamingSystem`, and `exists_run_of_chains` says that the chains of the
server do nothing else to the counter.

The counter is the number of admitted and refused threads together (`Counted`). So the cap holds
(`streaming_cap`), but a refused request takes a slot until it has subtracted, and another request
can be refused while streams are to be had (`not_noSpuriousRefusal`). `noSpuriousRefusal_iff` says
when that happens.
-/

namespace FalconHTTP

open FiniteMap

/-! ### One thread -/

/-- Where a thread stands between its operations on the counter. -/
inductive StreamPoint
  /-- It has nothing to subtract. -/
  | outside
  /-- It has a slot, and its `StreamHandler` may be running. -/
  | admitted
  /-- It answers `503`, and has yet to take back what it added. -/
  | refused
  deriving DecidableEq

/-- Where an operation takes a thread, given the cap. -/
def StreamPoint.after (maxStreamingConnections : ℕ) : StreamPoint → CounterOp → Option StreamPoint
  | .outside, .fetchAdd old => some (if old ≥ maxStreamingConnections then .refused else .admitted)
  | .admitted, .fetchSub => some .outside
  | .refused, .fetchSub => some .outside
  | _, _ => none

/-- A thread by itself. -/
def streamThread (maxStreamingConnections : ℕ) : TransitionSystem StreamPoint CounterOp where
  init := .outside
  step := StreamPoint.after maxStreamingConnections

/-- The effect of an operation on the counter, a `std::size_t`; a `fetch_add` returns its value. -/
def CounterOp.apply (activeStreams : UInt64) : CounterOp → Option UInt64
  | .fetchAdd old => if old = activeStreams.toNat then some (activeStreams + 1) else none
  | .fetchSub => some (activeStreams - 1)

/-- The counter by itself. -/
def streamCounter : TransitionSystem UInt64 CounterOp where
  init := 0
  step := CounterOp.apply

/-! ### All threads -/

/-- A pool of threads, `std::size_t` many. -/
structure Pool where
  /-- The number of threads. -/
  threadCount : ℕ
  /-- The number is a `std::size_t`. -/
  threadCount_lt : threadCount < UInt64.size

/-- A thread of the pool. -/
abbrev Pool.Thread (pool : Pool) := Fin pool.threadCount

/-- The counter, and where each thread stands. -/
structure StreamingState (pool : Pool) where
  /-- The value of `activeStreams_`. -/
  activeStreams : UInt64
  /-- Where each thread stands. -/
  point : pool.Thread → StreamPoint

namespace StreamingState

variable {pool : Pool} (s : StreamingState pool)

/-- The number of streams under way. -/
def admitted : ℕ :=
  population s.point .admitted

/-- The number of refused requests that have not been taken back. -/
def refused : ℕ :=
  population s.point .refused

/-- One operation of one thread. -/
def step (maxStreamingConnections : ℕ) (a : pool.Thread × CounterOp) :
    Option (StreamingState pool) :=
  (a.2.apply s.activeStreams).bind fun activeStreams ↦
    ((s.point a.1).after maxStreamingConnections a.2).map fun point ↦
      ⟨activeStreams, Function.update s.point a.1 point⟩

end StreamingState

/-- The threads of a pool at the counter of a server. -/
def streamingSystem (pool : Pool) (maxStreamingConnections : ℕ) :
    TransitionSystem (StreamingState pool) (pool.Thread × CounterOp) where
  init := ⟨0, fun _ ↦ .outside⟩
  step := fun s ↦ s.step maxStreamingConnections

namespace StreamingState

variable {pool : Pool} {maxStreamingConnections : ℕ} {s s' : StreamingState pool}
  {i : pool.Thread} {op : CounterOp}

/-- A step changes the counter and the point of one thread. -/
theorem step_eq_some_iff : s.step maxStreamingConnections (i, op) = some s' ↔
    op.apply s.activeStreams = some s'.activeStreams ∧
      (s.point i).after maxStreamingConnections op = some (s'.point i) ∧
      ∀ j, j ≠ i → s'.point j = s.point j := by
  simp only [step, Option.bind_eq_some_iff, Option.map_eq_some_iff]
  constructor
  · rintro ⟨activeStreams, happly, point, hafter, rfl⟩
    refine ⟨happly, ?_, fun j hj ↦ Function.update_of_ne hj _ _⟩
    rw [hafter]
    exact congrArg some (Function.update_self i point s.point).symm
  · rintro ⟨happly, hafter, hothers⟩
    refine ⟨s'.activeStreams, happly, s'.point i, hafter, ?_⟩
    have hpoint : Function.update s.point i (s'.point i) = s'.point := by
      rw [Function.update_eq_iff]
      exact ⟨rfl, fun j hj ↦ (hothers j hj).symm⟩
    rw [hpoint]

/-- What a step can do. -/
theorem step_cases (h : s.step maxStreamingConnections (i, op) = some s') :
    (s.point i = .outside ∧ op = .fetchAdd s.activeStreams.toNat ∧
      s' = ⟨s.activeStreams + 1, Function.update s.point i
        (if s.activeStreams.toNat ≥ maxStreamingConnections then .refused else .admitted)⟩) ∨
    (s.point i ≠ .outside ∧ op = .fetchSub ∧
      s' = ⟨s.activeStreams - 1, Function.update s.point i .outside⟩) := by
  simp only [step, Option.bind_eq_some_iff, Option.map_eq_some_iff] at h
  obtain ⟨activeStreams, happly, point, hafter, rfl⟩ := h
  cases op with
  | fetchAdd old =>
    simp only [CounterOp.apply, Option.ite_none_right_eq_some, Option.some.injEq] at happly
    obtain ⟨rfl, rfl⟩ := happly
    rcases hpoint : s.point i with - | - | - <;> rw [hpoint] at hafter
    · exact Or.inl ⟨rfl, rfl, by rw [← Option.some.inj hafter]⟩
    · cases hafter
    · cases hafter
  | fetchSub =>
    obtain rfl := Option.some.inj happly
    rcases hpoint : s.point i with - | - | - <;> rw [hpoint] at hafter
    · cases hafter
    · exact Or.inr ⟨StreamPoint.noConfusion, rfl, by rw [← Option.some.inj hafter]⟩
    · exact Or.inr ⟨StreamPoint.noConfusion, rfl, by rw [← Option.some.inj hafter]⟩

/-- The counter counts the threads that have yet to subtract, and the admitted ones keep to the
cap. -/
structure Counted (maxStreamingConnections : ℕ) (s : StreamingState pool) : Prop where
  /-- The counter counts the admitted and the refused. -/
  activeStreams_eq : s.activeStreams.toNat = s.admitted + s.refused
  /-- The cap. -/
  admitted_le : s.admitted ≤ maxStreamingConnections

/-- There are fewer threads than the counter can count. -/
theorem admitted_add_refused_lt (s : StreamingState pool) :
    s.admitted + s.refused < UInt64.size := by
  have hle := population_add_le s.point (p := .admitted) (q := .refused) StreamPoint.noConfusion
  rw [Fintype.card_fin] at hle
  exact hle.trans_lt pool.threadCount_lt

theorem admitted_move (s : StreamingState pool) (activeStreams : UInt64) (i : pool.Thread)
    (q : StreamPoint) :
    (⟨activeStreams, Function.update s.point i q⟩ : StreamingState pool).admitted +
      (if s.point i = .admitted then 1 else 0) = s.admitted + (if q = .admitted then 1 else 0) :=
  population_update s.point i q .admitted

theorem refused_move (s : StreamingState pool) (activeStreams : UInt64) (i : pool.Thread)
    (q : StreamPoint) :
    (⟨activeStreams, Function.update s.point i q⟩ : StreamingState pool).refused +
      (if s.point i = .refused then 1 else 0) = s.refused + (if q = .refused then 1 else 0) :=
  population_update s.point i q .refused

/-- The counter does not overflow when a thread adds. -/
theorem Counted.toNat_add_one (h : Counted maxStreamingConnections s)
    (hpoint : s.point i = .outside) :
    (s.activeStreams + 1).toNat = s.activeStreams.toNat + 1 := by
  have hlt := admitted_add_refused_lt ⟨s.activeStreams, Function.update s.point i .admitted⟩
  have hadmitted := admitted_move s s.activeStreams i .admitted
  have hrefused := refused_move s s.activeStreams i .admitted
  simp only [hpoint, reduceCtorEq, if_false, if_true, Nat.add_zero] at hadmitted hrefused
  rw [hadmitted, hrefused, Nat.add_right_comm, ← h.activeStreams_eq] at hlt
  rw [UInt64.toNat_add]
  exact Nat.mod_eq_of_lt hlt

/-- The counter does not underflow when a thread subtracts. -/
theorem Counted.toNat_sub_one (h : Counted maxStreamingConnections s)
    (hpoint : s.point i ≠ .outside) :
    (s.activeStreams - 1).toNat + 1 = s.activeStreams.toNat := by
  have hpos : 0 < s.activeStreams.toNat := by
    rw [h.activeStreams_eq]
    rcases hi : s.point i with - | - | -
    · exact absurd hi hpoint
    · exact Nat.add_pos_left (population_pos hi) _
    · exact Nat.add_pos_right _ (population_pos hi)
  have hle : (1 : UInt64) ≤ s.activeStreams := UInt64.le_iff_toNat_le.2 hpos
  rw [UInt64.toNat_sub_of_le _ _ hle]
  exact Nat.sub_add_cancel hpos

/-- A thread that adds is refused when the admitted and the refused ones together fill the cap. -/
theorem Counted.refused_iff (h : Counted maxStreamingConnections s) {old : ℕ}
    (hstep : s.step maxStreamingConnections (i, .fetchAdd old) = some s') :
    s'.point i = .refused ↔ maxStreamingConnections ≤ s.admitted + s.refused := by
  rw [← h.activeStreams_eq]
  rcases step_cases hstep with ⟨-, -, rfl⟩ | ⟨-, hop, -⟩
  · dsimp only
    rw [Function.update_self]
    split
    · rename_i hfull
      exact iff_of_true rfl hfull
    · rename_i hroom
      exact iff_of_false StreamPoint.noConfusion hroom
  · cases hop

/-- Every operation keeps the count. -/
theorem Counted.step (h : Counted maxStreamingConnections s)
    (hstep : s.step maxStreamingConnections (i, op) = some s') :
    Counted maxStreamingConnections s' := by
  have hcount := h.activeStreams_eq
  have hle := h.admitted_le
  rcases step_cases hstep with ⟨hpoint, rfl, rfl⟩ | ⟨hpoint, rfl, rfl⟩
  · have hadd := h.toNat_add_one hpoint
    split
    · -- the counter and the refused threads both grow by one
      have hadmitted := admitted_move s (s.activeStreams + 1) i .refused
      have hrefused := refused_move s (s.activeStreams + 1) i .refused
      simp only [hpoint, reduceCtorEq, if_false, if_true, Nat.add_zero] at hadmitted hrefused
      exact ⟨by dsimp only; omega, by omega⟩
    · -- the old value is below the cap, so there is room for one more stream
      have hadmitted := admitted_move s (s.activeStreams + 1) i .admitted
      have hrefused := refused_move s (s.activeStreams + 1) i .admitted
      simp only [hpoint, reduceCtorEq, if_false, if_true, Nat.add_zero] at hadmitted hrefused
      exact ⟨by dsimp only; omega, by omega⟩
  · have hsub := h.toNat_sub_one hpoint
    have hadmitted := admitted_move s (s.activeStreams - 1) i .outside
    have hrefused := refused_move s (s.activeStreams - 1) i .outside
    rcases hi : s.point i with - | - | -
    · exact absurd hi hpoint
    -- an admitted and a refused thread subtract alike
    all_goals
      simp only [hi, reduceCtorEq, if_false, if_true, Nat.add_zero] at hadmitted hrefused
      exact ⟨by dsimp only; omega, by omega⟩

end StreamingState

variable {pool : Pool} {maxStreamingConnections : ℕ} {as : List (pool.Thread × CounterOp)}
  {s : StreamingState pool}

/-- The count holds in every reachable state. -/
theorem counted_of_run (hs : (streamingSystem pool maxStreamingConnections).run as = some s) :
    s.Counted maxStreamingConnections := by
  refine TransitionSystem.run_induction (P := fun _ s ↦ s.Counted maxStreamingConnections)
    ⟨?_, ?_⟩ (fun _ _ a _ _ ih hstep ↦ ih.step hstep) hs
  · simp [streamingSystem, StreamingState.admitted, StreamingState.refused]
  · simp [streamingSystem, StreamingState.admitted]

/-- **The cap on streams**: in every reachable state at most `maxStreamingConnections` streams are
under way, the counter is the number of admitted and refused threads, it is `0` when there are none,
and a thread that subtracts finds it positive. -/
theorem streaming_cap (hs : (streamingSystem pool maxStreamingConnections).run as = some s) :
    s.admitted ≤ maxStreamingConnections ∧ s.activeStreams.toNat = s.admitted + s.refused ∧
      (s.admitted = 0 → s.refused = 0 → s.activeStreams = 0) ∧
      ∀ i s', s.step maxStreamingConnections (i, .fetchSub) = some s' →
        s'.activeStreams.toNat + 1 = s.activeStreams.toNat := by
  have hcounted := counted_of_run hs
  refine ⟨hcounted.admitted_le, hcounted.activeStreams_eq, fun hadmitted hrefused ↦ ?_,
    fun i s' hstep ↦ ?_⟩
  · have hzero := hcounted.activeStreams_eq
    rw [hadmitted, hrefused] at hzero
    exact UInt64.toNat_inj.1 hzero
  · rcases StreamingState.step_cases hstep with ⟨-, hop, -⟩ | ⟨hpoint, -, rfl⟩
    · cases hop
    · exact hcounted.toNat_sub_one hpoint

/-- A pool of two threads. -/
def twoThreads : Pool :=
  ⟨2, by decide⟩

/-- The first thread. -/
def firstThread : twoThreads.Thread :=
  (0 : Fin 2)

/-- The second thread. -/
def secondThread : twoThreads.Thread :=
  (1 : Fin 2)

/-- A request is refused while a stream is under way. -/
def fullCap : List (twoThreads.Thread × CounterOp) :=
  [(firstThread, .fetchAdd 0), (secondThread, .fetchAdd 1)]

/-- The cap in `fullCap`. -/
theorem streaming_cap_fullCap : ∃ s, (streamingSystem twoThreads 1).run fullCap = some s ∧
    s.admitted ≤ 1 ∧ s.activeStreams.toNat = s.admitted + s.refused :=
  have hcap := streaming_cap (show (streamingSystem twoThreads 1).run fullCap = some _ from rfl)
  ⟨_, rfl, hcap.1, hcap.2.1⟩

/-! ### The chains of a server -/

/-- The operations of one thread in a run. -/
def operations (i : pool.Thread) (as : List (pool.Thread × CounterOp)) : List CounterOp :=
  (as.filter (·.1 = i)).map Prod.snd

theorem operations_concat_self (i : pool.Thread) (op : CounterOp) :
    operations i (as ++ [(i, op)]) = operations i as ++ [op] := by
  simp [operations]

theorem operations_concat_of_ne {i j : pool.Thread} (hne : i ≠ j) (op : CounterOp) :
    operations j (as ++ [(i, op)]) = operations j as := by
  simp [operations, hne]

/-- **A run of the system** is a run of the counter and a run of each thread. -/
theorem run_eq_some_iff : (streamingSystem pool maxStreamingConnections).run as = some s ↔
    streamCounter.run (as.map Prod.snd) = some s.activeStreams ∧
      ∀ i, (streamThread maxStreamingConnections).run (operations i as) = some (s.point i) := by
  induction as using List.reverseRecOn generalizing s with
  | nil =>
    constructor
    · intro h
      obtain rfl := Option.some.inj h
      exact ⟨rfl, fun _ ↦ rfl⟩
    · rintro ⟨hcounter, hpoint⟩
      have hactive : (0 : UInt64) = s.activeStreams := Option.some.inj hcounter
      have hpoints : (fun _ ↦ .outside) = s.point := funext fun i ↦ Option.some.inj (hpoint i)
      exact congrArg some (by rw [streamingSystem, hactive, hpoints])
  | append_singleton as a ih =>
    obtain ⟨i, op⟩ := a
    rw [TransitionSystem.run_concat_eq_some_iff, List.map_append, List.map_singleton,
      TransitionSystem.run_concat_eq_some_iff]
    constructor
    · rintro ⟨r, hr, hstep⟩
      obtain ⟨hcounter, hpoint⟩ := ih.1 hr
      obtain ⟨happly, hafter, hothers⟩ := StreamingState.step_eq_some_iff.1 hstep
      refine ⟨⟨r.activeStreams, hcounter, happly⟩, fun j ↦ ?_⟩
      by_cases hj : j = i
      · subst hj
        rw [operations_concat_self, TransitionSystem.run_concat_eq_some_iff]
        exact ⟨r.point j, hpoint j, hafter⟩
      · rw [operations_concat_of_ne (Ne.symm hj), hothers j hj]
        exact hpoint j
    · rintro ⟨⟨activeStreams, hcounter, happly⟩, hpoint⟩
      have hself := hpoint i
      rw [operations_concat_self, TransitionSystem.run_concat_eq_some_iff] at hself
      obtain ⟨point, hrun, hafter⟩ := hself
      -- the state before the step: thread `i` where its run was, the others where they still are
      refine ⟨⟨activeStreams, Function.update s.point i point⟩, ih.2 ⟨hcounter, fun j ↦ ?_⟩,
        StreamingState.step_eq_some_iff.2 ⟨happly, ?_, fun j hj ↦ ?_⟩⟩
      · by_cases hj : j = i
        · subst hj
          exact hrun.trans (congrArg some (Function.update_self j point s.point).symm)
        · rw [← operations_concat_of_ne (Ne.symm hj) op, hpoint j]
          exact congrArg some (Function.update_of_ne hj point s.point).symm
      · dsimp only
        rw [Function.update_self]
        exact hafter
      · exact (Function.update_of_ne hj point s.point).symm

/-- A thread that runs chains one after another is `outside` between them. -/
theorem streamThread_countedOnce (maxStreamingConnections : ℕ) (olds : List ℕ) :
    (streamThread maxStreamingConnections).run (olds.flatMap Server.countedOnce) =
      some .outside := by
  induction olds using List.reverseRecOn with
  | nil => rfl
  | append_singleton olds old ih =>
    rw [List.flatMap_append, List.flatMap_singleton, TransitionSystem.run,
      TransitionSystem.runFrom_append, ← TransitionSystem.run, ih]
    by_cases hfull : old ≥ maxStreamingConnections
    · simp [streamThread, Server.countedOnce, TransitionSystem.runFrom, StreamPoint.after, hfull]
    · simp [streamThread, Server.countedOnce, TransitionSystem.runFrom, StreamPoint.after, hfull]

section Server

variable {M : Type} [FiniteMap M Bytes Bytes] (server : Server M)

/-- The operations of one chain on the counter. -/
def Server.chainOperations (request : HttpRequest M) (response : HttpResponse M) (s : ChainState) :
    List CounterOp :=
  (server.runChain server.middleware request response { s with counterOps := [] }).state.counterOps

theorem exists_chainOperations_eq (request : HttpRequest M) (response : HttpResponse M)
    (s : ChainState) :
    ∃ olds : List ℕ, server.chainOperations request response s = olds.flatMap Server.countedOnce :=
  server.runChain_counterOps server.middleware request response { s with counterOps := [] }

/-- **The chains of a server run in the system**: threads that do to the counter what chains do, one
chain after another, with the values that the counter had. -/
theorem exists_run_of_chains
    (calls : pool.Thread → List (HttpRequest M × HttpResponse M × ChainState))
    (hchains : ∀ i, operations i as <+:
      (calls i).flatMap fun call ↦ server.chainOperations call.1 call.2.1 call.2.2)
    {activeStreams : UInt64} (hcounter : streamCounter.run (as.map Prod.snd) = some activeStreams) :
    ∃ s, (streamingSystem pool server.maxStreamingConnections).run as = some s := by
  choose olds holds using exists_chainOperations_eq server
  have hthread : ∀ i, ∃ point,
      (streamThread server.maxStreamingConnections).run (operations i as) = some point := by
    intro i
    -- a prefix of the operations of whole chains, each of which the thread can run
    obtain ⟨rest, hrest⟩ := hchains i
    have hrun := streamThread_countedOnce server.maxStreamingConnections
      ((calls i).flatMap fun call ↦ olds call.1 call.2.1 call.2.2)
    rw [List.flatMap_assoc] at hrun
    simp only [← holds] at hrun
    rw [← hrest] at hrun
    obtain ⟨point, hpoint, -⟩ := TransitionSystem.exists_run_of_append hrun
    exact ⟨point, hpoint⟩
  choose point hpoint using hthread
  exact ⟨⟨activeStreams, point⟩, run_eq_some_iff.2 ⟨hcounter, hpoint⟩⟩

/-- A stream route enters when the value it gets admits its thread. -/
theorem enters_iff_admitted {request request' : HttpRequest M} {s : ChainState}
    {streamHandler : StreamHandler M} :
    server.Enters request s streamHandler request' ↔
      Router.matchStream request server.routes = some (streamHandler, request') ∧
        StreamPoint.after server.maxStreamingConnections .outside (.fetchAdd (s.fetched.headD 0)) =
          some .admitted := by
  constructor
  · rintro ⟨hmatch, hroom⟩
    exact ⟨hmatch, by rw [StreamPoint.after, if_neg (Nat.not_le.2 hroom)]⟩
  · rintro ⟨hmatch, hafter⟩
    refine ⟨hmatch, Nat.lt_of_not_le fun hfull ↦ ?_⟩
    rw [StreamPoint.after, if_pos hfull] at hafter
    cases hafter

/-- A stream route whose value refuses its thread is answered `503`. -/
theorem endOfChain_of_refused {request request' : HttpRequest M} (response : HttpResponse M)
    {s : ChainState} {streamHandler : StreamHandler M}
    (hmatch : Router.matchStream request server.routes = some (streamHandler, request'))
    (hafter : StreamPoint.after server.maxStreamingConnections .outside
      (.fetchAdd (s.fetched.headD 0)) = some .refused) :
    (server.endOfChain request response s).result = .ok false ∧
      (server.endOfChain request response s).response.status = .serviceUnavailable := by
  have hfull : s.fetched.headD 0 ≥ server.maxStreamingConnections := by
    by_contra hroom
    rw [StreamPoint.after, if_neg hroom] at hafter
    cases hafter
  rw [Server.endOfChain, hmatch]
  simp only [if_pos hfull]
  exact ⟨trivial, rfl⟩

end Server

/-! ### Refusals -/

section Refusals

variable (pool maxStreamingConnections)

/-- In a run, a thread is refused only when the streams under way fill the cap. -/
def NoSpuriousRefusal (as : List (pool.Thread × CounterOp)) : Prop :=
  ∀ pre i old post s s', as = pre ++ (i, .fetchAdd old) :: post →
    (streamingSystem pool maxStreamingConnections).run pre = some s →
    s.step maxStreamingConnections (i, .fetchAdd old) = some s' → s'.point i = .refused →
      maxStreamingConnections ≤ s.admitted

variable {pool}

/-- A thread does not add while the streams under way leave slots that the refused threads fill. -/
def SlotsVisible (s : StreamingState pool) (a : pool.Thread × CounterOp) : Prop :=
  a.2 ≠ .fetchSub → ¬ (s.admitted < maxStreamingConnections ∧
    maxStreamingConnections ≤ s.admitted + s.refused)

instance (s : StreamingState pool) (a : pool.Thread × CounterOp) :
    Decidable (SlotsVisible maxStreamingConnections s a) :=
  inferInstanceAs (Decidable (_ → _))

variable {maxStreamingConnections}

/-- **When no refusal is spurious**: exactly when no thread adds while refused threads fill slots
that streams have left. -/
theorem noSpuriousRefusal_iff
    (hs : (streamingSystem pool maxStreamingConnections).run as = some s) :
    NoSpuriousRefusal pool maxStreamingConnections as ↔
      (streamingSystem pool maxStreamingConnections).Meets
        (SlotsVisible maxStreamingConnections) as := by
  constructor
  · rintro hspurious pre ⟨i, op⟩ post r rfl hr hadd ⟨hroom, hfull⟩
    obtain ⟨r', hstep⟩ := TransitionSystem.exists_step_of_run hs hr
    cases op with
    | fetchAdd old =>
      have hrefused := ((counted_of_run hr).refused_iff hstep).2 hfull
      exact absurd (hspurious pre i old post r r' rfl hr hstep hrefused) (Nat.not_le.2 hroom)
    | fetchSub => exact absurd rfl hadd
  · rintro hmeets pre i old post r r' rfl hr hstep hrefused
    have hfull := ((counted_of_run hr).refused_iff hstep).1 hrefused
    by_contra hroom
    exact hmeets pre (i, .fetchAdd old) post r rfl hr CounterOp.noConfusion
      ⟨Nat.lt_of_not_le hroom, hfull⟩

/-- The refused request of `fullCap` subtracts before the next one adds. -/
def freedSlot : List (twoThreads.Thread × CounterOp) :=
  fullCap ++ [(firstThread, .fetchSub), (secondThread, .fetchSub)] ++ [(firstThread, .fetchAdd 0)]

/-- No refusal of `freedSlot` is spurious. -/
theorem noSpuriousRefusal_freedSlot : NoSpuriousRefusal twoThreads 1 freedSlot := by
  have hfull : (streamingSystem twoThreads 1).Meets (SlotsVisible 1) fullCap :=
    (TransitionSystem.Meets.nil.concat rfl (by decide)).concat rfl (by decide)
  have hmeets : (streamingSystem twoThreads 1).Meets (SlotsVisible 1) freedSlot :=
    (hfull.append_of_forall (by simp [SlotsVisible])).concat rfl (by decide)
  exact (noSpuriousRefusal_iff
    (show (streamingSystem twoThreads 1).run freedSlot = some _ from rfl)).2 hmeets

end Refusals

/-- The stream of `fullCap` ends while the refused request has yet to subtract, and the next request
is refused with no stream under way. -/
def withheldSlot : List (twoThreads.Thread × CounterOp) :=
  fullCap ++ [(firstThread, .fetchSub)] ++ [(firstThread, .fetchAdd 1)]

/-- In `withheldSlot` a refusal is spurious, under the cap that a server with two threads has. -/
theorem not_noSpuriousRefusal : ¬ ∀ pool maxStreamingConnections as s, 0 < maxStreamingConnections →
    (streamingSystem pool maxStreamingConnections).run as = some s →
      NoSpuriousRefusal pool maxStreamingConnections as := by
  intro h
  have hspurious := h twoThreads (resolveMaxStreamingConnections 0 2) withheldSlot _ (by decide) rfl
    (fullCap ++ [(firstThread, .fetchSub)]) firstThread 1 [] _ _ rfl rfl rfl rfl
  exact absurd hspurious (by decide)

end FalconHTTP
