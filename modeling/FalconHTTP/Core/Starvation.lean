import FalconHTTP.Core.StreamingCap
import FalconHTTP.Middleware.Cors
import Mathlib.Algebra.BigOperators.Fin
import Mathlib.Algebra.BigOperators.Group.Finset.Basic

/-!
# What streams leave of the thread pool

A stream keeps the thread it runs on until its client goes away, which may be never. The cap on
streams is there so that a burst of subscribers does not take all threads from the other requests.
Here the threads of a pool take connections from a queue, in any order. The requests on them are
such as the middlewares pass on to the end of the chain (`Server.PassedRequest`): those of
subscribers, which a stream route serves, and others. So a thread that has a subscriber goes through
the counter of `streamingSystem` (`run_chainOperations`), and leaves the connection when it has
subtracted again.

`others_handled_iff`: whatever the queue holds, the other requests are all handled without any
stream having to end, exactly when the cap is below the number of threads. With the default, half of
the pool, this is so from two threads on; with a cap that is configured, it is for the
configuration to see to.
-/

namespace FalconHTTP

open FiniteMap

variable {M : Type} [FiniteMap M Bytes Bytes]

/-- The middlewares pass the request on to the end of the chain, once and as it is. -/
def Server.PassedOn (server : Server M) (request : HttpRequest M) : Prop :=
  ∃ sets, List.Forall₂ (Server.PassesOn request) server.middleware sets

/-- A request that comes to the end of the chain. -/
abbrev Server.PassedRequest (server : Server M) :=
  {request : HttpRequest M // server.PassedOn request}

/-- A stream route serves the request. -/
def Server.subscribes (server : Server M) (request : HttpRequest M) : Bool :=
  (Router.matchStream request server.routes).isSome

/-! ### One connection -/

/-- How far the thread of a connection has come. -/
inductive HandlingStage
  /-- It has not come to a stream route. -/
  | chain
  /-- It has, and has added to the counter. -/
  | counted
  /-- It has subtracted again. -/
  | released
  deriving DecidableEq

namespace HandlingStage

/-- Where an operation on the counter takes a thread. -/
def after (subscribes : Bool) : HandlingStage → CounterOp → Option HandlingStage
  | .chain, .fetchAdd _ => if subscribes then some .counted else none
  | .counted, .fetchSub => some .released
  | _, _ => none

/-- Whether the thread is done with the counter. -/
def finishes (subscribes : Bool) : HandlingStage → Bool
  | .chain => !subscribes
  | .counted => false
  | .released => true

/-- What an operation can do. -/
theorem after_cases {subscribes : Bool} {stage stage' : HandlingStage} {op : CounterOp}
    (h : stage.after subscribes op = some stage') :
    (stage = .chain ∧ (∃ old, op = .fetchAdd old) ∧ subscribes = true ∧ stage' = .counted) ∨
      (stage = .counted ∧ op = .fetchSub ∧ stage' = .released) := by
  cases stage with
  | chain =>
    cases op with
    | fetchAdd old =>
      obtain ⟨hsubscribes, hstage⟩ := Option.ite_none_right_eq_some.1 h
      exact Or.inl ⟨rfl, ⟨old, rfl⟩, hsubscribes, (Option.some.inj hstage).symm⟩
    | fetchSub => cases h
  | counted =>
    cases op with
    | fetchAdd old => cases h
    | fetchSub => exact Or.inr ⟨rfl, rfl, (Option.some.inj h).symm⟩
  | released => cases h

end HandlingStage

/-- The thread of a connection by itself. -/
def handlingThread (subscribes : Bool) : TransitionSystem HandlingStage CounterOp where
  init := .chain
  step := HandlingStage.after subscribes

/-- What the end of the chain does to the counter. -/
theorem Server.counterOps_endOfChain (server : Server M) (request : HttpRequest M)
    (response : HttpResponse M) (s : ChainState) :
    (server.endOfChain request response s).state.counterOps =
      s.counterOps ++
        if server.subscribes request then countedOnce (s.fetched.headD 0) else [] := by
  rcases enters_or server request s with ⟨streamHandler, request', henters⟩ | hnot
  · rw [(endOfChain_of_enters response henters).2, subscribes, henters.1]
    exact List.append_assoc _ _ _
  · rw [endOfChain, subscribes]
    split
    · rename_i streamHandler request' hmatch
      rw [if_pos (Nat.le_of_not_lt fun hlt ↦ hnot streamHandler request' ⟨hmatch, hlt⟩), hmatch]
      exact List.append_assoc _ _ _
    · rename_i hnone
      rw [hnone]
      split <;> exact (List.append_nil _).symm

/-- **The chain of a server is such a thread**, for the requests that come to its end. -/
theorem run_chainOperations (server : Server M) (request : server.PassedRequest)
    (response : HttpResponse M) (s : ChainState) :
    ∃ stage, (handlingThread (server.subscribes request)).run
        (server.chainOperations request response s) = some stage ∧
      stage.finishes (server.subscribes request) = true := by
  obtain ⟨request, sets, hpasses⟩ := request
  rw [Server.chainOperations, Server.runChain_of_passesOn hpasses, Server.counterOps_endOfChain]
  rcases server.subscribes request with - | -
  · exact ⟨.chain, rfl, rfl⟩
  · exact ⟨.released, rfl, rfl⟩

/-! ### All connections -/

/-- Where a connection stands. -/
inductive ConnectionPoint
  /-- It waits for a thread, or is still to come. -/
  | queued
  /-- A thread has it. -/
  | taken
  /-- Its thread has left it. -/
  | handled
  deriving DecidableEq

/-- The counter and the threads at it, the connection of each thread, and where each connection
stands. -/
structure HandlingState (pool : Pool) (ι : Type*) where
  /-- The counter, and where each thread stands at it. -/
  streams : StreamingState pool
  /-- The connection of each thread, and how far the thread has come with it. -/
  job : pool.Thread → Option (ι × HandlingStage)
  /-- Where each connection stands. -/
  point : ι → ConnectionPoint

/-- A step of one thread. -/
inductive HandlingAction (pool : Pool) (ι : Type*)
  /-- It takes a connection from the queue. -/
  | take (t : pool.Thread) (k : ι)
  /-- It operates on the counter. -/
  | count (t : pool.Thread) (op : CounterOp)
  /-- It leaves its connection. -/
  | finish (t : pool.Thread)

section Handling

variable {pool : Pool} {ι : Type*} [DecidableEq ι]

/-- One step, where `subscribes` says which connections are those of subscribers. -/
def HandlingState.step (maxStreamingConnections : ℕ) (subscribes : ι → Bool)
    (s : HandlingState pool ι) : HandlingAction pool ι → Option (HandlingState pool ι)
  | .take t k =>
    if (s.job t).isNone ∧ s.point k = .queued then
      some { s with
        job := Function.update s.job t (some (k, .chain))
        point := Function.update s.point k .taken }
    else none
  | .count t op =>
    (s.job t).bind fun job ↦
      (job.2.after (subscribes job.1) op).bind fun stage ↦
        (s.streams.step maxStreamingConnections (t, op)).map fun streams ↦
          { s with
            streams := streams
            job := Function.update s.job t (some (job.1, stage)) }
  | .finish t =>
    (s.job t).bind fun job ↦
      if job.2.finishes (subscribes job.1) then
        some { s with
          job := Function.update s.job t none
          point := Function.update s.point job.1 .handled }
      else none

/-- The threads of a pool, and connections with these requests. All of them come to the end of the
chain, so what a thread does at the counter is up to the routes (`run_chainOperations`). -/
def handling (server : Server M) (pool : Pool) (request : ι → server.PassedRequest) :
    TransitionSystem (HandlingState pool ι) (HandlingAction pool ι) where
  init := ⟨(streamingSystem pool server.maxStreamingConnections).init, fun _ ↦ none,
    fun _ ↦ .queued⟩
  step := HandlingState.step server.maxStreamingConnections fun k ↦ server.subscribes (request k)

namespace HandlingState

variable {maxStreamingConnections : ℕ} {subscribes : ι → Bool} {s s' : HandlingState pool ι}
  {t : pool.Thread} {k : ι} {op : CounterOp}

/-- A free thread takes a connection that waits. -/
theorem step_take_eq_some_iff : s.step maxStreamingConnections subscribes (.take t k) = some s' ↔
    (s.job t = none ∧ s.point k = .queued) ∧ s' = { s with
      job := Function.update s.job t (some (k, .chain))
      point := Function.update s.point k .taken } := by
  rw [step, Option.ite_none_right_eq_some, Option.some.injEq, Option.isNone_iff_eq_none,
    eq_comm (a := s')]

/-- A thread operates on the counter. -/
theorem step_count_eq_some_iff : s.step maxStreamingConnections subscribes (.count t op) = some s' ↔
    ∃ k stage stage' streams, s.job t = some (k, stage) ∧
      stage.after (subscribes k) op = some stage' ∧
      s.streams.step maxStreamingConnections (t, op) = some streams ∧ s' = { s with
        streams := streams
        job := Function.update s.job t (some (k, stage')) } := by
  simp only [step, Option.bind_eq_some_iff, Option.map_eq_some_iff]
  constructor
  · rintro ⟨⟨k, stage⟩, hjob, stage', hafter, streams, hstreams, rfl⟩
    exact ⟨k, stage, stage', streams, hjob, hafter, hstreams, rfl⟩
  · rintro ⟨k, stage, stage', streams, hjob, hafter, hstreams, rfl⟩
    exact ⟨(k, stage), hjob, stage', hafter, streams, hstreams, rfl⟩

/-- A thread that is done with its connection leaves it. -/
theorem step_finish_eq_some_iff : s.step maxStreamingConnections subscribes (.finish t) = some s' ↔
    ∃ k stage, s.job t = some (k, stage) ∧ stage.finishes (subscribes k) = true ∧ s' = { s with
      job := Function.update s.job t none
      point := Function.update s.point k .handled } := by
  simp only [step, Option.bind_eq_some_iff, Option.ite_none_right_eq_some, Option.some.injEq]
  constructor
  · rintro ⟨⟨k, stage⟩, hjob, hfinishes, rfl⟩
    exact ⟨k, stage, hjob, hfinishes, rfl⟩
  · rintro ⟨k, stage, hjob, hfinishes, rfl⟩
    exact ⟨(k, stage), hjob, hfinishes, rfl⟩

/-- What holds in every reachable state. -/
structure Inv (maxStreamingConnections : ℕ) (subscribes : ι → Bool) (s : HandlingState pool ι) :
    Prop where
  /-- The counter counts. -/
  counted : s.streams.Counted maxStreamingConnections
  /-- A thread has something to subtract when it has added. -/
  outside_iff : ∀ t, s.streams.point t = .outside ↔ ∀ k, s.job t ≠ some (k, .counted)
  /-- Only a subscriber's thread adds. -/
  subscribes : ∀ t k, s.job t = some (k, .counted) → subscribes k = true
  /-- A connection that has been taken has a thread. -/
  thread : ∀ k, s.point k = .taken → ∃ t stage, s.job t = some (k, stage)

/-- A connection is taken. -/
theorem Inv.step_take (h : s.Inv maxStreamingConnections subscribes)
    (hstep : s.step maxStreamingConnections subscribes (.take t k) = some s') :
    s'.Inv maxStreamingConnections subscribes := by
  obtain ⟨⟨hfree, -⟩, rfl⟩ := step_take_eq_some_iff.1 hstep
  have hself : ∀ l, Function.update s.job t (some (k, .chain)) t ≠ some (l, .counted) := by
    intro l hl
    rw [Function.update_self] at hl
    cases hl
  refine ⟨h.counted, fun u ↦ ?_, fun u l hl ↦ ?_, fun l hl ↦ ?_⟩
  · rcases eq_or_ne u t with rfl | hne
    · exact iff_of_true ((h.outside_iff u).2 fun l ↦ by simp [hfree]) hself
    · exact (h.outside_iff u).trans (by simp only [Function.update_of_ne hne])
  · rcases eq_or_ne u t with rfl | hne
    · exact absurd hl (hself l)
    · exact h.subscribes u l (by simpa only [Function.update_of_ne hne] using hl)
  · rcases eq_or_ne l k with rfl | hne
    · exact ⟨t, .chain, Function.update_self _ _ _⟩
    · obtain ⟨u, stage, hu⟩ := h.thread l (by simpa [Function.update_of_ne hne] using hl)
      have hut : u ≠ t := by
        rintro rfl
        rw [hfree] at hu
        cases hu
      exact ⟨u, stage, (Function.update_of_ne hut _ _).trans hu⟩

/-- A thread operates on the counter. -/
theorem Inv.step_count (h : s.Inv maxStreamingConnections subscribes)
    (hstep : s.step maxStreamingConnections subscribes (.count t op) = some s') :
    s'.Inv maxStreamingConnections subscribes := by
  obtain ⟨k, stage, stage', streams, hjob, hafter, hstreams, rfl⟩ :=
    step_count_eq_some_iff.1 hstep
  have hothers := (StreamingState.step_eq_some_iff.1 hstreams).2.2
  have hself : (streams.point t = .outside ↔ stage' ≠ .counted) ∧
      (stage' = .counted → subscribes k = true) := by
    rcases HandlingStage.after_cases hafter with
      ⟨-, ⟨old, rfl⟩, hsubscribes, rfl⟩ | ⟨-, rfl, rfl⟩
    · rcases StreamingState.step_cases hstreams with ⟨-, -, rfl⟩ | ⟨-, hop, -⟩
      · refine ⟨iff_of_false ?_ (not_not_intro rfl), fun _ ↦ hsubscribes⟩
        simp only [Function.update_self]
        split <;> simp
      · cases hop
    · rcases StreamingState.step_cases hstreams with ⟨-, hop, -⟩ | ⟨-, -, rfl⟩
      · cases hop
      · exact ⟨iff_of_true (Function.update_self _ _ _) (by simp), by simp⟩
  refine ⟨h.counted.step hstreams, fun u ↦ ?_, fun u l hl ↦ ?_, fun l hl ↦ ?_⟩
  · rcases eq_or_ne u t with rfl | hne
    · refine hself.1.trans ?_
      simp
    · simp only [hothers u hne, Function.update_of_ne hne]
      exact h.outside_iff u
  · rcases eq_or_ne u t with rfl | hne
    · simp only [Function.update_self] at hl
      obtain ⟨rfl, hstage⟩ := Prod.mk.inj (Option.some.inj hl)
      exact hself.2 hstage
    · exact h.subscribes u l (by simpa only [Function.update_of_ne hne] using hl)
  · obtain ⟨u, stage'', hu⟩ := h.thread l hl
    rcases eq_or_ne u t with rfl | hne
    · obtain ⟨rfl, -⟩ := Prod.mk.inj (Option.some.inj (hjob.symm.trans hu))
      exact ⟨u, stage', Function.update_self _ _ _⟩
    · exact ⟨u, stage'', (Function.update_of_ne hne _ _).trans hu⟩

/-- A thread leaves its connection. -/
theorem Inv.step_finish (h : s.Inv maxStreamingConnections subscribes)
    (hstep : s.step maxStreamingConnections subscribes (.finish t) = some s') :
    s'.Inv maxStreamingConnections subscribes := by
  obtain ⟨k, stage, hjob, hfinishes, rfl⟩ := step_finish_eq_some_iff.1 hstep
  refine ⟨h.counted, fun u ↦ ?_, fun u l hl ↦ ?_, fun l hl ↦ ?_⟩
  · rcases eq_or_ne u t with rfl | hne
    · refine iff_of_true ((h.outside_iff u).2 fun l hl ↦ ?_) (by simp)
      obtain ⟨-, rfl⟩ := Prod.mk.inj (Option.some.inj (hjob.symm.trans hl))
      cases hfinishes
    · exact (h.outside_iff u).trans (by simp only [Function.update_of_ne hne])
  · rcases eq_or_ne u t with rfl | hne
    · simp at hl
    · exact h.subscribes u l (by simpa only [Function.update_of_ne hne] using hl)
  · rcases eq_or_ne l k with rfl | hne
    · simp at hl
    · obtain ⟨u, stage', hu⟩ := h.thread l (by simpa [Function.update_of_ne hne] using hl)
      have hut : u ≠ t := by
        rintro rfl
        exact hne (Prod.mk.inj (Option.some.inj (hu.symm.trans hjob))).1
      exact ⟨u, stage', (Function.update_of_ne hut _ _).trans hu⟩

/-! ### How long a run is -/

/-- How many steps a thread can still take with its connection. -/
def left : Option (ι × HandlingStage) → ℕ
  | none => 0
  | some (_, .chain) => 3
  | some (_, .counted) => 2
  | some (_, .released) => 1

/-- How many steps can still be taken. -/
def budget [Fintype ι] (s : HandlingState pool ι) : ℕ :=
  4 * population s.point .queued + ∑ t, left (s.job t)

omit [DecidableEq ι] in
/-- A thread changes what is left for it. -/
theorem sum_left_update (job : pool.Thread → Option (ι × HandlingStage)) (t : pool.Thread)
    (j : Option (ι × HandlingStage)) :
    ∑ u, left (Function.update job t j u) + left (job t) = ∑ u, left (job u) + left j := by
  have hupdate : ∀ u, left (Function.update job t j u) =
      Function.update (fun u ↦ left (job u)) t (left j) u := fun u ↦
    Function.apply_update (fun _ ↦ left) job t j u
  simp only [hupdate]
  have hsplit := Finset.sum_eq_add_sum_sdiff_singleton_of_mem (Finset.mem_univ t)
    fun u ↦ left (job u)
  rw [Finset.sum_update_of_mem (Finset.mem_univ t)]
  omega

/-- **Every step uses up a part of the budget.** -/
theorem budget_step [Fintype ι] {a : HandlingAction pool ι}
    (hstep : s.step maxStreamingConnections subscribes a = some s') :
    s'.budget + 1 ≤ s.budget := by
  cases a with
  | take t k =>
    obtain ⟨⟨hfree, hqueued⟩, rfl⟩ := step_take_eq_some_iff.1 hstep
    have hjobs := sum_left_update s.job t (some (k, .chain))
    have hqueue := population_update s.point k .taken .queued
    have hfresh : left (some (k, .chain)) = 3 := rfl
    rw [hfree, left.eq_1, hfresh] at hjobs
    simp only [hqueued, if_true, reduceCtorEq, if_false, Nat.add_zero] at hqueue
    simp only [budget]
    omega
  | count t op =>
    obtain ⟨k, stage, stage', streams, hjob, hafter, -, rfl⟩ := step_count_eq_some_iff.1 hstep
    have hjobs := sum_left_update s.job t (some (k, stage'))
    have hless : left (some (k, stage')) + 1 = left (some (k, stage)) := by
      rcases HandlingStage.after_cases hafter with ⟨rfl, -, -, rfl⟩ | ⟨rfl, -, rfl⟩
      · rfl
      · rfl
    rw [hjob] at hjobs
    simp only [budget]
    omega
  | finish t =>
    obtain ⟨k, stage, hjob, -, rfl⟩ := step_finish_eq_some_iff.1 hstep
    have hjobs := sum_left_update s.job t none
    have hqueue := population_update s.point k .handled .queued
    have hpos : 0 < left (some (k, stage)) := by cases stage <;> exact Nat.succ_pos _
    rw [hjob, left.eq_1] at hjobs
    simp only [reduceCtorEq, if_false, Nat.add_zero] at hqueue
    simp only [budget]
    omega

end HandlingState

variable {server : Server M} {request : ι → server.PassedRequest}
  {as : List (HandlingAction pool ι)} {s : HandlingState pool ι}

theorem step_handling (a : HandlingAction pool ι) : (handling server pool request).step s a =
    s.step server.maxStreamingConnections (fun k ↦ server.subscribes (request k)) a := rfl

/-- The invariant holds in every reachable state. -/
theorem handlingInv_of_run (h : (handling server pool request).run as = some s) :
    s.Inv server.maxStreamingConnections fun k ↦ server.subscribes (request k) := by
  refine TransitionSystem.run_induction (P := fun _ s ↦ s.Inv server.maxStreamingConnections
    fun k ↦ server.subscribes (request k)) ?_ ?_ h
  · have hinit : (streamingSystem pool server.maxStreamingConnections).run [] = some
      (streamingSystem pool server.maxStreamingConnections).init := rfl
    exact ⟨counted_of_run hinit, fun t ↦ iff_of_true rfl (by simp [handling]),
      fun t k hk ↦ absurd hk (by simp [handling]), fun k hk ↦ absurd hk (by simp [handling])⟩
  · intro as s a s' _ hs hstep
    cases a with
    | take t k => exact hs.step_take hstep
    | count t op => exact hs.step_count hstep
    | finish t => exact hs.step_finish hstep

/-- A run takes at most four steps for each connection. -/
theorem length_add_budget_le [Fintype ι] (h : (handling server pool request).run as = some s) :
    as.length + s.budget ≤ 4 * Fintype.card ι := by
  refine TransitionSystem.run_induction (T := handling server pool request)
    (P := fun as s ↦ as.length + s.budget ≤ 4 * Fintype.card ι) ?_ ?_ h
  · simp [HandlingState.budget, handling, HandlingState.left]
  · intro as s a s' _ hs hstep
    rw [step_handling] at hstep
    have hless := HandlingState.budget_step hstep
    rw [List.length_append, List.length_singleton]
    omega

/-! ### Where nothing goes on -/

/-- What happens sooner or later, if it can: everything but the end of a stream. -/
def HandlingState.GoesOn (s : HandlingState pool ι) : HandlingAction pool ι → Prop
  | .take _ _ => True
  | .count t op => op = .fetchSub → s.streams.point t ≠ .admitted
  | .finish _ => True

/-- Nothing goes on, unless a stream ends. -/
def HandlingState.Settled (server : Server M) (request : ι → server.PassedRequest)
    (s : HandlingState pool ι) : Prop :=
  ∀ a, s.GoesOn a →
    s.step server.maxStreamingConnections (fun k ↦ server.subscribes (request k)) a = none

/-- A thread that has nothing to subtract can add. -/
theorem exists_step_fetchAdd (maxStreamingConnections : ℕ) {s : StreamingState pool}
    {t : pool.Thread} (hpoint : s.point t = .outside) : ∃ s', s.step maxStreamingConnections
      (t, .fetchAdd s.activeStreams.toNat) = some s' := by
  rw [StreamingState.step, CounterOp.apply, if_pos rfl, Option.bind_some, hpoint]
  exact ⟨_, rfl⟩

/-- A thread that has something to subtract can do so. -/
theorem exists_step_fetchSub (maxStreamingConnections : ℕ) {s : StreamingState pool}
    {t : pool.Thread} (hpoint : s.point t ≠ .outside) :
    ∃ s', s.step maxStreamingConnections (t, .fetchSub) = some s' := by
  rw [StreamingState.step, CounterOp.apply, Option.bind_some]
  rcases hp : s.point t with - | - | -
  · exact absurd hp hpoint
  · exact ⟨_, rfl⟩
  · exact ⟨_, rfl⟩

/-- **Where nothing goes on**, each thread is free or has a stream. -/
theorem HandlingState.Settled.job_cases (hsettled : s.Settled server request)
    (h : (handling server pool request).run as = some s) (t : pool.Thread) :
    s.job t = none ∨ s.streams.point t = .admitted ∧
      ∃ k, s.job t = some (k, .counted) ∧ server.subscribes (request k) = true := by
  have hinv := handlingInv_of_run h
  have hnever : ∀ a s', s.GoesOn a → s.step server.maxStreamingConnections
      (fun k ↦ server.subscribes (request k)) a ≠ some s' := by
    intro a s' ha
    rw [hsettled a ha]
    simp
  have hfinish : ∀ k stage, s.job t = some (k, stage) →
      stage.finishes (server.subscribes (request k)) ≠ true :=
    fun k stage hjob hfinishes ↦ hnever (.finish t) _ trivial
      (step_finish_eq_some_iff.2 ⟨k, stage, hjob, hfinishes, rfl⟩)
  rcases hjob : s.job t with - | ⟨k, - | - | -⟩
  · exact Or.inl rfl
  · rcases hsubscribes : server.subscribes (request k) with - | -
    · exact absurd (by rw [hsubscribes]; rfl) (hfinish k .chain hjob)
    · have hpoint := (hinv.outside_iff t).2 fun l ↦ by simp [hjob]
      obtain ⟨streams, hstreams⟩ := exists_step_fetchAdd server.maxStreamingConnections hpoint
      have hafter : HandlingStage.after (server.subscribes (request k)) .chain
          (.fetchAdd s.streams.activeStreams.toNat) = some .counted := if_pos hsubscribes
      exact absurd (step_count_eq_some_iff.2
        ⟨k, .chain, .counted, streams, hjob, hafter, hstreams, rfl⟩)
        (hnever (.count t _) _ fun hop ↦ absurd hop (by simp))
  · have hpoint : s.streams.point t ≠ .outside := fun hout ↦ (hinv.outside_iff t).1 hout k hjob
    obtain ⟨streams, hstreams⟩ := exists_step_fetchSub server.maxStreamingConnections hpoint
    refine Or.inr ⟨?_, k, rfl, hinv.subscribes t k hjob⟩
    by_contra hadmitted
    exact hnever (.count t .fetchSub) _ (fun _ ↦ hadmitted) (step_count_eq_some_iff.2
      ⟨k, .counted, .released, streams, hjob, rfl, hstreams, rfl⟩)
  · exact absurd rfl (hfinish k .released hjob)

/-- **A cap below the number of threads leaves a thread to the other requests.** -/
theorem HandlingState.Settled.handled (hsettled : s.Settled server request)
    (h : (handling server pool request).run as = some s)
    (hcap : server.maxStreamingConnections < pool.threadCount) {k : ι}
    (hother : server.subscribes (request k) = false) : s.point k = .handled := by
  have hinv := handlingInv_of_run h
  -- not all threads have a stream
  obtain ⟨t, hfree⟩ : ∃ t, s.job t = none := by
    by_contra hall
    have hpoint : s.streams.point = fun _ ↦ .admitted := funext fun t ↦
      ((hsettled.job_cases h t).resolve_left fun hnone ↦ hall ⟨t, hnone⟩).1
    have hadmitted : s.streams.admitted = pool.threadCount := by
      rw [StreamingState.admitted, hpoint, population_const, if_pos rfl, Fintype.card_fin]
    exact absurd hinv.counted.admitted_le (Nat.not_le.2 (hadmitted.symm ▸ hcap))
  rcases hk : s.point k with - | - | -
  · have htake := hsettled (.take t k) trivial
    rw [step_take_eq_some_iff.2 ⟨⟨hfree, hk⟩, rfl⟩] at htake
    cases htake
  · obtain ⟨u, stage, hu⟩ := hinv.thread k hk
    rcases hsettled.job_cases h u with hnone | ⟨-, l, hl, hsubscribes⟩
    · rw [hnone] at hu
      cases hu
    · obtain ⟨rfl, -⟩ := Prod.mk.inj (Option.some.inj (hl.symm.trans hu))
      rw [hother] at hsubscribes
      cases hsubscribes
  · rfl

end Handling

/-! ### A burst of subscribers -/

section Burst

variable {server : Server M} {pool : Pool} (subscriber other : server.PassedRequest)

/-- One subscriber for each thread, and then another request. -/
def burst (pool : Pool) (k : Fin (pool.threadCount + 1)) : server.PassedRequest :=
  if k.val < pool.threadCount then subscriber else other

/-- The first threads have streams, the others are free, and the other connections wait. -/
structure Taken (m : ℕ) (s : HandlingState pool (Fin (pool.threadCount + 1))) : Prop where
  /-- The counter counts the threads with streams. -/
  activeStreams : s.streams.activeStreams.toNat = m
  /-- The first threads have streams. -/
  admitted : ∀ t : pool.Thread, t.val < m → s.streams.point t = .admitted ∧
    s.job t = some (t.castSucc, .counted)
  /-- The others are free. -/
  free : ∀ t : pool.Thread, m ≤ t.val → s.job t = none
  /-- The other connections wait. -/
  queued : ∀ k : Fin (pool.threadCount + 1), m ≤ k.val → s.point k = .queued

/-- **With a cap as high as the number of threads**, subscribers can take them all. -/
theorem exists_run_taken (hsubscriber : server.subscribes subscriber = true)
    (hcap : pool.threadCount ≤ server.maxStreamingConnections) {m : ℕ}
    (hm : m ≤ pool.threadCount) :
    ∃ as s, (handling server pool (burst subscriber other pool)).run as = some s ∧ Taken m s := by
  induction m with
  | zero =>
    refine ⟨[], _, rfl, rfl, fun t ht ↦ absurd ht (Nat.not_lt_zero _), fun _ _ ↦ rfl, fun _ _ ↦ rfl⟩
  | succ m ih =>
    obtain ⟨as, s, hrun, htaken⟩ := ih (Nat.le_of_succ_le hm)
    let t : pool.Thread := ⟨m, hm⟩
    have hinv := handlingInv_of_run hrun
    have hfree : s.job t = none := htaken.free t (Nat.le_refl m)
    have hpoint : s.streams.point t = .outside :=
      (hinv.outside_iff t).2 fun l ↦ by simp [hfree]
    let taken : HandlingState pool (Fin (pool.threadCount + 1)) := { s with
      job := Function.update s.job t (some (t.castSucc, .chain))
      point := Function.update s.point t.castSucc .taken }
    let streams : StreamingState pool :=
      ⟨s.streams.activeStreams + 1, Function.update s.streams.point t .admitted⟩
    have htake : (handling server pool (burst subscriber other pool)).step s
        (.take t t.castSucc) = some taken := by
      rw [step_handling]
      exact HandlingState.step_take_eq_some_iff.2
        ⟨⟨hfree, htaken.queued t.castSucc (Nat.le_refl m)⟩, rfl⟩
    -- the counter is still below the cap
    have hstreams : s.streams.step server.maxStreamingConnections (t, .fetchAdd m) =
        some streams := by
      refine StreamingState.step_eq_some_iff.2 ⟨if_pos htaken.activeStreams.symm, ?_, fun u hu ↦
        Function.update_of_ne hu _ _⟩
      have hroom : ¬ m ≥ server.maxStreamingConnections :=
        Nat.not_le.2 (Nat.lt_of_lt_of_le hm hcap)
      rw [hpoint, StreamPoint.after, if_neg hroom]
      exact congrArg some (Function.update_self t StreamPoint.admitted s.streams.point).symm
    have hsubscribes : server.subscribes (burst subscriber other pool t.castSucc) = true := by
      rw [burst, if_pos (show t.castSucc.val < pool.threadCount from hm)]
      exact hsubscriber
    have hcount : (handling server pool (burst subscriber other pool)).step taken
        (.count t (.fetchAdd m)) = some { taken with
          streams := streams
          job := Function.update taken.job t (some (t.castSucc, .counted)) } := by
      rw [step_handling]
      exact HandlingState.step_count_eq_some_iff.2 ⟨t.castSucc, .chain, .counted, streams,
        Function.update_self _ _ _, if_pos hsubscribes, hstreams, rfl⟩
    refine ⟨as ++ [.take t t.castSucc] ++ [.count t (.fetchAdd m)], _,
      TransitionSystem.run_concat_eq_some_iff.2 ⟨taken,
        TransitionSystem.run_concat_eq_some_iff.2 ⟨s, hrun, htake⟩, hcount⟩, ?_⟩
    refine ⟨(hinv.counted.toNat_add_one hpoint).trans (congrArg _ htaken.activeStreams),
      fun u hu ↦ ?_, fun u hu ↦ ?_, fun k hk ↦ ?_⟩
    · rcases eq_or_ne u t with rfl | hne
      · exact ⟨Function.update_self _ _ _, Function.update_self _ _ _⟩
      · have hlt : u.val < m := by
          have hval : u.val ≠ m := fun h ↦ hne (Fin.ext h)
          omega
        obtain ⟨hadmitted, hjob⟩ := htaken.admitted u hlt
        refine ⟨(Function.update_of_ne hne _ _).trans hadmitted, ?_⟩
        exact (Function.update_of_ne hne _ _).trans ((Function.update_of_ne hne _ _).trans hjob)
    · have hne : u ≠ t := by
        rintro rfl
        exact absurd hu (Nat.not_succ_le_self m)
      exact (Function.update_of_ne hne _ _).trans ((Function.update_of_ne hne _ _).trans
        (htaken.free u (Nat.le_of_succ_le hu)))
    · have hne : k ≠ t.castSucc := by
        rintro rfl
        exact absurd hk (Nat.not_succ_le_self m)
      exact (Function.update_of_ne hne _ _).trans (htaken.queued k (Nat.le_of_succ_le hk))

/-- **Then nothing goes on, and the other request waits.** -/
theorem exists_settled_queued (hsubscriber : server.subscribes subscriber = true)
    (hcap : pool.threadCount ≤ server.maxStreamingConnections) :
    ∃ as s, (handling server pool (burst subscriber other pool)).run as = some s ∧
      s.Settled server (burst subscriber other pool) ∧
        s.point (Fin.last pool.threadCount) = .queued := by
  obtain ⟨as, s, hrun, htaken⟩ := exists_run_taken subscriber other hsubscriber hcap
    (Nat.le_refl pool.threadCount)
  refine ⟨as, s, hrun, fun a ha ↦ ?_, htaken.queued _ (Nat.le_refl _)⟩
  have hjob : ∀ t, s.streams.point t = .admitted ∧ s.job t = some (t.castSucc, .counted) :=
    fun t ↦ htaken.admitted t t.isLt
  rcases hstep : s.step server.maxStreamingConnections (fun k ↦
    server.subscribes (burst subscriber other pool k)) a with - | s'
  · rfl
  cases a with
  | take t k =>
    obtain ⟨⟨hfree, -⟩, -⟩ := HandlingState.step_take_eq_some_iff.1 hstep
    rw [(hjob t).2] at hfree
    cases hfree
  | count t op =>
    obtain ⟨k, stage, stage', streams, hk, hafter, -, -⟩ :=
      HandlingState.step_count_eq_some_iff.1 hstep
    obtain ⟨rfl, rfl⟩ := Prod.mk.inj (Option.some.inj ((hjob t).2.symm.trans hk))
    rcases HandlingStage.after_cases hafter with ⟨hstage, -⟩ | ⟨-, hop, -⟩
    · cases hstage
    · exact absurd (hjob t).1 (ha hop)
  | finish t =>
    obtain ⟨k, stage, hk, hfinishes, -⟩ := HandlingState.step_finish_eq_some_iff.1 hstep
    obtain ⟨rfl, rfl⟩ := Prod.mk.inj (Option.some.inj ((hjob t).2.symm.trans hk))
    cases hfinishes

end Burst

/-- A cap resolves to less than the number of threads. -/
theorem resolveMaxStreamingConnections_lt_iff (configured threadCount : ℕ) :
    resolveMaxStreamingConnections configured threadCount < threadCount ↔
      if configured = 0 then 2 ≤ threadCount else configured < threadCount := by
  rw [resolveMaxStreamingConnections]
  by_cases hconfigured : configured = 0
  · rw [if_neg (not_not_intro hconfigured), if_pos hconfigured]
    split <;> omega
  · rw [if_pos hconfigured, if_neg hconfigured]

/-- **When streams cannot starve other requests.** Take any number of connections with requests that
the middlewares pass on, some of which a stream route serves, and the threads of the pool in any
order, in which streams need not end. On each request the chain of the server does at the counter
what its thread does. Every run is bounded; and in all that cannot go on without a stream ending,
every other request has been handled, exactly when the cap that is in force is below the number of
threads: with the default cap from two threads on, else when fewer streams are configured than there
are threads. -/
theorem others_handled_iff (routes : List (Route M)) (middleware : List (MiddlewareFn M))
    (caps : SizeCaps) (configured : ℕ) (pool : Pool) (subscriber other : HttpRequest M)
    (hpassed : ∃ sets, List.Forall₂ (Server.PassesOn subscriber) middleware sets)
    (hpassed' : ∃ sets, List.Forall₂ (Server.PassesOn other) middleware sets)
    (hsubscriber : (Router.matchStream subscriber routes).isSome = true)
    (hother : (Router.matchStream other routes).isSome = false) :
    let server := Server.ofConfig routes middleware caps configured pool.threadCount
    (∀ (request : server.PassedRequest) response s, ∃ stage,
      (handlingThread (server.subscribes request)).run
          (server.chainOperations request response s) = some stage ∧
        stage.finishes (server.subscribes request) = true) ∧
    (∀ (n : ℕ) (request : Fin n → server.PassedRequest) as s,
      (handling server pool request).run as = some s → as.length ≤ 4 * n) ∧
    ((∀ (n : ℕ) (request : Fin n → server.PassedRequest) as s,
        (handling server pool request).run as = some s → s.Settled server request →
          ∀ k, server.subscribes (request k) = false → s.point k = .handled) ↔
      if configured = 0 then 2 ≤ pool.threadCount else configured < pool.threadCount) := by
  intro server
  refine ⟨run_chainOperations server, fun n request as s h ↦ ?_, ?_⟩
  · have hle := length_add_budget_le h
    rw [Fintype.card_fin] at hle
    omega
  · rw [← resolveMaxStreamingConnections_lt_iff]
    constructor
    · intro hall
      by_contra hcap
      let subscriber : server.PassedRequest := ⟨subscriber, hpassed⟩
      let other : server.PassedRequest := ⟨other, hpassed'⟩
      obtain ⟨as, s, hrun, hsettled, hqueued⟩ := exists_settled_queued subscriber other
        (show server.subscribes subscriber = true from hsubscriber) (Nat.le_of_not_lt hcap)
      have hlast : server.subscribes (burst subscriber other pool (Fin.last pool.threadCount)) =
          false := by
        rw [burst, if_neg (by simp)]
        exact hother
      rw [hall _ _ as s hrun hsettled _ hlast] at hqueued
      cases hqueued
    · exact fun hcap n request as s hrun hsettled k hk ↦ hsettled.handled hrun hcap hk

theorem others_handled_iff_twoThreads :
    let server := Server.ofConfig Server.tickServer.routes [recovery] smallCaps 0 2
    ∀ (n : ℕ) (request : Fin n → server.PassedRequest) as s,
      (handling server twoThreads request).run as = some s → s.Settled server request →
        ∀ k, server.subscribes (request k) = false → s.point k = .handled := by
  have hpassed : ∀ request : HttpRequest BytesMap,
      ∃ sets, List.Forall₂ (Server.PassesOn request) [recovery] sets := fun request ↦
    ⟨[[]], .cons (Server.passesOn_recovery request) .nil⟩
  have hiff := (others_handled_iff Server.tickServer.routes [recovery] smallCaps 0 twoThreads
    Server.tickRequest .new (hpassed _) (hpassed _) (by decide +kernel) (by decide +kernel)).2.2
  rw [if_pos rfl] at hiff
  exact hiff.2 (Nat.le_refl 2)

end FalconHTTP
