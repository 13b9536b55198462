import FalconHTTP.Foundation.Population
import FalconHTTP.Foundation.TransitionSystem
import Mathlib.Algebra.BigOperators.Group.Finset.Basic

/-!
# Sessions and workers

Finitely many sessions, each a transition system of its own, are served by a pool of workers. A
session arrives, is queued, is taken by a free worker, which takes part in it until it is over, and
then leaves. Some actions of a session need its worker, the others can happen at any time. The
queue is in no particular order, so what is shown here holds for every order.

* `WorkerPool.run_session`: what happens in one session is a run of its own system, so its
  invariants hold whatever the other sessions do.
* `WorkerPool.length_eq_sum`: so a run is as long as the runs of the sessions together, and three
  steps more for each session that has left.
* `WorkerPool.busy_le`: no more sessions are served at once than there are workers.
* `WorkerPool.stuck_of_stuck`: sessions do not block one another, as long as fewer of them than
  there are workers can keep their worker for good. Where nothing can go on, every other session has
  been served, and none of them can go on by itself.
* `WorkerPool.exists_blocked_run`: with as many sessions as workers that keep them, there is a run
  after which nothing can go on and all the other sessions wait in the queue.
-/

/-- Where a session stands. -/
inductive PoolPoint
  /-- It has arrived. -/
  | arriving
  /-- It waits for a worker. -/
  | queued
  /-- A worker serves it. -/
  | working
  /-- Its worker has left it. -/
  | left
  deriving DecidableEq

/-- How many steps have led to a point. -/
def PoolPoint.rank : PoolPoint → ℕ
  | .arriving => 0
  | .queued => 1
  | .working => 2
  | .left => 3

theorem PoolPoint.rank_le (p : PoolPoint) : p.rank ≤ 3 := by
  cases p with
  | arriving => exact Nat.zero_le _
  | queued => exact Nat.le_add_left _ _
  | working => exact Nat.le_succ _
  | left => exact Nat.le_refl _

/-- Where a session stands next. -/
def PoolPoint.next : PoolPoint → PoolPoint
  | .arriving => .queued
  | .queued => .working
  | .working => .left
  | .left => .left

theorem PoolPoint.rank_next {p : PoolPoint} (h : p ≠ .left) : p.next.rank = p.rank + 1 := by
  cases p with
  | left => exact absurd rfl h
  | _ => rfl

/-- The sessions, and where they stand. -/
structure PoolState (ι S : Type*) where
  /-- The state of each session. -/
  session : ι → S
  /-- Where each session stands. -/
  point : ι → PoolPoint

/-- A step of the pool, or of one session. -/
inductive PoolAction (ι A : Type*)
  /-- A session is put in the queue. -/
  | accept (i : ι)
  /-- A free worker takes it from there. -/
  | take (i : ι)
  /-- Something happens in it. -/
  | act (i : ι) (a : A)
  /-- Its worker leaves it. -/
  | leave (i : ι)

namespace PoolAction

variable {ι A : Type*}

/-- The session that a step is about. -/
def session : PoolAction ι A → ι
  | .accept i => i
  | .take i => i
  | .act i _ => i
  | .leave i => i

/-- What happens in a session. -/
def within [DecidableEq ι] (i : ι) : PoolAction ι A → Option A
  | .act j a => if j = i then some a else none
  | _ => none

/-- Whether a step is one of the parties', given which actions of a session are. -/
def ofParty (party : A → Bool) : PoolAction ι A → Bool
  | .act _ a => party a
  | _ => true

section Within

variable [DecidableEq ι] {as : List (PoolAction ι A)} {b : PoolAction ι A} {i j : ι} {a : A}

/-- What happens in another session does not happen in this one. -/
theorem within_act_of_ne (h : j ≠ i) : (act j a).within i = none :=
  if_neg h

/-- What the parties do in a session is done by its parties. -/
theorem ofParty_of_within {party : A → Bool} (h : b.ofParty party)
    (hwithin : b.within i = some a) : party a := by
  cases b with
  | act j c =>
    rw [within, Option.ite_none_right_eq_some] at hwithin
    obtain rfl := Option.some.inj hwithin.2
    exact h
  | _ => cases hwithin

/-- A step with nothing in a session adds nothing to it. -/
theorem filterMap_concat_of_none (h : b.within i = none) :
    (as ++ [b]).filterMap (within i) = as.filterMap (within i) := by
  rw [List.filterMap_append, List.filterMap_cons_none h, List.filterMap_nil, List.append_nil]

/-- A step in a session is added to it. -/
theorem filterMap_concat_act :
    (as ++ [act i a]).filterMap (within i) = as.filterMap (within i) ++ [a] := by
  simp [within]

end Within

end PoolAction

/-- Sessions and workers. -/
structure WorkerPool (ι S A : Type*) where
  /-- The system of each session. -/
  system : ι → TransitionSystem S A
  /-- Which actions need a worker. -/
  usesWorker : A → Bool
  /-- When the worker is no longer needed. -/
  isOver : S → Bool
  /-- How many workers there are. -/
  workers : ℕ
  /-- There is one. -/
  workers_pos : 0 < workers

namespace WorkerPool

variable {ι S A : Type*} [Fintype ι] [DecidableEq ι]

/-- How many workers serve a session. -/
def busy (s : PoolState ι S) : ℕ :=
  population s.point .working

/-- A session moves on. -/
def move (s : PoolState ι S) (i : ι) (p : PoolPoint) : PoolState ι S :=
  { s with point := Function.update s.point i p }

variable (W : WorkerPool ι S A)

/-- All orders of the steps. -/
def pool : TransitionSystem (PoolState ι S) (PoolAction ι A) where
  init := ⟨fun i ↦ (W.system i).init, fun _ ↦ .arriving⟩
  step s
    | .accept i => if s.point i = .arriving then some (move s i .queued) else none
    | .take i =>
      if s.point i = .queued ∧ busy s < W.workers then some (move s i .working) else none
    | .act i a =>
      if W.usesWorker a → s.point i = .working then
        ((W.system i).step (s.session i) a).map fun x ↦
          { s with session := Function.update s.session i x }
      else none
    | .leave i =>
      if s.point i = .working ∧ W.isOver (s.session i) then some (move s i .left) else none

variable {W} {s s' : PoolState ι S} {as : List (PoolAction ι A)} {i : ι} {a : A}

/-- A session is put in the queue. -/
theorem step_accept_eq_some_iff : W.pool.step s (.accept i) = some s' ↔
    s.point i = .arriving ∧ s' = move s i .queued := by
  show (if s.point i = .arriving then some (move s i .queued) else none) = some s' ↔ _
  rw [Option.ite_none_right_eq_some, Option.some.injEq, eq_comm (a := s')]

/-- A session is taken. -/
theorem step_take_eq_some_iff : W.pool.step s (.take i) = some s' ↔
    (s.point i = .queued ∧ busy s < W.workers) ∧ s' = move s i .working := by
  show (if s.point i = .queued ∧ busy s < W.workers then some (move s i .working) else none) =
    some s' ↔ _
  rw [Option.ite_none_right_eq_some, Option.some.injEq, eq_comm (a := s')]

/-- Something happens in a session. -/
theorem step_act_eq_some_iff : W.pool.step s (.act i a) = some s' ↔
    (W.usesWorker a → s.point i = .working) ∧ ∃ x, (W.system i).step (s.session i) a = some x ∧
      s' = { s with session := Function.update s.session i x } := by
  show (if W.usesWorker a → s.point i = .working then
    ((W.system i).step (s.session i) a).map fun x ↦
      { s with session := Function.update s.session i x } else none) = some s' ↔ _
  rw [Option.ite_none_right_eq_some, Option.map_eq_some_iff]
  simp only [eq_comm (a := s')]

/-- A worker leaves a session. -/
theorem step_leave_eq_some_iff : W.pool.step s (.leave i) = some s' ↔
    (s.point i = .working ∧ W.isOver (s.session i)) ∧ s' = move s i .left := by
  show (if s.point i = .working ∧ W.isOver (s.session i) then some (move s i .left) else none) =
    some s' ↔ _
  rw [Option.ite_none_right_eq_some, Option.some.injEq, eq_comm (a := s')]

/-- **What a step does**: a session moves on, from the queue only if a worker is free, and from its
worker only if it is over; or something happens in it. -/
theorem step_cases {b : PoolAction ι A} (h : W.pool.step s b = some s') :
    (∃ j, b.session = j ∧ (∀ i, b.within i = none) ∧ s.point j ≠ .left ∧
      (s.point j = .queued → busy s < W.workers) ∧
      (s.point j = .working → W.isOver (s.session j)) ∧ s' = move s j (s.point j).next) ∨
    ∃ j a x, b = .act j a ∧ (W.usesWorker a → s.point j = .working) ∧
      (W.system j).step (s.session j) a = some x ∧
      s' = { s with session := Function.update s.session j x } := by
  cases b with
  | accept j =>
    obtain ⟨hpoint, rfl⟩ := step_accept_eq_some_iff.1 h
    refine Or.inl ⟨j, rfl, fun _ ↦ rfl, ?_, ?_, ?_, ?_⟩ <;> simp [hpoint, PoolPoint.next]
  | take j =>
    obtain ⟨⟨hpoint, hfree⟩, rfl⟩ := step_take_eq_some_iff.1 h
    refine Or.inl ⟨j, rfl, fun _ ↦ rfl, ?_, fun _ ↦ hfree, ?_, ?_⟩ <;>
      simp [hpoint, PoolPoint.next]
  | act j a =>
    obtain ⟨hneeds, x, hx, rfl⟩ := step_act_eq_some_iff.1 h
    exact Or.inr ⟨j, a, x, rfl, hneeds, hx, rfl⟩
  | leave j =>
    obtain ⟨⟨hpoint, hover⟩, rfl⟩ := step_leave_eq_some_iff.1 h
    refine Or.inl ⟨j, rfl, fun _ ↦ rfl, ?_, ?_, fun _ ↦ hover, ?_⟩ <;>
      simp [hpoint, PoolPoint.next]

/-! ### One session -/

/-- **What happens in one session is a run of its system.** -/
theorem run_session (h : W.pool.run as = some s) (i : ι) :
    (W.system i).run (as.filterMap (PoolAction.within i)) = some (s.session i) := by
  refine TransitionSystem.run_induction (T := W.pool)
    (P := fun as s ↦ (W.system i).run (as.filterMap (PoolAction.within i)) = some (s.session i))
    rfl ?_ h
  intro as s b s' _ hs hstep
  rcases step_cases hstep with ⟨j, -, hwithin, -, -, -, rfl⟩ | ⟨j, a, x, rfl, -, hx, rfl⟩
  · rw [PoolAction.filterMap_concat_of_none (hwithin i), hs]
    rfl
  · rcases eq_or_ne j i with rfl | hne
    · rw [PoolAction.filterMap_concat_act, TransitionSystem.run_concat_eq_some_iff]
      exact ⟨s.session j, hs, hx.trans (congrArg some (Function.update_self j x s.session).symm)⟩
    · rw [PoolAction.filterMap_concat_of_none (PoolAction.within_act_of_ne hne), hs]
      exact congrArg some (Function.update_of_ne hne.symm x s.session).symm

/-- The steps that are about a session: those in it, and those that led to where it stands. -/
theorem count_session (h : W.pool.run as = some s) (i : ι) :
    (as.map PoolAction.session).count i =
      (as.filterMap (PoolAction.within i)).length + (s.point i).rank := by
  refine TransitionSystem.run_induction (T := W.pool)
    (P := fun as s ↦ (as.map PoolAction.session).count i =
      (as.filterMap (PoolAction.within i)).length + (s.point i).rank) rfl ?_ h
  intro as s b s' _ hs hstep
  rw [List.map_append, List.count_append, hs]
  rcases step_cases hstep with ⟨j, rfl, hwithin, hpoint, -, -, rfl⟩ | ⟨j, a, x, rfl, -, -, rfl⟩
  · rw [PoolAction.filterMap_concat_of_none (hwithin i)]
    rcases eq_or_ne b.session i with rfl | hne
    · simp [move, PoolPoint.rank_next hpoint]
      omega
    · simp [move, hne, Function.update_of_ne hne.symm]
  · rcases eq_or_ne j i with rfl | hne
    · rw [PoolAction.filterMap_concat_act]
      simp [PoolAction.session]
      omega
    · rw [PoolAction.filterMap_concat_of_none (PoolAction.within_act_of_ne hne)]
      simp [PoolAction.session, hne]

/-- **The length of a run** is that of the runs of its sessions, and of the moves between them. -/
theorem length_eq_sum (h : W.pool.run as = some s) :
    as.length = ∑ i, ((as.filterMap (PoolAction.within i)).length + (s.point i).rank) := by
  have hcount := Multiset.sum_count_eq_card
    (s := Finset.univ) (m := (as.map PoolAction.session : Multiset ι)) fun i _ ↦ Finset.mem_univ i
  rw [Multiset.coe_card, List.length_map] at hcount
  rw [← hcount]
  refine Finset.sum_congr rfl fun i _ ↦ ?_
  rw [Multiset.coe_count]
  exact count_session h i

/-! ### The workers -/

/-- **No more sessions are served at once than there are workers.** -/
theorem busy_le (h : W.pool.run as = some s) : busy s ≤ W.workers := by
  refine TransitionSystem.run_induction (T := W.pool) (P := fun _ s ↦ busy s ≤ W.workers) ?_ ?_ h
  · show population (fun _ : ι ↦ PoolPoint.arriving) .working ≤ _
    rw [population_const]
    exact Nat.zero_le _
  · intro as s b s' _ hs hstep
    rcases step_cases hstep with ⟨j, -, -, -, hfree, -, rfl⟩ | ⟨j, a, x, -, -, -, rfl⟩
    · have hmove : busy (move s j (s.point j).next) + (if s.point j = .working then 1 else 0) =
          busy s + (if (s.point j).next = .working then 1 else 0) :=
        population_update s.point j (s.point j).next .working
      rcases hpoint : s.point j with - | - | - | -
      · rw [hpoint] at hmove
        exact (Nat.le_of_eq hmove).trans hs
      · have hlt := hfree hpoint
        rw [hpoint] at hmove
        exact (Nat.le_of_eq hmove).trans hlt
      · rw [hpoint] at hmove
        exact (Nat.le_succ _).trans ((Nat.le_of_eq hmove).trans hs)
      · rw [hpoint] at hmove
        exact (Nat.le_of_eq hmove).trans hs
    · exact hs

/-! ### Progress -/

variable (W) in
/-- A session is such that a worker can serve it: when nothing can go on in it, it is over, and then
it stays so and has no more use for its worker. -/
structure Serves (party : A → Bool) (i : ι) : Prop where
  /-- When nothing can go on, it is over. -/
  over_of_stuck : ∀ bs x, (W.system i).run bs = some x →
    (∀ a, party a → (W.system i).step x a = none) → W.isOver x
  /-- When it is over, it stays so. -/
  over_of_step : ∀ a x x', W.isOver x → (W.system i).step x a = some x' → W.isOver x'
  /-- It has no more use for its worker. -/
  none_of_over : ∀ a x, W.isOver x → W.usesWorker a → (W.system i).step x a = none

variable {party : A → Bool}

/-- A session that its worker has left is over. -/
theorem over_of_left (hW : W.Serves party i) (h : W.pool.run as = some s)
    (hleft : s.point i = .left) : W.isOver (s.session i) := by
  revert hleft
  refine TransitionSystem.run_induction (T := W.pool)
    (P := fun _ s ↦ s.point i = .left → W.isOver (s.session i)) PoolPoint.noConfusion ?_ h
  intro as s b s' _ hs hstep hleft
  rcases step_cases hstep with ⟨j, -, -, -, -, hover, rfl⟩ | ⟨j, a, x, -, -, hx, rfl⟩
  · rcases eq_or_ne j i with rfl | hne
    · rcases hpoint : s.point j with - | - | - | -
      · simp [move, hpoint, PoolPoint.next] at hleft
      · simp [move, hpoint, PoolPoint.next] at hleft
      · exact hover hpoint
      · exact hs hpoint
    · exact hs (by simpa [move, Function.update_of_ne hne.symm] using hleft)
  · show W.isOver (Function.update s.session j x i)
    rcases eq_or_ne j i with rfl | hne
    · rw [Function.update_self]
      exact hW.over_of_step a _ x (hs hleft) hx
    · rw [Function.update_of_ne hne.symm]
      exact hs hleft

/-- **Sessions do not block one another**, as long as there are more workers than sessions that may
keep them. Where neither the pool nor a party of a session can go on, every session that can be
served has been served to its end, and no party of it can go on by itself. -/
theorem stuck_of_stuck {others : Finset ι} (hW : ∀ j ∉ others, W.Serves party j)
    (hfew : others.card < W.workers) (h : W.pool.run as = some s)
    (hstuck : ∀ b, b.ofParty party → W.pool.step s b = none) (hi : i ∉ others) :
    s.point i = .left ∧ ∀ a, party a → (W.system i).step (s.session i) a = none := by
  have hnever : ∀ b s', b.ofParty party → W.pool.step s b ≠ some s' := by
    intro b s' hb
    rw [hstuck b hb]
    simp
  -- a session that is served could go on, or its worker could leave it
  have hworking : ∀ j ∉ others, s.point j ≠ .working := by
    intro j hj hpoint
    have hover := (hW j hj).over_of_stuck _ _ (run_session h j) fun a ha ↦ by
      rcases hx : (W.system j).step (s.session j) a with - | x
      · rfl
      · exact absurd (step_act_eq_some_iff.2 ⟨fun _ ↦ hpoint, x, hx, rfl⟩) (hnever (.act j a) _ ha)
    exact hnever (.leave j) _ rfl (step_leave_eq_some_iff.2 ⟨⟨hpoint, hover⟩, rfl⟩)
  -- so a worker is free
  have hfree : busy s < W.workers := by
    refine (Finset.card_le_card fun j hj ↦ ?_).trans_lt hfew
    by_contra hserved
    exact hworking j hserved (Finset.mem_filter.1 hj).2
  have hleft : s.point i = .left := by
    rcases hpoint : s.point i with - | - | - | -
    · exact absurd (step_accept_eq_some_iff.2 ⟨hpoint, rfl⟩) (hnever (.accept i) _ rfl)
    · exact absurd (step_take_eq_some_iff.2 ⟨⟨hpoint, hfree⟩, rfl⟩) (hnever (.take i) _ rfl)
    · exact absurd hpoint (hworking i hi)
    · rfl
  refine ⟨hleft, fun a ha ↦ ?_⟩
  rcases huses : W.usesWorker a with - | -
  · rcases hx : (W.system i).step (s.session i) a with - | x
    · rfl
    · refine absurd (step_act_eq_some_iff.2 ⟨fun hneeds ↦ ?_, x, hx, rfl⟩) (hnever (.act i a) _ ha)
      rw [huses] at hneeds
      cases hneeds
  · exact (hW i hi).none_of_over a _ (over_of_left (hW i hi) h hleft) huses

/-- Where every session has been served to its end, nothing goes on. -/
theorem step_of_left (hleft : ∀ i, s.point i = .left)
    (hstuck : ∀ i a, party a → (W.system i).step (s.session i) a = none)
    {b : PoolAction ι A} (hb : b.ofParty party) : W.pool.step s b = none := by
  rcases hstep : W.pool.step s b with - | s'
  · rfl
  cases b with
  | accept j =>
    obtain ⟨hpoint, -⟩ := step_accept_eq_some_iff.1 hstep
    exact PoolPoint.noConfusion ((hleft j).symm.trans hpoint)
  | take j =>
    obtain ⟨⟨hpoint, -⟩, -⟩ := step_take_eq_some_iff.1 hstep
    exact PoolPoint.noConfusion ((hleft j).symm.trans hpoint)
  | act j a =>
    obtain ⟨-, x, hx, -⟩ := step_act_eq_some_iff.1 hstep
    exact absurd ((hstuck j a hb).symm.trans hx) (by simp)
  | leave j =>
    obtain ⟨⟨hpoint, -⟩, -⟩ := step_leave_eq_some_iff.1 hstep
    exact PoolPoint.noConfusion ((hleft j).symm.trans hpoint)

/-! ### Too few workers -/

/-- **A session that waits has had no worker**: none of its actions needed one. -/
theorem usesWorker_of_waiting (h : W.pool.run as = some s)
    (hwaits : s.point i = .arriving ∨ s.point i = .queued) :
    ∀ a ∈ as.filterMap (PoolAction.within i), W.usesWorker a = false := by
  revert hwaits
  refine TransitionSystem.run_induction (T := W.pool)
    (P := fun as s ↦ (s.point i = .arriving ∨ s.point i = .queued) →
      ∀ a ∈ as.filterMap (PoolAction.within i), W.usesWorker a = false) (fun _ _ ↦ by simp) ?_ h
  intro as s b s' _ hs hstep hwaits
  rcases step_cases hstep with ⟨j, -, hwithin, -, -, -, rfl⟩ | ⟨j, a, x, rfl, hneeds, -, rfl⟩
  · rw [PoolAction.filterMap_concat_of_none (hwithin i)]
    refine hs ?_
    rcases eq_or_ne j i with rfl | hne
    · -- a session that waits after a move has just been put in the queue
      rcases hpoint : s.point j with - | - | - | -
      · exact Or.inl rfl
      · exact Or.inr rfl
      · simp [move, hpoint, PoolPoint.next] at hwaits
      · simp [move, hpoint, PoolPoint.next] at hwaits
    · simpa [move, Function.update_of_ne hne.symm] using hwaits
  · rcases eq_or_ne j i with rfl | hne
    · have hnot : W.usesWorker a = false := by
        by_contra huses
        have hworking := hneeds (by simpa using huses)
        simp [hworking] at hwaits
      intro c hc
      rw [PoolAction.filterMap_concat_act, List.mem_append, List.mem_singleton] at hc
      rcases hc with hc | rfl
      · exact hs hwaits c hc
      · exact hnot
    · rw [PoolAction.filterMap_concat_of_none (PoolAction.within_act_of_ne hne)]
      exact hs hwaits

variable (W) in
/-- A session keeps its worker: it is not over for as long as only its parties take steps. -/
def Keeps (party : A → Bool) (i : ι) : Prop :=
  ∀ bs x, (W.system i).run bs = some x → (∀ b ∈ bs, party b) → ¬ W.isOver x

/-- The state in which some sessions have just been taken, and no other has arrived. -/
def taken (W : WorkerPool ι S A) (first : Finset ι) : PoolState ι S where
  session i := (W.system i).init
  point i := if i ∈ first then .working else .arriving

@[simp] theorem busy_taken (first : Finset ι) : busy (W.taken first) = first.card := by
  rw [busy, population]
  congr 1
  ext i
  simp [taken]

/-- As many sessions as there are workers can be taken first. -/
theorem exists_run_taken (party : A → Bool) (first : Finset ι) (hfirst : first.card ≤ W.workers) :
    ∃ as, W.pool.run as = some (W.taken first) ∧ ∀ b ∈ as, b.ofParty party := by
  induction first using Finset.induction_on with
  | empty =>
    refine ⟨[], congrArg some ?_, by simp⟩
    simp [pool, taken]
  | insert i first hi ih =>
    rw [Finset.card_insert_of_notMem hi] at hfirst
    obtain ⟨as, hrun, hparty⟩ := ih (Nat.le_of_succ_le hfirst)
    have harrives : (W.taken first).point i = .arriving := if_neg hi
    -- a session that waits in the queue takes no worker
    have hbusy : busy (move (W.taken first) i .queued) = first.card := by
      have := population_update (W.taken first).point i .queued .working
      rw [harrives] at this
      simpa [busy, move] using this.trans (congrArg (· + 0) (busy_taken first))
    have haccept : W.pool.run (as ++ [.accept i]) = some (move (W.taken first) i .queued) :=
      TransitionSystem.run_concat_eq_some_iff.2
        ⟨_, hrun, step_accept_eq_some_iff.2 ⟨harrives, rfl⟩⟩
    have htake : W.pool.run (as ++ [.accept i] ++ [.take i]) =
        some (move (move (W.taken first) i .queued) i .working) :=
      TransitionSystem.run_concat_eq_some_iff.2 ⟨_, haccept, step_take_eq_some_iff.2
        ⟨⟨Function.update_self _ _ _, hbusy.trans_lt hfirst⟩, rfl⟩⟩
    refine ⟨_, htake.trans (congrArg some ?_), ?_⟩
    · simp only [move, taken, Function.update_idem, PoolState.mk.injEq, true_and]
      funext j
      rcases eq_or_ne j i with rfl | hne
      · simp
      · simp [hne]
    · intro b hb
      simp only [List.append_assoc, List.cons_append, List.nil_append, List.mem_append,
        List.mem_cons, List.not_mem_nil, or_false] at hb
      rcases hb with hb | rfl | rfl
      · exact hparty b hb
      · rfl
      · rfl

/-- **Sessions that keep all workers block the others**: after they have been taken first, they stay
with their workers, and the others do not get past the queue. -/
theorem blocked_of_run {first : Finset ι} (hcard : first.card = W.workers)
    (hkeeps : ∀ i ∈ first, W.Keeps party i) (hfirst : W.pool.run as = some (W.taken first))
    (bs : List (PoolAction ι A)) (h : W.pool.run (as ++ bs) = some s)
    (hparty : ∀ b ∈ as ++ bs, b.ofParty party) : (∀ i ∈ first, s.point i = .working) ∧
      ∀ i ∉ first, s.point i = .arriving ∨ s.point i = .queued := by
  induction bs using List.reverseRecOn generalizing s with
  | nil =>
    rw [List.append_nil] at h
    obtain rfl := Option.some.inj (hfirst.symm.trans h)
    exact ⟨fun i hi ↦ if_pos hi, fun i hi ↦ Or.inl (if_neg hi)⟩
  | append_singleton bs b ih =>
    rw [← List.append_assoc] at h hparty
    obtain ⟨r, hr, hstep⟩ := TransitionSystem.run_concat_eq_some_iff.1 h
    have hbefore : ∀ b ∈ as ++ bs, b.ofParty party := fun c hc ↦
      hparty c (List.mem_append_left _ hc)
    obtain ⟨hworking, hwaits⟩ := ih hr hbefore
    rcases step_cases hstep with ⟨j, -, -, hpoint, hfree, hover, rfl⟩ | ⟨j, a, x, -, -, -, rfl⟩
    · -- the sessions that are served are not over, so it is one of the others that moves
      have hj : j ∉ first := by
        intro hj
        refine absurd (hover (hworking j hj)) (hkeeps j hj _ _ (run_session hr j) fun a ha ↦ ?_)
        obtain ⟨c, hc, hwithin⟩ := List.mem_filterMap.1 ha
        exact PoolAction.ofParty_of_within (hbefore c hc) hwithin
      refine ⟨fun i hi ↦ ?_, fun i hi ↦ ?_⟩
      · have hne : i ≠ j := fun heq ↦ hj (heq ▸ hi)
        exact (Function.update_of_ne hne _ _).trans (hworking i hi)
      · rcases eq_or_ne i j with rfl | hne
        · rcases hwaits i hi with harrives | hqueued
          · exact Or.inr ((Function.update_self _ _ _).trans (by rw [harrives]; rfl))
          · -- no worker is free
            have hbusy : first.card ≤ busy r := Finset.card_le_card fun i hi ↦
              Finset.mem_filter.2 ⟨Finset.mem_univ i, hworking i hi⟩
            exact absurd (hfree hqueued) (Nat.not_lt.2 (hcard ▸ hbusy))
        · simpa [move, Function.update_of_ne hne] using hwaits i hi
    · exact ⟨hworking, hwaits⟩

/-- **Too few workers.** Where runs are bounded and as many sessions as workers keep them, there is
a run of the parties after which nothing can go on, and all the other sessions wait in the queue. -/
theorem exists_blocked_run {n : ℕ} (hbound : ∀ as s, W.pool.run as = some s → as.length ≤ n)
    {others : Finset ι} (hkeeps : ∀ i ∈ others, W.Keeps party i)
    (hmany : W.workers ≤ others.card) : ∃ as s, W.pool.run as = some s ∧
      (∀ b ∈ as, b.ofParty party) ∧ (∀ b, b.ofParty party → W.pool.step s b = none) ∧
      ∀ i ∉ others, s.point i = .queued := by
  obtain ⟨first, hsubset, hcard⟩ := Finset.exists_subset_card_eq hmany
  obtain ⟨as, hrun, hfirst⟩ := exists_run_taken party first hcard.le
  obtain ⟨bs, s, h, hparty, hstuck⟩ := TransitionSystem.exists_stuck_run
    (P := fun b ↦ b.ofParty party) hbound as _ hrun
  have hall : ∀ b ∈ as ++ bs, b.ofParty party := by
    intro b hb
    rcases List.mem_append.1 hb with hb | hb
    · exact hfirst b hb
    · exact hparty b hb
  obtain ⟨-, hwaits⟩ := blocked_of_run hcard (fun i hi ↦ hkeeps i (hsubset hi)) hrun bs h hall
  refine ⟨as ++ bs, s, h, hall, hstuck, fun i hi ↦ ?_⟩
  rcases hwaits i fun hfirst ↦ hi (hsubset hfirst) with hpoint | hpoint
  · have hstep : W.pool.step s (.accept i) = some (move s i .queued) :=
      step_accept_eq_some_iff.2 ⟨hpoint, rfl⟩
    exact absurd ((hstuck (.accept i) rfl).symm.trans hstep) (by simp)
  · exact hpoint

end WorkerPool
