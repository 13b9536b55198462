import FalconHTTP.Foundation.Exchange

/-!
# Exchanges that stall

A request *stalls* a server that waits for more whatever part of it has arrived. The runs of such an
exchange are as bounded as those of others (`Exchange.Stalls.repliesWithin`), but unless the
connection breaks its server reads for ever (`Exchange.Stalls.reading_of_unbroken`). So in a pool it
keeps its worker (`Exchange.pooled_keeps`).

An exchange that waits for a worker has come to nothing on either side
(`Exchange.nothing_of_waiting`).
-/

namespace Exchange

variable {α κ σ τ A B : Type*} {E : Exchange α κ σ τ A B} {s : ExchangeState α κ A B}
  {a : ExchangeAction κ} {as : List (ExchangeAction κ)} {lost : A}

/-! ### Unbroken connections -/

/-- The parties do not break the connection. -/
theorem broken_next (hparty : a.ofParty) : (E.next s a).broken = s.broken := by
  cases a with
  | clientRead k =>
    show (E.settleClient _).broken = _
    rcases E.settleClient_cases { s with
      toClient := s.toClient.drop (E.pieces.content k).length, received := s.received ++ [k] } with
      ⟨-, hsettle⟩ | ⟨b, -, hsettle⟩
    · rw [hsettle]
    · rw [hsettle]
  | serverRead k =>
    show (E.settleServer _).broken = _
    rcases E.settleServer_cases { s with
      toServer := s.toServer.drop (E.pieces.content k).length, taken := s.taken ++ [k] } with
      ⟨-, hsettle⟩ | ⟨r, -, hsettle⟩
    · rw [hsettle]
    · rw [hsettle]
      rfl
  | serverFail =>
    rw [next]
    split
    · rfl
    · rfl
  | clientWrite n => rfl
  | clientTurn => rfl
  | clientEof => rfl
  | clientFail => rfl
  | serverEof => rfl
  | serverWrite n => rfl
  | serverClose => rfl
  | breakOff => exact Bool.noConfusion hparty

/-- Nor does a run of theirs. -/
theorem unbroken_of_run [DecidableEq α] (h : E.system.run as = some s)
    (hparty : ∀ a ∈ as, a.ofParty) : s.broken = false := by
  have hmeets : E.system.Meets (fun _ a ↦ a.ofParty) ([] ++ as) :=
    TransitionSystem.Meets.nil.append_of_forall fun a ha _ ↦ hparty a ha
  refine TransitionSystem.run_induction_of_meets (T := E.system)
    (P := fun _ s ↦ s.broken = false) rfl (fun as s a s' hs ha hstep ↦ ?_) hmeets h
  obtain ⟨-, rfl⟩ := step_eq_some_iff.1 hstep
  exact (broken_next ha).trans hs

/-- A server that takes no step reads. -/
theorem reading_of_run [DecidableEq α] (h : E.system.run as = some s)
    (hnone : ∀ a ∈ as, a.ofServer = false) : s.server = .reading := by
  have hmeets : E.system.Meets (fun _ a ↦ a.ofServer = false) ([] ++ as) :=
    TransitionSystem.Meets.nil.append_of_forall fun a ha _ ↦ hnone a ha
  refine TransitionSystem.run_induction_of_meets (T := E.system)
    (P := fun _ s ↦ s.server = .reading) rfl (fun as s a s' hs ha hstep ↦ ?_) hmeets h
  obtain ⟨-, rfl⟩ := step_eq_some_iff.1 hstep
  exact (server_next ha).trans hs

/-- As long as the server reads, nothing comes of an unbroken exchange. -/
theorem Inv.nothing_of_reading (h : E.Inv s) (hserver : s.server = .reading)
    (hbroken : s.broken = false) : s.handled = [] ∧ s.result = none := by
  refine ⟨(h.server.reading hserver).1, ?_⟩
  rcases hclient : s.client with - | - | -
  · exact (h.client.writing hclient).1
  · exact (h.client.reading hclient).1
  · exact absurd ((broken_of_returned h hserver hclient).symm.trans hbroken) (by simp)

/-! ### Requests that stall -/

variable (E) in
/-- The server waits for more, whatever part of the request has arrived, and a request that is cut
off gets no reply. -/
structure Stalls (lost : A) : Prop where
  /-- It waits for more. -/
  waits : ∀ cuts, E.pieces.stream cuts <+: E.request →
    E.server.result? (E.server.feedAll cuts) = none
  /-- The request is cut off. -/
  cut : ∀ cuts, E.pieces.stream cuts <+: E.request → ∀ e,
    E.server.finish (E.server.feedAll cuts) e = lost
  /-- There is no reply. -/
  reply_lost : E.reply lost = []

/-- Such a request is handled, as one that was cut off, only if the connection broke. -/
theorem Stalls.handled (hE : E.Stalls lost) (h : E.Inv s) {r : A} (hr : E.Handled s r) :
    r = lost ∧ s.broken = true := by
  have hwaits := hE.waits s.taken h.stream_taken_prefix
  constructor
  · obtain ⟨e, rfl⟩ := hr.read
    rw [Reader.read, hwaits, Option.getD_none, hE.cut s.taken h.stream_taken_prefix]
  · by_contra hbroken
    exact absurd (hwaits.symm.trans (hr.complete (by simpa using hbroken))) (by simp)

/-- The server does not reply. -/
theorem Stalls.repliesWithin (hE : E.Stalls lost) : E.RepliesWithin 0 := by
  intro s h r hr
  obtain ⟨rfl, -⟩ := hE.handled h hr
  rw [hE.reply_lost]
  exact Nat.le_refl _

/-- **On an unbroken connection the server reads for ever.** -/
theorem Stalls.reading_of_unbroken (hE : E.Stalls lost) (h : E.Inv s) (hbroken : s.broken = false) :
    s.server = .reading := by
  by_contra hserver
  obtain ⟨r, hr⟩ := h.handled hserver
  exact absurd ((hE.handled h hr).2.symm.trans hbroken) (by simp)

/-! ### In a pool -/

section Pool

variable {ι : Type*} {F : ι → Exchange α κ σ τ A B} {workers : ℕ} {workers_pos : 0 < workers}
  [DecidableEq α] {i : ι}

/-- **An exchange that stalls keeps its worker.** -/
theorem pooled_keeps (hF : (F i).Stalls lost) :
    (pooled F workers workers_pos).Keeps ExchangeAction.ofParty i := by
  intro bs x hrun hparty hover
  have hclosed : x.server = .closed := of_decide_eq_true hover
  have hreading := hF.reading_of_unbroken (inv_of_run hrun) (unbroken_of_run hrun hparty)
  exact ServerPhase.noConfusion (hreading.symm.trans hclosed)

variable [Fintype ι] [DecidableEq ι] {bs : List (PoolAction ι (ExchangeAction κ))}
  {t : PoolState ι (ExchangeState α κ A B)}

/-- The parties break none of the connections. -/
theorem unbroken_of_pooled (h : (pooled F workers workers_pos).pool.run bs = some t)
    (hparty : ∀ b ∈ bs, b.ofParty ExchangeAction.ofParty) (i : ι) :
    (t.session i).broken = false := by
  refine unbroken_of_run (WorkerPool.run_session h i) fun a ha ↦ ?_
  obtain ⟨b, hb, hwithin⟩ := List.mem_filterMap.1 ha
  exact PoolAction.ofParty_of_within (hparty b hb) hwithin

/-- **Nothing comes of an exchange that waits for a worker.** -/
theorem nothing_of_waiting (h : (pooled F workers workers_pos).pool.run bs = some t)
    (hparty : ∀ b ∈ bs, b.ofParty ExchangeAction.ofParty)
    (hwaits : t.point i = .arriving ∨ t.point i = .queued) :
    (t.session i).handled = [] ∧ (t.session i).result = none := by
  have hrun : (F i).system.run (bs.filterMap (PoolAction.within i)) = some (t.session i) :=
    WorkerPool.run_session h i
  exact (inv_of_run hrun).nothing_of_reading
    (reading_of_run hrun (WorkerPool.usesWorker_of_waiting h hwaits))
    (unbroken_of_pooled h hparty i)

end Pool

end Exchange
