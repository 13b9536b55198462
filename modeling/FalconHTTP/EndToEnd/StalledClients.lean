import FalconHTTP.EndToEnd.Calls
import FalconHTTP.Foundation.StalledExchange

/-!
# Clients that stop in the middle of a request

The server sets no time limit on its receives: a client that stops before its request is complete,
and stays connected, keeps the thread that serves it. `calls_stalled` says what that does to the
other calls, and that the number of threads is the exact limit: with fewer such clients than threads
every other call is answered in the end, and with as many there is a run after which no party can go
on and none of the other calls has been looked at.
-/

namespace FalconHTTP

open FiniteMap HttpClient

variable {M : Type} [FiniteMap M Bytes Bytes] {ι : Type} [Fintype ι] [DecidableEq ι]

/-- A caller that stalls the server: whatever part of its bytes has arrived, the read loop waits for
more. -/
def Caller.Stalls (caller : Caller) (server : Server M) : Prop :=
  ∀ chunks : Chunks, chunks.stream <+: caller.bytes →
    ((requestReader M server.caps).feedAll chunks).outcome? = none

section Stalls

variable {caller : Caller} {server : Server M}

/-- **A call that stops before its end stalls the server.** -/
theorem Caller.stalls_of_prefix {call : Call M} (hfits : call.Fits server caller.options)
    (hpart : caller.bytes <+: call.bytes) (hshort : caller.bytes ≠ call.bytes) :
    caller.Stalls server := by
  intro chunks hchunks
  have hrequest := (hfits.delimited caller.room caller.room_pos).request
  refine hrequest.part chunks ?_ fun hwhole ↦ ?_
  · show chunkPieces.stream chunks <+: call.bytes
    rw [stream_chunkPieces]
    exact hchunks.trans hpart
  · -- all of the call would have come from a part of it
    have hbytes : chunks.stream = call.bytes := by rw [← stream_chunkPieces]; exact hwhole
    exact hshort (hpart.eq_of_length_le (hbytes ▸ hchunks.length_le))

/-- The exchange stalls. -/
theorem Caller.Stalls.exchange (h : caller.Stalls server) :
    (caller.exchange server).Stalls .closed where
  waits chunks hchunks := by
    refine h chunks ?_
    rw [← stream_chunkPieces]
    exact hchunks
  cut chunks hchunks e := by
    have hwaits := h chunks (by rw [← stream_chunkPieces]; exact hchunks)
    show (afterReceive server.caps ((requestReader M server.caps).feedAll chunks)
      none).outcome?.getD .closed = _
    rw [outcome?_afterReceive_none hwaits, Option.getD_some]
  reply_lost := rfl

end Stalls

section Calls

variable {server : Server M} {threadCount : ℕ}

/-! ### Two callers, one of which stops -/

/-- A caller that stops in the middle of `helloCall`. -/
def stoppingCaller : Caller :=
  { helloCaller with bytes := helloCall.bytes.take 50 }

theorem stoppingCaller_stalls : stoppingCaller.Stalls helloServer :=
  Caller.stalls_of_prefix helloCall_fits (List.take_prefix 50 _) (by decide +kernel)

/-- It is one of two. -/
def oneStops : Bool → Caller
  | false => helloCaller
  | true => stoppingCaller

theorem oneStops_stalls : ∀ i ∈ ({true} : Finset Bool), (oneStops i).Stalls helloServer := by
  intro i hi
  obtain rfl := Finset.mem_singleton.1 hi
  exact stoppingCaller_stalls

theorem oneStops_makes :
    ∀ i ∉ ({true} : Finset Bool), (oneStops i).Makes helloServer helloCall := by
  intro i hi
  cases i with
  | false => exact helloCaller_makes
  | true => exact absurd (Finset.mem_singleton_self true) hi

/-! ### What stalled clients do to the others -/

/-- **How many stalled clients a server bears.** Let some clients stall the server, and all others
make calls that fit it. Every run is bounded, and:

* with fewer stalled clients than threads, where neither a client nor the server can go on every
  call has been handled and its connection closed, and unless the connection broke it was handed on
  once and has its own answer;
* with as many stalled clients as threads, there is a run of the parties, in which no connection
  breaks, after which neither a client nor the server can go on, and every call waits in the queue:
  nothing of it has been handed on, and its client has got nothing. -/
theorem calls_stalled (caller : ι → Caller) (call : ι → Call M) {stalled : Finset ι}
    (threadCount_pos : 0 < threadCount)
    (hstalls : ∀ i ∈ stalled, (caller i).Stalls server)
    (hmakes : ∀ i ∉ stalled, (caller i).Makes server (call i)) :
    (∀ as s, (calls server caller threadCount threadCount_pos).pool.run as = some s →
      as.length ≤ ∑ i, (2 * (caller i).bytes.length + 2 * (if i ∈ stalled then 0 else
        (HttpSerializer.serialize (server.answer (call i).request)).length) + 8)) ∧
    (stalled.card < threadCount → ∀ as s,
      (calls server caller threadCount threadCount_pos).pool.run as = some s →
      (∀ b, b.ofParty ExchangeAction.ofParty →
        (calls server caller threadCount threadCount_pos).pool.step s b = none) →
      ∀ i ∉ stalled, s.point i = .left ∧ (s.session i).client = .returned ∧
        (s.session i).server = .closed ∧
        ((s.session i).broken = false → (s.session i).handled = [.request (call i).request] ∧
          (s.session i).result =
            some (some (receivedResponse (server.answer (call i).request))))) ∧
    (threadCount ≤ stalled.card → ∃ as s,
      (calls server caller threadCount threadCount_pos).pool.run as = some s ∧
      (∀ b, b.ofParty ExchangeAction.ofParty →
        (calls server caller threadCount threadCount_pos).pool.step s b = none) ∧
      (∀ i, (s.session i).broken = false) ∧
      ∀ i ∉ stalled, s.point i = .queued ∧ (s.session i).handled = [] ∧
        (s.session i).result = none) := by
  have hbound : ∀ as s, (calls server caller threadCount threadCount_pos).pool.run as = some s →
      as.length ≤ ∑ i, (2 * (caller i).bytes.length + 2 * (if i ∈ stalled then 0 else
        (HttpSerializer.serialize (server.answer (call i).request)).length) + 8) := by
    refine fun as s h ↦ length_le_of_calls caller (fun i ↦ ?_) h
    split
    · rename_i hi
      exact (hstalls i hi).exchange.repliesWithin
    · rename_i hi
      exact (hmakes i hi).delimited.repliesWithin
  refine ⟨hbound, fun hfew as s h hstuck i hi ↦ ?_, fun hmany ↦ ?_⟩
  · obtain ⟨hleft, hsession⟩ := WorkerPool.stuck_of_stuck
      (fun j hj ↦ Exchange.pooled_serves (hmakes j hj).delimited) hfew h hstuck hi
    obtain ⟨⟨hclient, hserver⟩, hanswer⟩ :=
      Exchange.final_of_stuck (hmakes i hi).delimited (WorkerPool.run_session h i) hsession
    exact ⟨hleft, hclient, hserver, hanswer⟩
  · obtain ⟨as, s, h, hparty, hstuck, hqueued⟩ := WorkerPool.exists_blocked_run hbound
      (fun i hi ↦ Exchange.pooled_keeps (hstalls i hi).exchange) hmany
    exact ⟨as, s, h, hstuck, fun i ↦ Exchange.unbroken_of_pooled h hparty i, fun i hi ↦
      ⟨hqueued i hi, Exchange.nothing_of_waiting h hparty (Or.inr (hqueued i hi))⟩⟩

theorem calls_stalled_oneStops :
    (∃ as s, (calls helloServer oneStops 2 Nat.two_pos).pool.run as = some s ∧
      (s.session false).result =
        some (some (receivedResponse (helloServer.answer helloCall.request)))) ∧
    ∃ as s, (calls helloServer oneStops 1 Nat.one_pos).pool.run as = some s ∧
      (∀ b, b.ofParty ExchangeAction.ofParty →
        (calls helloServer oneStops 1 Nat.one_pos).pool.step s b = none) ∧
      (s.session false).result = none := by
  have hfalse : false ∉ ({true} : Finset Bool) := by simp
  constructor
  · obtain ⟨hbound, hserved, -⟩ := calls_stalled oneStops (fun _ ↦ helloCall) Nat.two_pos
      oneStops_stalls oneStops_makes
    obtain ⟨as, s, h, hparty, hstuck⟩ := TransitionSystem.exists_stuck_run
      (P := fun b ↦ b.ofParty ExchangeAction.ofParty) hbound [] _ rfl
    obtain ⟨-, -, -, hanswer⟩ := hserved Nat.one_lt_two as s h hstuck false hfalse
    exact ⟨as, s, h, (hanswer (Exchange.unbroken_of_pooled h hparty false)).2⟩
  · obtain ⟨-, -, hblocked⟩ := calls_stalled oneStops (fun _ ↦ helloCall) Nat.one_pos
      oneStops_stalls oneStops_makes
    obtain ⟨as, s, h, hstuck, -, hwaits⟩ := hblocked (Nat.le_refl 1)
    exact ⟨as, s, h, hstuck, (hwaits false hfalse).2.2⟩

end Calls

end FalconHTTP
