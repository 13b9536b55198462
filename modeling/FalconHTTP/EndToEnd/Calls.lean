import FalconHTTP.EndToEnd.Exchange
import Mathlib.Algebra.Order.BigOperators.Group.Finset

/-!
# Many calls to one server

`Server::run` hands every connection it accepts to a pool of `threadCount` threads; a thread runs
`handleConnection` on it, and is free again when that has closed the connection. Here any number of
clients are on connections of their own, and their exchanges, the accepts and the threads of the
pool interleave in every order. The queue of the pool is in no particular order.

* `calls_safe`: what other clients send, and when, makes no difference to the safety of a call.
* `calls_complete`: calls do not block one another. With one thread or more, and any number of
  calls, every run is bounded, and where nothing can go on every call on an unbroken connection has
  its own answer.

A client that stops before its request is complete does block a thread, since the server has no
time limit; so `calls_complete` is about calls that fit the server. How many such clients a server
bears is the subject of `FalconHTTP.EndToEnd.StalledClients`.
-/

namespace FalconHTTP

open FiniteMap HttpClient

variable {M : Type} [FiniteMap M Bytes Bytes] {ι : Type} [Fintype ι] [DecidableEq ι]

/-- A client with a connection of its own. -/
structure Caller where
  /-- The bytes it writes. -/
  bytes : Bytes
  /-- Its options. -/
  options : ClientOptions
  /-- How many bytes its connection holds in one direction. -/
  room : ℕ
  /-- It holds one. -/
  room_pos : 0 < room

/-- What a caller and a server do. -/
def Caller.exchange (caller : Caller) (server : Server M) :
    Exchange UInt8 (Chunk defaultReadChunk) (ReadPoint M) (ResponsePoint M) (ReadOutcome M)
      (Option (ClientResponse M)) :=
  FalconHTTP.exchange server caller.options caller.bytes caller.room caller.room_pos

/-- The callers of a server with a pool of threads. -/
def calls (server : Server M) (caller : ι → Caller) (threadCount : ℕ)
    (threadCount_pos : 0 < threadCount) :
    WorkerPool ι (ExchangePoint M) (ExchangeAction (Chunk defaultReadChunk)) :=
  Exchange.pooled (fun i ↦ (caller i).exchange server) threadCount threadCount_pos

/-- A caller that makes a call, which fits the server. -/
structure Caller.Makes (caller : Caller) (server : Server M) (call : Call M) : Prop where
  /-- It writes the call. -/
  bytes_eq : caller.bytes = call.bytes
  /-- The call fits. -/
  fits : call.Fits server caller.options

/-- The messages of a caller that makes a call are delimited. -/
theorem Caller.Makes.delimited {caller : Caller} {server : Server M} {call : Call M}
    (h : caller.Makes server call) :
    (caller.exchange server).Delimited (.request call.request) .closed
      (some (receivedResponse (server.answer call.request))) := by
  rw [Caller.exchange, h.bytes_eq]
  exact h.fits.delimited _ _

section Calls

variable {server : Server M} {threadCount : ℕ}
  {threadCount_pos : 0 < threadCount}
  {as : List (PoolAction ι (ExchangeAction (Chunk defaultReadChunk)))}
  {s : PoolState ι (ExchangePoint M)}

/-! ### Two calls on concrete input -/

/-- A caller that makes the call of `helloCall`. -/
def helloCaller : Caller where
  bytes := helloCall.bytes
  options := helloOptions
  room := 50
  room_pos := Nat.succ_pos 49

theorem helloCaller_makes : helloCaller.Makes helloServer helloCall :=
  ⟨rfl, helloCall_fits⟩

/-- Two callers and one thread. -/
def helloCalls :
    WorkerPool Bool (ExchangePoint BytesMap) (ExchangeAction (Chunk defaultReadChunk)) :=
  calls helloServer (fun _ : Bool ↦ helloCaller) 1 Nat.one_pos

/-- A run in which one call waits until the other has been served. -/
def helloCallsRun : List (PoolAction Bool (ExchangeAction (Chunk defaultReadChunk))) :=
  [.accept false, .act true (.clientWrite 50), .accept true, .take true,
    .act true (.serverRead helloCallFront),
    .act true (.clientWrite (helloCall.bytes.length - 50)),
    .act true (.serverRead helloCallBack), .act true .clientTurn,
    .act true (.serverWrite 50), .act true (.clientRead helloAnswerFront),
    .act true (.serverWrite (helloAnswer.length - 50)), .act true .serverClose, .leave true,
    .take false, .act true (.clientRead helloAnswerBack)] ++
  helloRun.map (.act false) ++ [.leave false]

theorem run_helloCallsRun : ∃ s, helloCalls.pool.run helloCallsRun = some s ∧
    ∀ i, s.point i = .left ∧ Exchange.Final (s.session i) ∧ (s.session i).broken = false := by
  have hrun : (helloCalls.pool.run helloCallsRun).map (fun s ↦
      [false, true].map fun i ↦
        (s.point i, (s.session i).client, (s.session i).server, (s.session i).broken)) =
      some [(.left, .returned, .closed, false), (.left, .returned, .closed, false)] := by
    decide +kernel
  obtain ⟨s, hs, hparts⟩ := Option.map_eq_some_iff.1 hrun
  simp only [List.map_cons, List.map_nil, List.cons.injEq, Prod.mk.injEq, and_true] at hparts
  obtain ⟨⟨hpoint, hclient, hserver, hbroken⟩, hpoint', hclient', hserver', hbroken'⟩ := hparts
  refine ⟨s, hs, fun i ↦ ?_⟩
  cases i with
  | false => exact ⟨hpoint, ⟨hclient, hserver⟩, hbroken⟩
  | true => exact ⟨hpoint', ⟨hclient', hserver'⟩, hbroken'⟩

/-! ### What calls come to -/

/-- The length of a run, whatever its callers make of it. -/
theorem length_le_of_calls (caller : ι → Caller) {reply : ι → ℕ}
    (hreply : ∀ i, ((caller i).exchange server).RepliesWithin (reply i))
    (h : (calls server caller threadCount threadCount_pos).pool.run as = some s) :
    as.length ≤ ∑ i, (2 * (caller i).bytes.length + 2 * reply i + 8) := by
  rw [WorkerPool.length_eq_sum h]
  refine Finset.sum_le_sum fun i _ ↦ ?_
  have hsession := Exchange.length_le_of_repliesWithin (hreply i) (WorkerPool.run_session h i)
  have hbytes : ((caller i).exchange server).request.length = (caller i).bytes.length := rfl
  have hrank := (s.point i).rank_le
  rw [hbytes] at hsession
  omega

/-- **Safety of a call among others.** In every run of a server with any number of clients, whatever
bytes the others write and wherever connections break: no more connections are handled at once than
there are threads, and a call that fits the server is handed on at most once, as it was made and
with nothing of the others in it; a response that its client has returned is the answer to it. -/
theorem calls_safe (caller : ι → Caller) (i : ι) {call : Call M}
    (hmakes : (caller i).Makes server call)
    (h : (calls server caller threadCount threadCount_pos).pool.run as = some s) :
    WorkerPool.busy s ≤ threadCount ∧
      ((s.session i).handled = [] ∨ (s.session i).handled = [.request call.request] ∨
        (s.session i).handled = [.closed]) ∧
      ∀ response, (s.session i).result = some (some response) →
        response = receivedResponse (server.answer call.request) ∧
          (s.session i).handled = [.request call.request] := by
  obtain ⟨hhandled, hresult⟩ :=
    Exchange.safe_of_run hmakes.delimited (WorkerPool.run_session h i)
  refine ⟨WorkerPool.busy_le h, hhandled, fun response hresponse ↦ ?_⟩
  rcases hresult _ hresponse with ⟨heq, hone⟩ | hnone
  · exact ⟨Option.some.inj heq, hone⟩
  · exact absurd hnone (by simp [Caller.exchange, exchange])

theorem calls_safe_helloCallsRun : ∃ s, helloCalls.pool.run helloCallsRun = some s ∧
    WorkerPool.busy s ≤ 1 ∧ ∀ i response, (s.session i).result = some (some response) →
      response.body = ascii "hi" := by
  obtain ⟨s, hs, -⟩ := run_helloCallsRun
  have hsafe := fun i ↦ calls_safe (fun _ : Bool ↦ helloCaller) i helloCaller_makes hs
  refine ⟨s, hs, (hsafe false).1, fun i response hresponse ↦ ?_⟩
  obtain ⟨rfl, -⟩ := (hsafe i).2.2 response hresponse
  show (helloServer.answer helloCall.request).body = _
  decide +kernel

/-- **Calls complete.** When all clients make calls that fit the server, a run takes at most as many
steps as the bytes of the calls and their answers allow, with one thread as with many. Where neither
a client nor the server can go on, every connection has been accepted, handled and closed, and every
call whose connection did not break was handed on once, and has its own answer. -/
theorem calls_complete (caller : ι → Caller) {call : ι → Call M}
    (hmakes : ∀ i, (caller i).Makes server (call i))
    (h : (calls server caller threadCount threadCount_pos).pool.run as = some s) :
    as.length ≤ ∑ i, (2 * (call i).bytes.length +
        2 * (HttpSerializer.serialize (server.answer (call i).request)).length + 8) ∧
      ((∀ b, b.ofParty ExchangeAction.ofParty →
          (calls server caller threadCount threadCount_pos).pool.step s b = none) →
        ∀ i, s.point i = .left ∧ (s.session i).client = .returned ∧
          (s.session i).server = .closed ∧
          ((s.session i).broken = false → (s.session i).handled = [.request (call i).request] ∧
            (s.session i).result =
              some (some (receivedResponse (server.answer (call i).request))))) := by
  constructor
  · have hlength := length_le_of_calls caller (fun i ↦ (hmakes i).delimited.repliesWithin) h
    simp only [(hmakes _).bytes_eq] at hlength
    exact hlength
  · intro hstuck i
    obtain ⟨hleft, hsession⟩ := WorkerPool.stuck_of_stuck
      (fun j _ ↦ Exchange.pooled_serves (hmakes j).delimited)
      (Finset.card_empty.trans_lt threadCount_pos) h hstuck (Finset.notMem_empty i)
    obtain ⟨⟨hclient, hserver⟩, hanswer⟩ :=
      Exchange.final_of_stuck (hmakes i).delimited (WorkerPool.run_session h i) hsession
    exact ⟨hleft, hclient, hserver, hanswer⟩

theorem calls_complete_helloCallsRun : ∃ s, helloCalls.pool.run helloCallsRun = some s ∧
    ∀ i, (s.session i).handled = [.request helloCall.request] ∧ (s.session i).result =
      some (some (receivedResponse (helloServer.answer helloCall.request))) := by
  obtain ⟨s, hs, hdone⟩ := run_helloCallsRun
  obtain ⟨-, hall⟩ := calls_complete (fun _ : Bool ↦ helloCaller)
    (fun _ ↦ helloCaller_makes) hs
  have hanswer := hall fun b hb ↦ WorkerPool.step_of_left (fun i ↦ (hdone i).1)
    (fun i a ha ↦ Exchange.step_of_final (hdone i).2.1 ha) hb
  exact ⟨s, hs, fun i ↦ (hanswer i).2.2.2 (hdone i).2.2⟩

end Calls

end FalconHTTP
