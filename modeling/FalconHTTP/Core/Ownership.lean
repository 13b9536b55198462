import FalconHTTP.Core.ChainContract
import FalconHTTP.Core.Answer
import FalconHTTP.Middleware.Guards

/-!
# What the chain reports about ownership

`runChain` returns whether a stream took the connection. That is not always right: when a stream
handler throws and a middleware catches that, as `recovery` does, or when a later call of `next`
ends elsewhere, the chain may return `false` although the connection is gone
(`not_runChain_truthful`).

`Meets` is a condition on the routes, the middlewares and the connection, with a contract for each
level of the chain: at its end the contract covers what the routes say, and every middleware fulfils
its contract in front of that of the next level. A chain that meets a contract tells the truth about
each call that the contract serves (`runChain_truthful`).

Such contracts exist for servers without stream routes (`NoStreams.meets`), for requests that the
middlewares keep away from stream routes (`meets_of_staysWithin`), for middlewares that call `next`
at most once while all slots are taken (`meets_of_callsOnce`) or that let its exceptions through
(`meets_of_letsThrough`), and for `recovery` in front of stream handlers that do not throw
(`fulfils_recovery`).
-/

namespace FalconHTTP

variable {M : Type} [FiniteMap M Bytes Bytes]

namespace Server

variable (server : Server M)

/-! ### The condition -/

/-- The contract covers what the routes say: a call that no stream route matches leaves the
connection alone; one that a stream route matches is refused if all slots are taken, and ends as the
stream handler does on this connection otherwise. -/
def EndMeets (wire : OpenWire) (contract : ChainContract M) : Prop :=
  ∀ call values, contract.serves call values →
    match Router.matchStream call.1 server.routes with
    | none => contract.leaves call values (server.plainEnd call.1 call.2) values
    | some (streamHandler, request) =>
      if server.maxStreamingConnections ≤ values.headD 0 then
        contract.leaves call values (.ok (), request, (call.2.setStatus .serviceUnavailable).setBody
          (ascii "Too many concurrent streaming connections")) values.tail
      else
        let stream := SseConnection.new wire.connection call.2.headers.map wire.endpoint
        contract.takes call values (((streamHandler request).run sseCall stream).1, request, call.2)

/-- The routes and the middlewares that are left meet a contract, each level in front of a contract
for the rest. -/
def Meets (wire : OpenWire) : ChainContract M → List (MiddlewareFn M) → Prop
  | contract, [] => server.EndMeets wire contract
  | contract, m :: rest =>
    ∃ inner : ChainContract M, Meets wire inner rest ∧ inner.Fulfils contract m

/-! ### The chain -/

variable {server} {wire : OpenWire} {contract : ChainContract M}

/-- A stream route that gets no slot leaves the connection alone. -/
theorem endOfChain_of_refused {request request' : HttpRequest M} {streamHandler : StreamHandler M}
    {s : ChainState} (hmatch : Router.matchStream request server.routes =
      some (streamHandler, request')) (hfull : server.maxStreamingConnections ≤ s.fetched.headD 0)
    (response : HttpResponse M) :
    server.endOfChain request response s =
      ⟨.ok false, request', (response.setStatus .serviceUnavailable).setBody
        (ascii "Too many concurrent streaming connections"),
        { s with
          fetched := s.fetched.tail
          counterOps := s.counterOps ++ [.fetchAdd (s.fetched.headD 0)] ++ [.fetchSub] }⟩ := by
  rw [endOfChain, hmatch]
  simp only [if_pos hfull]

/-- One that gets a slot takes it, and leaves the request and the response as they are. -/
theorem endOfChain_eq_of_enters {request request' : HttpRequest M} {streamHandler : StreamHandler M}
    {s : ChainState} (henters : server.Enters request s streamHandler request')
    (response : HttpResponse M) :
    server.endOfChain request response s =
      ⟨((streamHandler request').run sseCall (startStream response s)).1.map fun _ ↦ true,
        request', response, (server.endOfChain request response s).state⟩ := by
  rw [endOfChain, henters.1]
  simp only [if_neg (Nat.not_le.2 henters.2), runStream]
  rcases ((streamHandler request').run sseCall (startStream response s)).1 with e | ⟨⟩
  · rfl
  · rfl

/-- The end of the chain does what its routes say. -/
theorem EndMeets.describes (h : server.EndMeets wire contract) :
    contract.Describes wire server.endOfChain := by
  intro call s
  have hcall := h call s.fetched
  rcases hmatch : Router.matchStream call.1 server.routes with - | ⟨streamHandler, request⟩
  · rw [hmatch] at hcall
    rw [endOfChain_eq_plainEnd hmatch]
    exact ChainContract.allows_of_leaves hcall rfl rfl
  · rw [hmatch] at hcall
    by_cases hfull : server.maxStreamingConnections ≤ s.fetched.headD 0
    · simp only [if_pos hfull] at hcall
      rw [endOfChain_of_refused hmatch hfull]
      exact ChainContract.allows_of_leaves (r := (.ok (), request, _)) hcall rfl rfl
    · simp only [if_neg hfull] at hcall
      have henters : server.Enters call.1 s streamHandler request :=
        ⟨hmatch, Nat.lt_of_not_le hfull⟩
      have hgone : (server.endOfChain call.1 call.2 s).state.connection.isOpen = false := by
        rw [(endOfChain_of_enters call.2 henters).2]
        rfl
      rw [endOfChain_eq_of_enters henters]
      refine ChainContract.allows_of_takes (r := (_, request, call.2)) (fun hs hserves ↦ ?_) hgone
      rw [startStream, hs.1, hs.2]
      exact hcall hserves

/-- The chain of the source is made of such levels. -/
theorem runChain_eq_level (server : Server M) (m : MiddlewareFn M) (rest : List (MiddlewareFn M)) :
    server.runChain (m :: rest) = ChainContract.level (server.runChain rest) m := by
  funext request response s
  rw [runChain, ChainContract.level, ChainContract.finish]
  rcases (m request response).run (nextCall (server.runChain rest)) (false, s) with
    ⟨⟨e | ⟨⟩, request', response'⟩, streamed, s'⟩
  · rfl
  · rfl

/-- **The chain keeps to its contract**, by induction on the middlewares. -/
theorem Meets.describes {middlewares : List (MiddlewareFn M)}
    (h : server.Meets wire contract middlewares) :
    contract.Describes wire (server.runChain middlewares) := by
  induction middlewares generalizing contract with
  | nil => exact EndMeets.describes h
  | cons m rest ih =>
    obtain ⟨inner, hrest, hm⟩ := h
    rw [runChain_eq_level]
    exact hm.describes (ih hrest)

/-! ### Contracts that are met -/

/-- One contract may do for all levels. -/
theorem meets_of_fulfils {middlewares : List (MiddlewareFn M)}
    (hend : server.EndMeets wire contract) (h : ∀ m ∈ middlewares, contract.Fulfils contract m) :
    server.Meets wire contract middlewares := by
  induction middlewares with
  | nil => exact hend
  | cons m rest ih =>
    exact ⟨contract, ih fun m' hm' ↦ h m' (List.mem_cons_of_mem m hm'), h m List.mem_cons_self⟩

/-- Middlewares that stay within requests that no stream route matches never lose the connection. -/
theorem meets_of_staysWithin (allowed : HttpRequest M → Prop)
    (hquiet : ∀ request, allowed request → Router.matchStream request server.routes = none)
    {middlewares : List (MiddlewareFn M)} (h : ∀ m ∈ middlewares, StaysWithin allowed m) :
    server.Meets wire ⟨fun call _ ↦ allowed call.1, fun _ _ _ _ ↦ True, fun _ _ _ ↦ False⟩
      middlewares := by
  refine meets_of_fulfils (fun call values hserves ↦ ?_) fun m hm served values hserves ↦ ?_
  · rw [hquiet call.1 hserves]
    trivial
  · have hcalls := h m hm served.1 served.2 hserves
    suffices hkeeps : ∀ left, ChainContract.Keeps _ _ served values (m served.1 served.2) left from
      hkeeps values
    generalize m served.1 served.2 = p at hcalls ⊢
    induction p with
    | done r => exact fun _ ↦ trivial
    | call call next ih =>
      exact fun _ ↦ ⟨hcalls.1, fun r ↦ ⟨fun left _ ↦ ih r (hcalls.2 r) left, False.elim⟩⟩

/-- Without stream routes, middlewares may do as they like. -/
theorem NoStreams.meets (h : server.NoStreams) (middlewares : List (MiddlewareFn M)) :
    server.Meets wire ⟨fun _ _ ↦ True, fun _ _ _ _ ↦ True, fun _ _ _ ↦ False⟩ middlewares :=
  meets_of_staysWithin (fun _ ↦ True) (fun request _ ↦ h.matchStream_eq_none request)
    fun m _ request response _ ↦ Interaction.callsOnly_true (m request response)

/-- The program calls `next` at most once. -/
def CallsOnce : MiddlewareProgram M → Prop
  | .done _ => True
  | .call _ next => ∀ r, ∃ left, next r = .done left

/-- While all slots are taken, middlewares that call `next` at most once never lose the
connection. -/
theorem meets_of_callsOnce (server : Server M) {middlewares : List (MiddlewareFn M)}
    (h : ∀ m ∈ middlewares, ∀ request response, CallsOnce (m request response)) :
    server.Meets wire ⟨fun _ values ↦ server.maxStreamingConnections ≤ values.headD 0,
      fun _ _ _ _ ↦ True, fun _ _ _ ↦ False⟩ middlewares := by
  refine meets_of_fulfils (fun call values hfull ↦ ?_) fun m hm served values hfull ↦ ?_
  · rcases Router.matchStream call.1 server.routes with - | ⟨streamHandler, request⟩
    · trivial
    · exact (if_pos hfull).mpr trivial
  · have hcalls := h m hm served.1 served.2
    rcases hp : m served.1 served.2 with r | ⟨call, next⟩
    · trivial
    · rw [hp] at hcalls
      refine ⟨hfull, fun r ↦ ⟨fun values' _ ↦ ?_, False.elim⟩⟩
      obtain ⟨left, hnext⟩ := hcalls r
      rw [hnext]
      trivial

/-- The program calls `next` at most once and lets its exception through. -/
def LetsThrough : MiddlewareProgram M → Prop
  | .done _ => True
  | .call _ next => ∀ r, ∃ left, next r = .done left ∧ ∀ e, r.1 = .error e → left.1 = .error e

/-- Middlewares of that kind tell the truth in front of any routes. -/
theorem meets_of_letsThrough (server : Server M) {middlewares : List (MiddlewareFn M)}
    (h : ∀ m ∈ middlewares, ∀ request response, LetsThrough (m request response)) :
    server.Meets wire ⟨fun _ _ ↦ True, fun _ _ _ _ ↦ True, fun _ _ _ ↦ True⟩ middlewares := by
  refine meets_of_fulfils (fun call values _ ↦ ?_) fun m hm served values _ ↦ ?_
  · rcases Router.matchStream call.1 server.routes with - | ⟨streamHandler, request⟩
    · trivial
    · exact (ite_self _).mpr trivial
  · have hcalls := h m hm served.1 served.2
    rcases hp : m served.1 served.2 with r | ⟨call, next⟩
    · trivial
    · rw [hp] at hcalls
      refine ⟨trivial, fun r ↦ ?_⟩
      obtain ⟨left, hnext, hthrows⟩ := hcalls r
      rw [hnext]
      refine ⟨fun _ _ ↦ trivial, fun _ ↦ ⟨fun _ ↦ trivial, fun hr ↦ ⟨fun hleft ↦ ?_, trivial⟩⟩⟩
      rcases hresult : r.1 with e | ⟨⟩
      · exact absurd ((hthrows e hresult).symm.trans hleft) (by simp)
      · exact hr hresult

/-- The contract of a chain that does not throw once it has taken the connection. -/
def returnsOnceTaken : ChainContract M where
  serves _ _ := True
  leaves _ _ _ _ := True
  takes _ _ r := r.1 = .ok ()

/-- The end of the chain meets it if no stream handler throws. -/
theorem endMeets_returnsOnceTaken (h : ∀ route ∈ server.routes, ∀ streamHandler,
      route.target = .stream streamHandler →
        ∀ request, (streamHandler request).Ensures (fun _ _ ↦ True) (· = .ok ())) :
    server.EndMeets wire returnsOnceTaken := by
  intro call values _
  rcases hmatch : Router.matchStream call.1 server.routes with - | ⟨streamHandler, request⟩
  · trivial
  · obtain ⟨route, hroute, htarget⟩ := Router.mem_of_matchStream hmatch
    have hreturns : ((streamHandler request).run sseCall
        (SseConnection.new wire.connection call.2.headers.map wire.endpoint)).1 = .ok () :=
      (h route hroute streamHandler htarget request).run fun _ _ ↦ trivial
    dsimp only
    split
    · trivial
    · exact hreturns

/-- `recovery` has nothing to hide from such a chain. -/
theorem fulfils_recovery :
    (returnsOnceTaken : ChainContract M).Fulfils returnsOnceTaken recovery := by
  rintro served values -
  refine ⟨trivial, ?_⟩
  rintro ⟨e | ⟨⟩, request, response⟩
  · exact ⟨fun _ _ ↦ trivial, fun htakes ↦ absurd htakes (by simp [returnsOnceTaken])⟩
  · exact ⟨fun _ _ ↦ trivial, fun _ ↦ ⟨fun _ ↦ rfl, fun hr ↦ absurd rfl hr⟩⟩

/-- **When the chain tells the truth about ownership.** If the routes and the middlewares of a
server meet a contract on an open connection, level by level, a chain that returns from a call that
the contract serves reports that the connection was consumed exactly when it was. -/
theorem runChain_truthful (server : Server M) (contract : ChainContract M)
    (request : HttpRequest M) (response : HttpResponse M) (s : ChainState)
    (hopen : s.connection.isOpen = true)
    (hmeets : server.Meets (s.wire hopen) contract server.middleware)
    (hserves : contract.serves (request, response) s.fetched) (b : Bool)
    (hreturn : (server.runChain server.middleware request response s).result = .ok b) :
    b = true ↔
      (server.runChain server.middleware request response s).state.connection.isOpen = false := by
  have hends := (hmeets.describes (request, response) s).ends (s.on_wire hopen) hserves
  rw [hends.returned b hreturn, Bool.not_eq_true']

/-- A stream handler that sends one event and returns. -/
def tickOnce : StreamHandler BytesMap := fun _ ↦
  .call (.send (ascii "tick") (ascii "1")) fun _ ↦ .done (.ok ())

/-- The server of `tickServer`, with that handler. -/
def tickOnceServer : Server BytesMap :=
  { tickServer with routes := [⟨.get, ascii "/events", .stream tickOnce⟩] }

theorem runChain_truthful_tickOnceServer :
    (tickOnceServer.runChain tickOnceServer.middleware tickRequest (.new .ok)
      tickState).state.connection.isOpen = false := by
  have hmeets : ∀ wire, tickOnceServer.Meets wire returnsOnceTaken tickOnceServer.middleware := by
    refine fun wire ↦ meets_of_fulfils (endMeets_returnsOnceTaken ?_) fun m hm ↦ ?_
    · intro route hroute streamHandler htarget request
      obtain rfl := List.mem_singleton.1 hroute
      obtain rfl := RouteTarget.stream.inj htarget
      exact fun _ _ ↦ rfl
    · obtain rfl := List.mem_singleton.1 hm
      exact fulfils_recovery
  have hreturn : (tickOnceServer.runChain tickOnceServer.middleware tickRequest (.new .ok)
      tickState).result = .ok true := by
    decide +kernel
  exact (runChain_truthful tickOnceServer _ tickRequest (.new .ok) tickState rfl (hmeets _) trivial
    true hreturn).1 rfl

private theorem runChain_tickRequest :
    (tickServer.runChain tickServer.middleware tickRequest (.new .ok) tickState).result =
      .ok false := by
  decide +kernel

private theorem runChain_tickRequest_moved :
    (tickServer.runChain tickServer.middleware tickRequest (.new .ok)
      tickState).state.connection.isOpen = false := by
  decide +kernel

/-- With the recovery middleware before a stream handler that throws, the chain reports that the
connection was not consumed, and it was. -/
theorem not_runChain_truthful :
    ¬ ∀ (server : Server BytesMap) (request : HttpRequest BytesMap)
      (response : HttpResponse BytesMap) (s : ChainState) (b : Bool), s.connection.isOpen = true →
      (server.runChain server.middleware request response s).result = .ok b →
        (b = true ↔ (server.runChain server.middleware request response
          s).state.connection.isOpen = false) := by
  intro h
  have htruth := h tickServer tickRequest (.new .ok) tickState false rfl runChain_tickRequest
  exact absurd (htruth.2 runChain_tickRequest_moved) (by simp)

end Server

end FalconHTTP
