import FalconHTTP.Core.Answer
import FalconHTTP.Middleware.Recovery

/-!
# The middlewares around the others

`Logger` goes on and then writes a line to the standard output, which is left out; so it changes
nothing. `Recovery` turns exceptions into responses. A list of the two, in front of other
middlewares, is called `outer` here: all that it does is to recover, or not
(`runChain_outer_congr`).

* `handleConnection_outer`: so the two can be registered in any order, and more than once.
* `handleConnection_recovered`: with `Recovery` no exception of what is inside escapes from
  `handleConnection`. It becomes a 500, or the end of a stream, never both.

The last section is about middlewares that pass a request on once and may set headers, as these two
and `Cors` do: the chain comes to its end with all the headers that were set.
-/

namespace FalconHTTP

open FiniteMap

variable {M : Type} [FiniteMap M Bytes Bytes]

/-- The request that is handed on, if there is one. -/
def ReadOutcome.request? : ReadOutcome M → Option (HttpRequest M)
  | .request read => some read
  | .rejected _ => none
  | .closed => none

/-- The logging middleware. -/
def logger : MiddlewareFn M := fun request response ↦ .call (request, response) .done

namespace Server

variable {server : Server M}

/-! ### Around a chain without streams -/

/-- The recovery middleware turns an exception into a 500 with the headers that were set. -/
theorem plainChain_recovery (rest : List (MiddlewareFn M)) (request : HttpRequest M)
    (response : HttpResponse M) :
    server.plainChain (recovery :: rest) request response =
      match server.plainChain rest request response with
      | (.ok (), left) => (.ok (), left)
      | (.error _, request, response) => (.ok (), request,
          (response.setStatus .internalServerError).setBody (ascii "Internal Server Error")) := by
  rw [plainChain, recovery]
  simp only [Interaction.run_call]
  rcases server.plainChain rest request response with ⟨e | ⟨⟩, request', response'⟩
  · rfl
  · rfl

/-- The middlewares that go on whatever the request is. -/
inductive Outer
  /-- `Logger`. -/
  | logger
  /-- `Recovery`. -/
  | recovery
  deriving DecidableEq

/-- The middleware. -/
def Outer.middleware : Outer → MiddlewareFn M
  | .logger => FalconHTTP.logger
  | .recovery => FalconHTTP.recovery

section Around

variable {outer : List Outer} {inner : List (MiddlewareFn M)} {request : HttpRequest M}
  {response : HttpResponse M}

/-- What returns inside returns outside. -/
theorem plainChain_outer_of_ok (outer : List Outer) {left : HttpRequest M × HttpResponse M}
    (h : server.plainChain inner request response = (.ok (), left)) :
    server.plainChain (outer.map Outer.middleware ++ inner) request response = (.ok (), left) := by
  induction outer with
  | nil => exact h
  | cons m outer ih =>
    cases m with
    | logger => exact ih
    | recovery =>
      show server.plainChain (recovery :: (outer.map Outer.middleware ++ inner)) request response =
        _
      rw [plainChain_recovery, ih]

/-- What throws inside throws outside, unless it is recovered from: then it is a 500 with the
headers of the response that was left. -/
theorem plainChain_outer_of_error (outer : List Outer) {e : Exn}
    {left : HttpRequest M × HttpResponse M}
    (h : server.plainChain inner request response = (.error e, left)) :
    server.plainChain (outer.map Outer.middleware ++ inner) request response =
      if .recovery ∈ outer then
        (.ok (), left.1, (left.2.setStatus .internalServerError).setBody
          (ascii "Internal Server Error"))
      else (.error e, left) := by
  induction outer with
  | nil => exact h
  | cons m outer ih =>
    cases m with
    | logger =>
      have hmem : Outer.recovery ∈ Outer.logger :: outer ↔ Outer.recovery ∈ outer := by simp
      simp only [hmem]
      exact ih
    | recovery =>
      rw [if_pos List.mem_cons_self]
      show server.plainChain (recovery :: (outer.map Outer.middleware ++ inner)) request response =
        _
      rw [plainChain_recovery, ih]
      by_cases hrecovered : Outer.recovery ∈ outer
      · simp only [if_pos hrecovered]
      · simp only [if_neg hrecovered]

end Around

/-! ### The order of the middlewares around -/

section Chain

variable {inner : List (MiddlewareFn M)} {request request' : HttpRequest M}
  {response response' : HttpResponse M} {s s' : ChainState}

/-- What returns inside returns outside, on any server. -/
theorem runChain_outer_of_ok (outer : List Outer) {streamed : Bool}
    (h : server.runChain inner request response s = ⟨.ok streamed, request', response', s'⟩) :
    server.runChain (outer.map Outer.middleware ++ inner) request response s =
      ⟨.ok streamed, request', response', s'⟩ := by
  induction outer with
  | nil => exact h
  | cons m outer ih =>
    cases m with
    | logger =>
      show server.runChain (logger :: (outer.map Outer.middleware ++ inner)) request response s = _
      rw [runChain, logger]
      simp only [Interaction.run_call, nextCall, ih, Interaction.run_done]
    | recovery =>
      show server.runChain (recovery :: (outer.map Outer.middleware ++ inner)) request response s =
        _
      rw [runChain, recovery]
      simp only [Interaction.run_call, nextCall, ih, Interaction.run_done]

/-- What throws inside throws outside, unless it is recovered from: then the chain returns as if no
stream had run. -/
theorem runChain_outer_of_error (outer : List Outer) {e : Exn}
    (h : server.runChain inner request response s = ⟨.error e, request', response', s'⟩) :
    server.runChain (outer.map Outer.middleware ++ inner) request response s =
      if .recovery ∈ outer then
        ⟨.ok false, request', (response'.setStatus .internalServerError).setBody
          (ascii "Internal Server Error"), s'⟩
      else ⟨.error e, request', response', s'⟩ := by
  induction outer with
  | nil => exact h
  | cons m outer ih =>
    cases m with
    | logger =>
      have hmem : Outer.recovery ∈ Outer.logger :: outer ↔ Outer.recovery ∈ outer := by simp
      simp only [hmem]
      show server.runChain (logger :: (outer.map Outer.middleware ++ inner)) request response s = _
      rw [runChain, logger]
      simp only [Interaction.run_call, nextCall, ih]
      by_cases hrecovered : Outer.recovery ∈ outer
      · simp only [if_pos hrecovered, Interaction.run_done]
      · simp only [if_neg hrecovered, Interaction.run_done]
    | recovery =>
      rw [if_pos List.mem_cons_self]
      show server.runChain (recovery :: (outer.map Outer.middleware ++ inner)) request response s =
        _
      rw [runChain, recovery]
      simp only [Interaction.run_call, nextCall, ih]
      by_cases hrecovered : Outer.recovery ∈ outer
      · simp only [if_pos hrecovered, Interaction.run_done]
      · simp only [if_neg hrecovered, Interaction.run_done]

/-- **All that the middlewares around do to a chain** is to recover from its exceptions, or not. -/
theorem runChain_outer_congr {outer outer' : List Outer}
    (hrecovery : .recovery ∈ outer ↔ .recovery ∈ outer') (inner : List (MiddlewareFn M)) :
    server.runChain (outer.map Outer.middleware ++ inner) =
      server.runChain (outer'.map Outer.middleware ++ inner) := by
  funext request response s
  rcases hinner : server.runChain inner request response s with
    ⟨e | streamed, request', response', s'⟩
  · rw [runChain_outer_of_error outer hinner, runChain_outer_of_error outer' hinner]
    simp only [hrecovery]
  · rw [runChain_outer_of_ok outer hinner, runChain_outer_of_ok outer' hinner]

end Chain

/-- **Logging and recovery can be registered in any order, and more than once.** In front of any
other middlewares, on a server with stream routes or without: two lists of the two make the server
do the same on every connection as soon as both have recovery in them, or neither has. -/
theorem handleConnection_outer (server : Server M) (outer outer' : List Outer)
    (inner : List (MiddlewareFn M)) (hrecovery : .recovery ∈ outer ↔ .recovery ∈ outer')
    (s : ChainState) :
    ({ server with middleware := outer.map Outer.middleware ++ inner } :
        Server M).handleConnection s =
      ({ server with middleware := outer'.map Outer.middleware ++ inner } :
        Server M).handleConnection s := by
  have hchain : ({ server with middleware := outer.map Outer.middleware ++ inner } :
      Server M).runChain (outer.map Outer.middleware ++ inner) =
        ({ server with middleware := outer'.map Outer.middleware ++ inner } :
          Server M).runChain (outer'.map Outer.middleware ++ inner) :=
    calc
      _ = server.runChain (outer.map Outer.middleware ++ inner) :=
        runChain_with_middleware server _ _
      _ = server.runChain (outer'.map Outer.middleware ++ inner) :=
        runChain_outer_congr hrecovery inner
      _ = _ := (runChain_with_middleware server _ _).symm
  exact handleConnection_congr hchain rfl s

theorem handleConnection_outer_tickState :
    ({ tickServer with middleware := [logger, recovery] } : Server BytesMap).handleConnection
        tickState =
      ({ tickServer with middleware := [recovery, recovery, logger] } :
        Server BytesMap).handleConnection tickState :=
  handleConnection_outer tickServer [.logger, .recovery] [.recovery, .recovery, .logger] []
    (by decide) tickState

/-! ### Recovery -/

/-- **Once a stream has taken the connection, nothing more is written**, however the chain ends. -/
theorem handleConnection_of_moved {request : HttpRequest M} {s : ChainState}
    (hopen : s.connection.isOpen)
    (hread : (readRequest server.caps s.endpoint.incoming).1 = .request request)
    (hmoved : (server.runChain server.middleware request (.new .ok)
      (afterRead server s)).state.connection.isOpen = false) :
    (server.handleConnection s).2 =
      (server.runChain server.middleware request (.new .ok) (afterRead server s)).state := by
  have hanswer : ∀ response : HttpResponse M, closeConnection (sendResponse response
      (server.runChain server.middleware request (.new .ok) (afterRead server s)).state) =
      (server.runChain server.middleware request (.new .ok) (afterRead server s)).state := by
    intro response
    have hsend : sendResponse response
        (server.runChain server.middleware request (.new .ok) (afterRead server s)).state =
        (server.runChain server.middleware request (.new .ok) (afterRead server s)).state := by
      rw [sendResponse, Connection.sendAll_of_not_isOpen (by simp [hmoved])]
    rw [hsend, closeConnection_of_not_isOpen hmoved]
  have hrespond : (server.respond request (afterRead server s)).2 =
      (server.runChain server.middleware request (.new .ok) (afterRead server s)).state := by
    rw [respond]
    rcases (server.runChain server.middleware request (.new .ok) (afterRead server s)).result with
      (what | -) | (- | -)
    · exact hanswer _
    · rfl
    · exact hanswer _
    · rfl
  rw [handleConnection_of_isOpen hopen hread, settle, hrespond,
    closeConnection_of_not_isOpen hmoved]

/-- As long as no stream has taken the connection, nothing has been written. -/
theorem runChain_of_isOpen (server : Server M) (middlewares : List (MiddlewareFn M))
    (request : HttpRequest M) (response : HttpResponse M) (s : ChainState)
    (hopen : (server.runChain middlewares request response s).state.connection.isOpen) :
    (server.runChain middlewares request response s).state.connection = s.connection ∧
      (server.runChain middlewares request response s).state.endpoint = s.endpoint := by
  refine runChain_invariant (I := fun t ↦ t.connection.isOpen →
    t.connection = s.connection ∧ t.endpoint = s.endpoint) (fun request response t ht hopen ↦ ?_)
    middlewares request response s (fun _ ↦ ⟨rfl, rfl⟩) hopen
  rcases enters_or server request t with ⟨streamHandler, request', henters⟩ | hnot
  · rw [(endOfChain_of_enters response henters).2] at hopen
    exact absurd hopen (by simp [Connection.isOpen, Connection.movedFrom, Socket.isValid])
  · obtain ⟨-, hconnection, hendpoint⟩ := endOfChain_of_not_enters response hnot
    rw [hconnection] at hopen ⊢
    rw [hendpoint]
    exact ht hopen

/-- Around anything, recovery makes the chain return. -/
theorem exists_runChain_outer {outer : List Outer} (hrecovery : .recovery ∈ outer)
    (inner : List (MiddlewareFn M)) (request : HttpRequest M) (response : HttpResponse M)
    (s : ChainState) : ∃ streamed,
      (server.runChain (outer.map Outer.middleware ++ inner) request response s).result =
        .ok streamed := by
  rcases hinner : server.runChain inner request response s with
    ⟨e | streamed, request', response', s'⟩
  · rw [runChain_outer_of_error outer hinner, if_pos hrecovery]
    exact ⟨false, rfl⟩
  · rw [runChain_outer_of_ok outer hinner]
    exact ⟨streamed, rfl⟩

/-- A chain that returns lets nothing escape. -/
theorem handleConnection_fst_of_ok {s : ChainState}
    (h : ∀ request, ∃ streamed, (server.runChain server.middleware request (.new .ok)
      (afterRead server s)).result = .ok streamed) : (server.handleConnection s).1 = none := by
  by_cases hopen : s.connection.isOpen
  · rw [handleConnection_of_isOpen hopen rfl]
    rcases (readRequest server.caps s.endpoint.incoming).1 with request | response | -
    · obtain ⟨streamed, hresult⟩ := h request
      show (server.respond request (afterRead server s)).1 = none
      rw [respond, hresult]
      rcases streamed with - | - <;> rfl
    · rfl
    · rfl
  · rw [handleConnection, if_pos hopen]

/-- **No exception gets past `Recovery`.** On a server that has it among the middlewares around,
whatever the middlewares inside and the handlers throw: nothing escapes from `handleConnection`, on
any connection. Where the chain inside throws, the connection is answered with a 500 that has the
headers the chain has left, and nothing was written before it; unless a stream had taken the
connection: then nothing is written after what the stream has written. -/
theorem handleConnection_recovered (server : Server M) (outer : List Outer)
    (inner : List (MiddlewareFn M)) (hrecovery : .recovery ∈ outer)
    (hmiddleware : server.middleware = outer.map Outer.middleware ++ inner) (s : ChainState) :
    (server.handleConnection s).1 = none ∧
      ∀ request e left response s', s.connection.isOpen →
        (readRequest server.caps s.endpoint.incoming).1 = .request request →
        server.runChain inner request (.new .ok) (afterRead server s) =
          ⟨.error e, left, response, s'⟩ →
        (s'.connection.isOpen = true ∧ s'.endpoint = (afterRead server s).endpoint ∧
            (server.handleConnection s).2 = closeConnection (sendResponse
              ((response.setStatus .internalServerError).setBody (ascii "Internal Server Error"))
              s')) ∨
          (s'.connection.isOpen = false ∧ (server.handleConnection s).2 = s') := by
  constructor
  · refine handleConnection_fst_of_ok fun request ↦ ?_
    rw [hmiddleware]
    exact exists_runChain_outer hrecovery inner request _ _
  intro request e left response s' hopen hread hinner
  have hchain := runChain_outer_of_error outer hinner
  rw [if_pos hrecovery, ← hmiddleware] at hchain
  rcases hmoved : s'.connection.isOpen with - | -
  · refine Or.inr ⟨rfl, ?_⟩
    have hstate : (server.runChain server.middleware request (.new .ok)
        (afterRead server s)).state = s' := by rw [hchain]
    rw [handleConnection_of_moved hopen hread (by rw [hstate]; exact hmoved), hstate]
  · refine Or.inl ⟨rfl, ?_, ?_⟩
    · have huntouched := runChain_of_isOpen server inner request (.new .ok) (afterRead server s)
      rw [hinner] at huntouched
      exact (huntouched hmoved).2
    · rw [handleConnection_of_isOpen hopen hread, settle, respond, hchain]
      exact closeConnection_closeConnection (show (sendResponse _ s').connection.isOpen from hmoved)

/-- A handler that sets a header and throws what is not a standard exception. -/
def throwingHandler : RouteHandler BytesMap := fun _ response ↦
  (.error .other, response.setHeader (ascii "X-Step") (ascii "1"))

/-- A server whose only route throws. -/
def throwingServer : Server BytesMap where
  routes := [⟨.get, ascii "/events", .normal throwingHandler⟩]
  middleware := [logger, recovery]
  caps := smallCaps
  maxStreamingConnections := 1
  maxStreamingConnections_pos := Nat.one_pos

theorem handleConnection_recovered_tickState :
    (throwingServer.handleConnection tickState).1 = none ∧
      ∃ (response : HttpResponse BytesMap) (s' : ChainState),
        (throwingServer.handleConnection tickState).2 = closeConnection (sendResponse
          ((response.setStatus .internalServerError).setBody (ascii "Internal Server Error")) s') ∧
        s'.endpoint.sent = [] := by
  have hthrows : (readRequest throwingServer.caps tickState.endpoint.incoming).1.request?.map
      (fun request : HttpRequest BytesMap ↦
        let ended := throwingServer.runChain [] request (.new .ok)
          (afterRead throwingServer tickState)
        (ended.result.isOk, ended.state.connection.isOpen)) = some (false, true) := by
    decide +kernel
  obtain ⟨hnone, hanswer⟩ := handleConnection_recovered throwingServer [.logger, .recovery] []
    (by decide) rfl tickState
  refine ⟨hnone, ?_⟩
  rcases hread : (readRequest throwingServer.caps tickState.endpoint.incoming
    (M := BytesMap)).1 with request | response | -
  · rw [hread] at hthrows
    obtain ⟨hresult, hopen⟩ := Prod.mk.inj (Option.some.inj hthrows)
    rcases hended : throwingServer.runChain [] request (.new .ok)
      (afterRead throwingServer tickState) with ⟨e | streamed, left, response, s'⟩
    · rw [hended] at hopen
      rcases hanswer request e left response s' rfl hread hended with
        ⟨-, hendpoint, hhandle⟩ | ⟨hmoved, -⟩
      · exact ⟨response, s', hhandle, by rw [hendpoint]; rfl⟩
      · exact absurd (hopen.symm.trans hmoved) (by decide)
    · rw [hended] at hresult
      cases hresult
  · rw [hread] at hthrows
    cases hthrows
  · rw [hread] at hthrows
    cases hthrows

/-! ### Middlewares that pass a request on -/

/-- The middleware sets headers, passes the request on once, and ends as it likes. -/
def PassesOn (request : HttpRequest M) (m : MiddlewareFn M) (set : List (Bytes × Bytes)) : Prop :=
  ∀ response, ∃ after : NextResult M → NextResult M, m request response =
    .call (request, set.foldl (fun response e ↦ response.setHeader e.1 e.2) response)
      fun r ↦ .done (after r)

theorem passesOn_logger (request : HttpRequest M) : PassesOn request logger [] :=
  fun _ ↦ ⟨id, rfl⟩

theorem passesOn_recovery (request : HttpRequest M) : PassesOn request recovery [] := by
  intro response
  refine ⟨fun r ↦ ((recovery request response).run (fun _ (_ : Unit) ↦ (r, ())) ()).1, ?_⟩
  refine congrArg (Interaction.call (request, response)) (funext fun r ↦ ?_)
  obtain ⟨e | ⟨⟩, request', response'⟩ := r
  · rfl
  · rfl

section PassesOn

variable {request : HttpRequest M} {sets : List (List (Bytes × Bytes))}

/-- **The chain comes to its end once**, with all the headers that were set. -/
theorem runChain_of_passesOn {middlewares : List (MiddlewareFn M)}
    (h : List.Forall₂ (PassesOn request) middlewares sets) (response : HttpResponse M)
    (s : ChainState) :
    (server.runChain middlewares request response s).state =
      (server.endOfChain request
        (sets.flatten.foldl (fun response e ↦ response.setHeader e.1 e.2) response) s).state := by
  induction h generalizing response with
  | nil => rfl
  | cons hpasses _ ih =>
    obtain ⟨after, hafter⟩ := hpasses response
    rw [(runChain_cons server _ _ request response s).2, hafter, Interaction.run_call,
      Interaction.run_done, nextCall_state, ih, List.flatten_cons, List.foldl_append]

end PassesOn

end Server

end FalconHTTP
