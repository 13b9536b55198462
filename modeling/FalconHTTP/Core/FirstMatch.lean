import FalconHTTP.Core.Chain
import FalconHTTP.Core.ReadGuarantees
import FalconHTTP.Routing.Dispatch

/-!
# Which route answers

A route table is scanned twice at the end of the chain, once by `matchStream` and once by
`dispatch`, and each scan sees one kind of route only. So the first route that matches wins among
the stream routes, then among the normal ones (`runChain_firstMatch`), and a request that no route
serves is answered with a 404 or a 405 that counts the normal routes alone (`answers_iff`).
-/

namespace FalconHTTP

open FiniteMap

variable {M : Type} [FiniteMap M Bytes Bytes]

/-! ### The end of the chain -/

namespace Server

/-- The end of the chain when the handler of one route runs, and nothing else. -/
def runRoute (route : Route M) (request : HttpRequest M) (response : HttpResponse M)
    (s : ChainState) : ChainEnd M :=
  match route.target with
  | .normal handler =>
    let (result, response) := handler (route.bindParams request) response
    ⟨result.map fun _ ↦ false, route.bindParams request, response, s⟩
  | .stream streamHandler =>
    let s := { s with
      fetched := s.fetched.tail
      counterOps := s.counterOps ++ [.fetchAdd (s.fetched.headD 0)] }
    let (result, s) := runStream streamHandler (route.bindParams request) response s
    ⟨result.map fun _ ↦ true, route.bindParams request, response, s⟩

/-- The end of the chain when no handler runs. -/
def unserved (status : HttpStatus) (text : Bytes) (request : HttpRequest M)
    (response : HttpResponse M) (s : ChainState) : ChainEnd M :=
  ⟨.ok false, request, (response.setStatus status).setBody text, s⟩

/-- The answer to a request that no route serves: it depends on the normal routes alone. -/
def refuse (routes : List (Route M)) (request : HttpRequest M) (response : HttpResponse M)
    (s : ChainState) : ChainEnd M :=
  if routes.any fun route ↦ !route.isStream && route.covers request then
    unserved .methodNotAllowed (ascii "Method Not Allowed") request response s
  else unserved .notFound (ascii "Not Found") request response s

section EndOfChain

variable {server : Server M} {route : Route M} {request : HttpRequest M} {s : ChainState}

/-- A stream route that serves the request takes it, if a slot is free. -/
theorem endOfChain_of_firstStream (response : HttpResponse M)
    (hfirst : Router.firstStream server.routes request = some route)
    (hfree : s.fetched.headD 0 < server.maxStreamingConnections) :
    server.endOfChain request response s = runRoute route request response s := by
  obtain ⟨streamHandler, htarget⟩ :=
    Route.exists_of_isStream (Router.isStream_of_firstStream hfirst)
  rw [endOfChain, Router.matchStream_of_firstStream hfirst htarget, runRoute, htarget]
  simp only [if_neg (Nat.not_le.2 hfree)]
  rcases runStream streamHandler (route.bindParams request) response { s with
    fetched := s.fetched.tail
    counterOps := s.counterOps ++ [.fetchAdd (s.fetched.headD 0)] } with ⟨e | -, s'⟩
  · rfl
  · rfl

/-- Without one, a normal route that serves the request takes it. -/
theorem endOfChain_of_firstNormal (response : HttpResponse M)
    (hnone : Router.firstStream server.routes request = none)
    (hfirst : Router.firstNormal server.routes request = some route) :
    server.endOfChain request response s = runRoute route request response s := by
  obtain ⟨handler, htarget⟩ :=
    Route.exists_of_not_isStream (Router.isStream_of_firstNormal hfirst)
  rw [endOfChain, Router.matchStream_of_none hnone, Router.dispatch,
    Router.dispatchFrom_of_firstNormal response _ hfirst htarget, runRoute, htarget]
  simp only
  rcases handler (route.bindParams request) response with ⟨e | -, response'⟩
  · rfl
  · rfl

/-- Without either, the request is refused. -/
theorem endOfChain_of_none (response : HttpResponse M)
    (hstream : Router.firstStream server.routes request = none)
    (hnormal : Router.firstNormal server.routes request = none) :
    server.endOfChain request response s = refuse server.routes request response s := by
  rw [endOfChain, Router.matchStream_of_none hstream, Router.dispatch,
    Router.dispatchFrom_of_none response _ hnormal, Bool.false_or, refuse]
  rcases server.routes.any fun route ↦ !route.isStream && route.covers request with - | -
  · rfl
  · rfl

end EndOfChain

/-- **First match wins, stream routes first.** For every route table and every request that reaches
the end of the chain with a slot free, the handler that runs is that of the first stream route that
serves the request, and without one that of the first normal route that does; without either no
handler runs. -/
theorem runChain_firstMatch (server : Server M) (request : HttpRequest M)
    (response : HttpResponse M) (s : ChainState)
    (hfree : s.fetched.headD 0 < server.maxStreamingConnections) :
    server.runChain [] request response s =
      match (Router.firstStream server.routes request).or
        (Router.firstNormal server.routes request) with
      | some route => runRoute route request response s
      | none => refuse server.routes request response s := by
  rw [runChain]
  rcases hstream : Router.firstStream server.routes request with - | route
  · rw [Option.none_or]
    rcases hnormal : Router.firstNormal server.routes request with - | route
    · exact endOfChain_of_none response hstream hnormal
    · exact endOfChain_of_firstNormal response hstream hnormal
  · exact endOfChain_of_firstStream response hstream hfree

/-- A handler that leaves a body. -/
def healthHandler : RouteHandler BytesMap := fun _ response ↦
  (.ok (), response.setBody (ascii "up"))

/-- A stream handler that sends nothing. -/
def idleStream : StreamHandler BytesMap := fun _ ↦ .done (.ok ())

/-- A normal route, then a stream route on a pattern that overlaps with it. -/
def overlappingRoutes : List (Route BytesMap) :=
  Router.stream (ascii "/:topic") idleStream (Router.get (ascii "/health") healthHandler [])

/-- A server with a route table and one slot for streams. -/
def routeServer (routes : List (Route BytesMap)) : Server BytesMap where
  routes := routes
  middleware := []
  caps := smallCaps
  maxStreamingConnections := 1
  maxStreamingConnections_pos := Nat.one_pos

/-- A request without headers and parameters. -/
def requestFor (method : HttpMethod) (path : Bytes) : HttpRequest BytesMap :=
  { HttpRequest.new with method := method, path := path }

/-- A connection at the end of the chain. -/
def waitingState : ChainState where
  connection := ⟨⟨some 3⟩⟩
  endpoint := { incoming := [], ending := .eof, sendResults := [], sent := [], closed := false }
  fetched := []
  counterOps := []

theorem runChain_firstMatch_overlappingRoutes :
    ((routeServer overlappingRoutes).runChain [] (requestFor .get (ascii "/health")) (.new .ok)
      waitingState).result = .ok true := by
  rw [runChain_firstMatch (routeServer overlappingRoutes) (requestFor .get (ascii "/health"))
    (.new .ok) waitingState Nat.one_pos]
  decide +kernel

/-- The first route that serves the request is not the one that runs. -/
theorem not_firstMatch_overlappingRoutes :
    ∃ route, overlappingRoutes.find? (fun r ↦ r.serves (requestFor .get (ascii "/health"))) =
        some route ∧
      (routeServer overlappingRoutes).runChain [] (requestFor .get (ascii "/health")) (.new .ok)
          waitingState ≠
        runRoute route (requestFor .get (ascii "/health")) (.new .ok) waitingState := by
  refine ⟨⟨.get, ascii "/health", .normal healthHandler⟩, ?_, fun h ↦ ?_⟩
  · exact List.find?_cons_of_pos (by decide +kernel)
  · exact absurd (congrArg ChainEnd.result h) (by decide +kernel)

/-! ### 404 and 405 -/

/-- The end of the chain runs no handler, because dispatching comes to `result`, and answers with
the given status and text. -/
structure Answers (server : Server M) (request : HttpRequest M) (response : HttpResponse M)
    (s : ChainState) (result : DispatchResult) (status : HttpStatus) (text : Bytes) : Prop where
  /-- No stream route takes the request. -/
  not_streamed : Router.matchStream request server.routes = none
  /-- What dispatching comes to. -/
  dispatched : (Router.dispatch server.routes request response).1 = .ok result
  /-- What is left for the caller to send. -/
  answer : server.runChain [] request response s = unserved status text request response s

/-- The end of the chain answers with a 404. -/
abbrev AnswersNotFound (server : Server M) (request : HttpRequest M) (response : HttpResponse M)
    (s : ChainState) : Prop :=
  server.Answers request response s .notFound .notFound (ascii "Not Found")

/-- The end of the chain answers with a 405. -/
abbrev AnswersMethodNotAllowed (server : Server M) (request : HttpRequest M)
    (response : HttpResponse M) (s : ChainState) : Prop :=
  server.Answers request response s .methodNotAllowed .methodNotAllowed
    (ascii "Method Not Allowed")

section Answers

variable {server : Server M} {request : HttpRequest M} {response : HttpResponse M}
  {s : ChainState} {result : DispatchResult} {status : HttpStatus} {text : Bytes}

/-- No route serves a request that is answered so, and the normal routes decide the rest. -/
theorem Answers.not_served (h : server.Answers request response s result status text)
    (hresult : result ≠ .matched) :
    Router.firstStream server.routes request = none ∧
      Router.firstNormal server.routes request = none ∧
      result = if server.routes.any fun route ↦ !route.isStream && route.covers request then
        .methodNotAllowed else .notFound := by
  have hstream : Router.firstStream server.routes request = none := by
    rcases hfirst : Router.firstStream server.routes request with - | route
    · rfl
    · obtain ⟨streamHandler, htarget⟩ :=
        Route.exists_of_isStream (Router.isStream_of_firstStream hfirst)
      exact absurd (h.not_streamed.symm.trans (Router.matchStream_of_firstStream hfirst htarget))
        (by simp)
  have hdispatched := h.dispatched
  rw [Router.dispatch] at hdispatched
  rcases hfirst : Router.firstNormal server.routes request with - | route
  · rw [Router.dispatchFrom_of_none response _ hfirst, Bool.false_or] at hdispatched
    exact ⟨hstream, rfl, (Except.ok.inj hdispatched).symm⟩
  · obtain ⟨handler, htarget⟩ :=
      Route.exists_of_not_isStream (Router.isStream_of_firstNormal hfirst)
    rw [Router.dispatchFrom_of_firstNormal response _ hfirst htarget] at hdispatched
    -- a handler that returns has matched, and one that throws has no result
    rcases hran : handler (route.bindParams request) response with ⟨e | u, response'⟩
    · rw [hran] at hdispatched
      exact absurd hdispatched (by simp [Except.map])
    · rw [hran] at hdispatched
      exact absurd (Except.ok.inj hdispatched).symm hresult

/-- Conversely, a request that no route serves is answered by what the normal routes decide. -/
theorem answers_of_not_served (server : Server M) (response : HttpResponse M) (s : ChainState)
    (hstream : Router.firstStream server.routes request = none)
    (hnormal : Router.firstNormal server.routes request = none) :
    if server.routes.any fun route ↦ !route.isStream && route.covers request then
      server.AnswersMethodNotAllowed request response s
    else server.AnswersNotFound request response s := by
  have hdispatch : (Router.dispatch server.routes request response).1 = _ :=
    congrArg Prod.fst (Router.dispatchFrom_of_none response false hnormal)
  have hanswer : server.runChain [] request response s =
      refuse server.routes request response s := endOfChain_of_none response hstream hnormal
  rw [refuse] at hanswer
  split
  · rename_i hcovered
    rw [if_pos hcovered] at hanswer
    rw [Bool.false_or, if_pos hcovered] at hdispatch
    exact ⟨Router.matchStream_of_none hstream, hdispatch, hanswer⟩
  · rename_i hcovered
    rw [if_neg hcovered] at hanswer
    rw [Bool.false_or, if_neg hcovered] at hdispatch
    exact ⟨Router.matchStream_of_none hstream, hdispatch, hanswer⟩

end Answers

/-- A 404 is answered exactly when no stream route serves the request and no normal route's pattern
matches the path. -/
theorem notFound_iff (server : Server M) (request : HttpRequest M) (response : HttpResponse M)
    (s : ChainState) : server.AnswersNotFound request response s ↔
      (∀ route ∈ server.routes, route.isStream = true → route.serves request = false) ∧
        ∀ route ∈ server.routes, route.isStream = false → route.covers request = false := by
  have hcovered := Router.any_normal_iff server.routes request
  constructor
  · intro h
    obtain ⟨hstream, -, hresult⟩ := h.not_served (by simp)
    refine ⟨Router.firstStream_eq_none_iff.1 hstream, fun route hroute hkind ↦ ?_⟩
    by_contra hcovers
    rw [if_pos (hcovered.2 ⟨route, hroute, hkind, by simpa using hcovers⟩)] at hresult
    cases hresult
  · rintro ⟨hstream, hnormal⟩
    have hnone : Router.firstNormal server.routes request = none :=
      Router.firstNormal_eq_none_iff.2 fun route hroute hkind ↦
        Route.not_serves_of_not_covers (hnormal route hroute hkind)
    have hanswers := answers_of_not_served server response s
      (Router.firstStream_eq_none_iff.2 hstream) hnone
    rwa [if_neg] at hanswers
    rw [hcovered]
    rintro ⟨route, hroute, hkind, hcovers⟩
    exact absurd ((hnormal route hroute hkind).symm.trans hcovers) Bool.false_ne_true

/-- A 405 is answered exactly when no route serves the request and some normal route's pattern
matches the path. -/
theorem methodNotAllowed_iff (server : Server M) (request : HttpRequest M)
    (response : HttpResponse M) (s : ChainState) :
    server.AnswersMethodNotAllowed request response s ↔
      (∀ route ∈ server.routes, route.serves request = false) ∧
        ∃ route ∈ server.routes, route.isStream = false ∧ route.covers request = true := by
  have hcovered := Router.any_normal_iff server.routes request
  have hserved : (∀ route ∈ server.routes, route.serves request = false) ↔
      Router.firstStream server.routes request = none ∧
        Router.firstNormal server.routes request = none := by
    rw [Router.firstStream_eq_none_iff, Router.firstNormal_eq_none_iff]
    refine ⟨fun h ↦ ⟨fun r hr _ ↦ h r hr, fun r hr _ ↦ h r hr⟩, fun h r hr ↦ ?_⟩
    rcases hkind : r.isStream with - | -
    · exact h.2 r hr hkind
    · exact h.1 r hr hkind
  rw [hserved, ← hcovered]
  constructor
  · intro h
    obtain ⟨hstream, hnormal, hresult⟩ := h.not_served (by simp)
    refine ⟨⟨hstream, hnormal⟩, ?_⟩
    by_contra hcovers
    rw [if_neg hcovers] at hresult
    cases hresult
  · rintro ⟨⟨hstream, hnormal⟩, hcovers⟩
    have hanswers := answers_of_not_served server response s hstream hnormal
    rwa [if_pos hcovers] at hanswers

/-- **404 and 405 are decided over the normal routes**, once no stream route takes the request. A
404 is answered exactly when no stream route serves the request and no normal route's pattern
matches the path; a 405 exactly when no route serves it and some normal route's pattern matches. -/
theorem answers_iff (server : Server M) (request : HttpRequest M) (response : HttpResponse M)
    (s : ChainState) :
    (server.AnswersNotFound request response s ↔
      (∀ route ∈ server.routes, route.isStream = true → route.serves request = false) ∧
        ∀ route ∈ server.routes, route.isStream = false → route.covers request = false) ∧
    (server.AnswersMethodNotAllowed request response s ↔
      (∀ route ∈ server.routes, route.serves request = false) ∧
        ∃ route ∈ server.routes, route.isStream = false ∧ route.covers request = true) :=
  ⟨notFound_iff server request response s, methodNotAllowed_iff server request response s⟩

/-- A table with a stream route only. -/
def streamRoutes : List (Route BytesMap) :=
  Router.stream (ascii "/events") idleStream []

/-- A path that a registered pattern matches, under another method only, is answered with a 404. -/
theorem answersNotFound_streamRoutes :
    (∃ route ∈ streamRoutes, route.covers (requestFor .post (ascii "/events")) = true) ∧
      (∀ route ∈ streamRoutes, route.serves (requestFor .post (ascii "/events")) = false) ∧
      (routeServer streamRoutes).AnswersNotFound (requestFor .post (ascii "/events")) (.new .ok)
        waitingState ∧
      ¬ (routeServer streamRoutes).AnswersMethodNotAllowed (requestFor .post (ascii "/events"))
        (.new .ok) waitingState := by
  have hserves : ∀ route ∈ streamRoutes,
      route.serves (requestFor .post (ascii "/events")) = false :=
    List.forall_mem_singleton.2 (by decide +kernel)
  have hanswers := answers_of_not_served (routeServer streamRoutes) (.new .ok) waitingState
    (Router.firstStream_eq_none_iff.2 fun route hroute _ ↦ hserves route hroute)
    (Router.firstNormal_eq_none_iff.2 fun route hroute _ ↦ hserves route hroute)
  rw [if_neg (by decide +kernel)] at hanswers
  refine ⟨⟨_, List.mem_singleton_self _, by decide +kernel⟩, hserves, hanswers, fun h ↦ ?_⟩
  exact absurd (Except.ok.inj (hanswers.dispatched.symm.trans h.dispatched)) nofun

end Server

end FalconHTTP
