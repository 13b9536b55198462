import FalconHTTP.Core.OneResponse
import FalconHTTP.Middleware.Recovery

/-!
# Middlewares that guard what is behind them

A middleware that does not call `next` keeps a request from everything registered after it. So a
middleware that calls `next` with requests of one kind only, a *guard*, keeps all other requests
away, whatever is registered before it and whatever that does: it may rewrite requests, call `next`
many times, or catch exceptions.

"Is never run on another request" is said without a trace of runs: what is behind the guard can be
replaced by anything that does the same on the requests of that kind, and the server does the same
on every connection (`handleConnection_guarded`). The middlewares behind the guard must not leave
that kind themselves, and binding path parameters must not lead out of it.
-/

namespace FalconHTTP

open FiniteMap

variable {M : Type} [FiniteMap M Bytes Bytes]

/-! ### Guards -/

/-- The middleware calls `next` with allowed requests only, whatever it is given. -/
def Guards (allowed : HttpRequest M → Prop) (m : MiddlewareFn M) : Prop :=
  ∀ request response, (m request response).CallsOnly fun call ↦ allowed call.1

/-- The middleware calls `next` with allowed requests only, when it is given one. -/
def StaysWithin (allowed : HttpRequest M → Prop) (m : MiddlewareFn M) : Prop :=
  ∀ request response, allowed request → (m request response).CallsOnly fun call ↦ allowed call.1

/-- Two middlewares that do the same on allowed requests, and stay within them. -/
structure SameWithin (allowed : HttpRequest M → Prop) (m m' : MiddlewareFn M) : Prop where
  /-- They stay within the allowed requests. -/
  within : StaysWithin allowed m
  /-- They do the same there. -/
  eq : ∀ request response, allowed request → m request response = m' request response

/-- Two handlers of one kind that do the same on allowed requests. -/
inductive RouteTarget.SameOn (allowed : HttpRequest M → Prop) :
    RouteTarget M → RouteTarget M → Prop
  /-- Handlers of normal routes. -/
  | normal {handler handler' : RouteHandler M}
      (h : ∀ request, allowed request → handler request = handler' request) :
      SameOn allowed (.normal handler) (.normal handler')
  /-- Handlers of stream routes. -/
  | stream {streamHandler streamHandler' : StreamHandler M}
      (h : ∀ request, allowed request → streamHandler request = streamHandler' request) :
      SameOn allowed (.stream streamHandler) (.stream streamHandler')

/-- Two routes for the same requests, with handlers that do the same on allowed ones. -/
structure Route.SameOn (allowed : HttpRequest M → Prop) (route route' : Route M) : Prop where
  /-- They are for the same method. -/
  method : route.method = route'.method
  /-- They have the same pattern. -/
  pattern : route.pattern = route'.pattern
  /-- Their handlers do the same on allowed requests. -/
  target : route.target.SameOn allowed route'.target

/-! ### The routes -/

section Routes

variable {allowed : HttpRequest M → Prop} {routes routes' : List (Route M)}
  {request : HttpRequest M}

/-- The stream that starts is the same. -/
theorem Router.matchStream_sameOn (hroutes : List.Forall₂ (Route.SameOn allowed) routes routes')
    (hbound : ∀ params, allowed (setPathParams request params)) :
    (matchStream request routes).map (fun found ↦ (found.1 found.2, found.2)) =
      (matchStream request routes').map fun found ↦ (found.1 found.2, found.2) := by
  induction hroutes with
  | nil => rfl
  | @cons route route' routes routes' hsame _ ih =>
    obtain ⟨method, pattern, target⟩ := route
    obtain ⟨method', pattern', target'⟩ := route'
    obtain ⟨rfl, rfl, htarget⟩ := hsame
    cases htarget with
    | normal h => exact ih
    | stream h =>
      rw [matchStream, matchStream]
      by_cases hmethod : method ≠ request.method
      · simp only [if_pos hmethod]
        exact ih
      · simp only [if_neg hmethod]
        rcases PathMatcher.match pattern request.path (FiniteMap.empty : M) with ⟨- | -, params⟩
        · exact ih
        · simp only [Option.map_some, h _ (hbound params)]

/-- What dispatching comes to is the same. -/
theorem Router.dispatchFrom_sameOn (hroutes : List.Forall₂ (Route.SameOn allowed) routes routes')
    (hbound : ∀ params, allowed (setPathParams request params)) (response : HttpResponse M)
    (pathMatchedOtherMethod : Bool) :
    dispatchFrom request response routes pathMatchedOtherMethod =
      dispatchFrom request response routes' pathMatchedOtherMethod := by
  induction hroutes generalizing pathMatchedOtherMethod with
  | nil => rfl
  | @cons route route' routes routes' hsame _ ih =>
    obtain ⟨method, pattern, target⟩ := route
    obtain ⟨method', pattern', target'⟩ := route'
    obtain ⟨rfl, rfl, htarget⟩ := hsame
    cases htarget with
    | stream h => exact ih _
    | normal h =>
      rw [dispatchFrom, dispatchFrom]
      simp only [ih, h _ (hbound _)]

end Routes

namespace Server

variable {server server' : Server M} {allowed : HttpRequest M → Prop}

/-! ### The chain behind a guard -/

/-- A middleware that stays within the allowed requests does not tell apart two chains that do the
same on them. -/
theorem runChain_cons_congr {m : MiddlewareFn M} {rest rest' : List (MiddlewareFn M)}
    (hrest : ∀ request, allowed request → ∀ response s,
      server.runChain rest request response s = server'.runChain rest' request response s)
    {request : HttpRequest M} {response : HttpResponse M}
    (hcalls : (m request response).CallsOnly fun call ↦ allowed call.1) (s : ChainState) :
    server.runChain (m :: rest) request response s =
      server'.runChain (m :: rest') request response s := by
  have hnext : ∀ (call : NextCall M) s, allowed call.1 →
      nextCall (server.runChain rest) call s = nextCall (server'.runChain rest') call s := by
    intro call s hallowed
    rw [nextCall, nextCall, hrest call.1 hallowed]
  rw [runChain, runChain, hcalls.run_congr hnext]

/-- **Behind the guard**: chains of middlewares that do the same on allowed requests. -/
theorem runChain_sameWithin {inner inner' : List (MiddlewareFn M)}
    (hinner : List.Forall₂ (SameWithin allowed) inner inner')
    (hend : ∀ request, allowed request → ∀ response s,
      server.endOfChain request response s = server'.endOfChain request response s) :
    ∀ request, allowed request → ∀ response s,
      server.runChain inner request response s = server'.runChain inner' request response s := by
  induction hinner with
  | nil => exact hend
  | cons hsame _ ih =>
    intro request hallowed response s
    rw [runChain_cons_congr ih (hsame.within request response hallowed) s]
    rw [runChain, runChain, hsame.eq request response hallowed]

/-- **In front of the guard** nothing is known of the requests, and nothing needs to be. -/
theorem runChain_append_congr {rest rest' : List (MiddlewareFn M)}
    (hrest : server.runChain rest = server'.runChain rest') (outer : List (MiddlewareFn M)) :
    server.runChain (outer ++ rest) = server'.runChain (outer ++ rest') := by
  induction outer with
  | nil => exact hrest
  | cons m outer ih =>
    funext request response s
    rw [List.cons_append, List.cons_append, runChain, runChain, ih]

/-- The end of the chain does the same on allowed requests. -/
theorem endOfChain_sameOn
    (hroutes : List.Forall₂ (Route.SameOn allowed) server.routes server'.routes)
    (hcap : server.maxStreamingConnections = server'.maxStreamingConnections)
    {request : HttpRequest M} (hbound : ∀ params, allowed (Router.setPathParams request params))
    (response : HttpResponse M) (s : ChainState) :
    server.endOfChain request response s = server'.endOfChain request response s := by
  have hstream := Router.matchStream_sameOn hroutes hbound
  have hdispatch : Router.dispatch server.routes request response =
      Router.dispatch server'.routes request response :=
    Router.dispatchFrom_sameOn hroutes hbound response false
  rw [endOfChain, endOfChain, hdispatch, hcap]
  rcases hfound : Router.matchStream request server.routes with - | ⟨streamHandler, request₁⟩
  · rw [hfound, Option.map_none, eq_comm, Option.map_eq_none_iff] at hstream
    rw [hstream]
  · rw [hfound, Option.map_some, eq_comm, Option.map_eq_some_iff] at hstream
    obtain ⟨⟨streamHandler', request₂⟩, hfound', hsame⟩ := hstream
    obtain ⟨hprogram, hrequest⟩ := Prod.mk.inj hsame
    obtain rfl : request₂ = request₁ := hrequest
    have hprogram' : streamHandler' request₂ = streamHandler request₂ := hprogram
    rw [hfound']
    simp only [runStream, hprogram']

/-- **A guard cannot be passed by.** Take two servers with the same caps and the same middlewares up
to a guard and the guard. Behind it, their middlewares and the handlers of their routes do the same
on the requests that the guard lets through, and anything on others. The middlewares behind the
guard stay within these requests (given one, they call `next` with such requests only), and binding
path parameters does not lead out of them. Then the servers do the same on every connection: the
bytes they write, the exceptions that leave them, and the streams they start and count. -/
theorem handleConnection_guarded (server server' : Server M) (outer : List (MiddlewareFn M))
    {guard : MiddlewareFn M} {inner inner' : List (MiddlewareFn M)} (hguard : Guards allowed guard)
    (hmiddleware : server.middleware = outer ++ guard :: inner)
    (hmiddleware' : server'.middleware = outer ++ guard :: inner')
    (hinner : List.Forall₂ (SameWithin allowed) inner inner')
    (hroutes : List.Forall₂ (Route.SameOn allowed) server.routes server'.routes)
    (hbound : ∀ request params, allowed request → allowed (Router.setPathParams request params))
    (hcaps : server.caps = server'.caps)
    (hcap : server.maxStreamingConnections = server'.maxStreamingConnections) (s : ChainState) :
    server.handleConnection s = server'.handleConnection s := by
  have hbehind := runChain_sameWithin hinner fun request hallowed ↦
    endOfChain_sameOn hroutes hcap fun params ↦ hbound request params hallowed
  have hguarded : server.runChain (guard :: inner) = server'.runChain (guard :: inner') := by
    funext request response s
    exact runChain_cons_congr hbehind (hguard request response) s
  refine handleConnection_congr ?_ hcaps s
  rw [hmiddleware, hmiddleware']
  exact runChain_append_congr hguarded outer

/-! ### A guard that asks for a key -/

/-- The request has a key. -/
def HasApiKey (request : HttpRequest M) : Prop :=
  request.hasHeader (ascii "X-Api-Key") = true

/-- A middleware that asks for a key, and marks the responses to requests that have one. -/
def requireApiKey : MiddlewareFn M := fun request response ↦
  if ¬ request.hasHeader (ascii "X-Api-Key") then
    .done (.ok (), request, (response.setStatus .unauthorized).setBody
      (ascii "Missing X-Api-Key header"))
  else
    .call (request, response) fun
      | (.ok (), request, response) =>
        .done (.ok (), request, response.setHeader (ascii "X-Api-Key-Checked") (ascii "true"))
      | r => .done r

theorem guards_requireApiKey : Guards HasApiKey (requireApiKey : MiddlewareFn M) := by
  intro request response
  rw [requireApiKey]
  split
  · trivial
  · rename_i hkey
    refine ⟨not_not.1 hkey, fun r ↦ ?_⟩
    obtain ⟨e | ⟨⟩, request', response'⟩ := r
    · trivial
    · trivial

/-- The path parameters are no headers. -/
theorem HasApiKey.setPathParams {request : HttpRequest M} (h : HasApiKey request) (params : M) :
    HasApiKey (Router.setPathParams request params) := by
  rw [Router.setPathParams]
  exact List.foldlRecOn (entries params) _ h fun request hrequest _ _ ↦ hrequest

/-- A server whose only route is behind that guard. -/
def keyServer (handler : RouteHandler BytesMap) : Server BytesMap where
  routes := [⟨.get, ascii "/admin/:id", .normal handler⟩]
  middleware := [recovery, requireApiKey]
  caps := smallCaps
  maxStreamingConnections := 1
  maxStreamingConnections_pos := Nat.one_pos

/-- A handler that serves everybody. -/
def trustingHandler : RouteHandler BytesMap := fun _ response ↦
  (.ok (), response.setBody (ascii "secret"))

/-- A handler that looks at the key again. -/
def carefulHandler : RouteHandler BytesMap := fun request response ↦
  if request.hasHeader (ascii "X-Api-Key") then trustingHandler request response
  else (.error .other, response)

/-- A connection that delivers a request without a key. -/
def keylessState : ChainState :=
  { tickState with endpoint := { tickState.endpoint with
      incoming := [⟨ascii "GET /admin/7 HTTP/1.1\r\n\r\n", by decide +kernel,
        by decide +kernel⟩] } }

theorem handleConnection_guarded_keylessState :
    (keyServer trustingHandler).handleConnection keylessState =
      (keyServer carefulHandler).handleConnection keylessState := by
  have hsame : ∀ request : HttpRequest BytesMap, HasApiKey request →
      trustingHandler request = carefulHandler request := fun request hkey ↦
    funext fun response ↦ (if_pos hkey).symm
  exact handleConnection_guarded (keyServer trustingHandler) (keyServer carefulHandler) [recovery]
    guards_requireApiKey rfl rfl .nil (.cons ⟨rfl, rfl, .normal hsame⟩ .nil)
    (fun _ params h ↦ h.setPathParams params) rfl rfl keylessState

end Server

end FalconHTTP
