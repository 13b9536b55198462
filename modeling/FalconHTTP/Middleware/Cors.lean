import FalconHTTP.Core.FirstMatch
import FalconHTTP.Middleware.Around

/-!
# The CORS middleware

`Cors` sets three headers on the response, answers a preflight (an `OPTIONS` request) with a 204
by itself, and goes on otherwise.

The headers are set before anything inside runs, and nothing takes them away
(`plainChain_response`). So they are on every answer that is made from this response, and missing
from the others: the 500 for an exception that leaves the chain, and the rejections of requests
that never entered it (`handleConnection_cors`). A preflight gets the same answer from every server
with the same size caps (`handleConnection_preflight`).
-/

namespace FalconHTTP

open FiniteMap

variable {M : Type} [FiniteMap M Bytes Bytes]

/-! ### The middleware -/

/-- The headers of the CORS middleware. -/
def accessControl (allowedOrigin : Bytes) : List (Bytes × Bytes) :=
  [(ascii "Access-Control-Allow-Origin", allowedOrigin),
    (ascii "Access-Control-Allow-Methods", ascii "GET, POST, PUT, DELETE, PATCH, OPTIONS"),
    (ascii "Access-Control-Allow-Headers", ascii "Content-Type, Authorization")]

/-- Set the headers. -/
def setCorsHeaders (allowedOrigin : Bytes) (response : HttpResponse M) : HttpResponse M :=
  (accessControl allowedOrigin).foldl (fun response e ↦ response.setHeader e.1 e.2) response

/-- The CORS middleware. -/
def cors (allowedOrigin : Bytes) : MiddlewareFn M := fun request response ↦
  let response := setCorsHeaders allowedOrigin response
  if request.method = .options then .done (.ok (), request, response.setStatus .noContent)
  else .call (request, response) .done

/-- The response has the headers. -/
def HasCors (allowedOrigin : Bytes) (response : HttpResponse M) : Prop :=
  ∀ e ∈ accessControl allowedOrigin, response.headers.find? e.1 = some e.2

theorem hasCors_setCorsHeaders (allowedOrigin : Bytes) (response : HttpResponse M) :
    HasCors allowedOrigin (setCorsHeaders allowedOrigin response) := by
  intro e he
  have hdistinct : (accessControl allowedOrigin).Pairwise fun d e ↦
      toLowerAscii d.1 ≠ toLowerAscii e.1 := by
    have hnames : ((accessControl []).map Prod.fst).Pairwise fun a b ↦
        toLowerAscii a ≠ toLowerAscii b := by decide +kernel
    exact (List.pairwise_map (f := Prod.fst)).1
      (show ((accessControl allowedOrigin).map Prod.fst).Pairwise _ from hnames)
  have hset : (setCorsHeaders allowedOrigin response).headers =
      response.headers.setHeaders (accessControl allowedOrigin) := rfl
  rw [hset]
  exact HeaderMap.find?_setHeaders_of_mem hdistinct _ he rfl

/-- Status and body do not matter. -/
theorem HasCors.congr {allowedOrigin : Bytes} {response response' : HttpResponse M}
    (h : HasCors allowedOrigin response) (hheaders : response'.headers = response.headers) :
    HasCors allowedOrigin response' := by
  rw [HasCors, hheaders]
  exact h

/-- A response without headers does not have them. -/
theorem not_hasCors_of_empty {allowedOrigin : Bytes} {response : HttpResponse M}
    (h : response.headers = .empty) : ¬ HasCors allowedOrigin response := by
  intro hcors
  have horigin := hcors _ List.mem_cons_self
  rw [h, HeaderMap.find?_empty] at horigin
  cases horigin

/-! ### What a chain keeps of a response -/

namespace Server

variable {server : Server M}

/-- A middleware that keeps a property of the response, as long as what it calls does. -/
def Keeps (I : HttpResponse M → Prop) (m : MiddlewareFn M) : Prop :=
  ∀ request response, I response →
    (m request response).Ensures (fun call r ↦ I call.2 → I r.2.2) fun r ↦ I r.2.2

/-- The routes keep a property of the response. -/
def RoutesKeep (server : Server M) (I : HttpResponse M → Prop) : Prop :=
  ∀ route ∈ server.routes, ∀ handler, route.target = .normal handler →
    ∀ request response, I response → I (handler request response).2

/-- What the handlers keep, dispatching keeps. -/
theorem dispatch_response {I : HttpResponse M → Prop} (hroutes : server.RoutesKeep I)
    (request : HttpRequest M) {response : HttpResponse M} (h : I response) :
    I (Router.dispatch server.routes request response).2.2 := by
  rw [Router.dispatch]
  rcases hfirst : Router.firstNormal server.routes request with - | route
  · rw [Router.dispatchFrom_of_none response false hfirst]
    exact h
  · obtain ⟨handler, htarget⟩ :=
      Route.exists_of_not_isStream (Router.isStream_of_firstNormal hfirst)
    rw [Router.dispatchFrom_of_firstNormal response false hfirst htarget]
    exact hroutes route (List.mem_of_find?_eq_some hfirst) handler htarget _ response h

/-- **What the middlewares and the handlers keep, the chain keeps**, also when it throws. -/
theorem plainChain_response {I : HttpResponse M → Prop} (hroutes : server.RoutesKeep I)
    (hanswer : ∀ response status body, I response → I ((response.setStatus status).setBody body))
    {middlewares : List (MiddlewareFn M)} (hkeep : ∀ m ∈ middlewares, Keeps I m)
    (request : HttpRequest M) {response : HttpResponse M} (h : I response) :
    I (server.plainChain middlewares request response).2.2 := by
  induction middlewares generalizing request response with
  | nil =>
    have hdispatch := dispatch_response hroutes request h
    rw [plainChain, plainEnd]
    generalize Router.dispatch server.routes request response = left at hdispatch ⊢
    rcases left with ⟨e | result, request', response'⟩
    · exact hdispatch
    · cases result with
      | matched => exact hdispatch
      | notFound => exact hanswer _ _ _ hdispatch
      | methodNotAllowed => exact hanswer _ _ _ hdispatch
  | cons middleware rest ih =>
    refine (hkeep middleware List.mem_cons_self request response h).run fun call _ hcall ↦ ?_
    exact ih (fun m hm ↦ hkeep m (List.mem_cons_of_mem _ hm)) call.1 hcall

/-! ### The CORS middleware in a chain -/

/-- A preflight stops at the CORS middleware. -/
theorem plainChain_cors_of_options {allowedOrigin : Bytes} (rest : List (MiddlewareFn M))
    {request : HttpRequest M} (hoptions : request.method = .options)
    (response : HttpResponse M) :
    server.plainChain (cors allowedOrigin :: rest) request response =
      (.ok (), request, (setCorsHeaders allowedOrigin response).setStatus .noContent) := by
  rw [plainChain, cors]
  simp only [if_pos hoptions, Interaction.run_done]

/-- Other requests go on with the headers set. -/
theorem plainChain_cors_of_ne {allowedOrigin : Bytes} (rest : List (MiddlewareFn M))
    {request : HttpRequest M} (hoptions : request.method ≠ .options)
    (response : HttpResponse M) :
    server.plainChain (cors allowedOrigin :: rest) request response =
      server.plainChain rest request (setCorsHeaders allowedOrigin response) := by
  rw [plainChain, cors]
  simp only [if_neg hoptions, Interaction.run_call, Interaction.run_done]

/-- Other requests are passed on with the headers set. -/
theorem passesOn_cors {request : HttpRequest M} (hoptions : request.method ≠ .options)
    (allowedOrigin : Bytes) :
    PassesOn request (cors allowedOrigin) (accessControl allowedOrigin) := by
  intro response
  refine ⟨id, ?_⟩
  rw [cors]
  exact if_neg hoptions

/-! ### Which answers have the headers -/

/-- A request is answered by the chain that the CORS middleware is in: it is a preflight, or the
rest of the chain returns, or an exception of the rest is recovered from. -/
def CorsReaches (server : Server M) (allowedOrigin : Bytes) (outer : List Outer)
    (rest : List (MiddlewareFn M)) (request : HttpRequest M) : Prop :=
  request.method = .options ∨ .recovery ∈ outer ∨
    (server.plainChain rest request (setCorsHeaders allowedOrigin (.new .ok))).1 = .ok ()

section Answers

variable {allowedOrigin : Bytes} {outer : List Outer} {rest : List (MiddlewareFn M)}

/-- **An answer has the headers when the chain made it.** -/
theorem hasCors_answer_iff
    (hmiddleware : server.middleware = outer.map Outer.middleware ++ cors allowedOrigin :: rest)
    (hrest : ∀ m ∈ rest, Keeps (HasCors allowedOrigin) m)
    (hroutes : server.RoutesKeep (HasCors allowedOrigin)) (request : HttpRequest M) :
    HasCors allowedOrigin (server.answer request) ↔
      server.CorsReaches allowedOrigin outer rest request := by
  rw [answer, hmiddleware, CorsReaches]
  by_cases hoptions : request.method = .options
  · rw [plainChain_outer_of_ok outer (plainChain_cors_of_options rest hoptions (.new .ok))]
    exact iff_of_true ((hasCors_setCorsHeaders allowedOrigin _).congr rfl) (Or.inl hoptions)
  · have hkept := plainChain_response hroutes (fun _ _ _ h ↦ h.congr rfl) hrest request
      (hasCors_setCorsHeaders allowedOrigin (.new .ok))
    have hcors : server.plainChain (cors allowedOrigin :: rest) request (.new .ok) =
        server.plainChain rest request (setCorsHeaders allowedOrigin (.new .ok)) :=
      plainChain_cors_of_ne rest hoptions (.new .ok)
    generalize server.plainChain rest request (setCorsHeaders allowedOrigin (.new .ok)) = left
      at hkept hcors ⊢
    rcases left with ⟨e | ⟨⟩, request', response'⟩
    · rw [plainChain_outer_of_error outer hcors]
      by_cases hrecovered : Outer.recovery ∈ outer
      · rw [if_pos hrecovered]
        exact iff_of_true (hkept.congr rfl) (Or.inr (Or.inl hrecovered))
      · rw [if_neg hrecovered]
        refine iff_of_false (not_hasCors_of_empty rfl) ?_
        rintro (h | h | h)
        · exact hoptions h
        · exact hrecovered h
        · cases h
    · rw [plainChain_outer_of_ok outer hcors]
      exact iff_of_true hkept (Or.inr (Or.inr rfl))

/-- A rejection has no headers of its own. -/
theorem headers_of_rejected {caps : SizeCaps} {chunks : Chunks} {response : HttpResponse M}
    (h : (readRequest caps chunks).1 = .rejected response) : response.headers = .empty := by
  have hbody : ∀ raw headerEnd chunks,
      (readBody caps raw headerEnd chunks).1 = .rejected response → response.headers = .empty := by
    intro raw headerEnd chunks hread
    rw [readBody] at hread
    split at hread
    · obtain rfl := ReadOutcome.rejected.inj hread
      rfl
    · split at hread
      · obtain rfl := ReadOutcome.rejected.inj hread
        rfl
      · simp only at hread
        split at hread
        · cases hread
        · split at hread
          · obtain rfl := ReadOutcome.rejected.inj hread
            rfl
          · cases hread
  rw [readRequest.eq_def] at h
  split at h
  · cases h
  · split at h
    · obtain rfl := ReadOutcome.rejected.inj h
      rfl
    · cases h
    · exact hbody _ _ _ h

/-- **Which responses have the CORS headers.** On a server without stream routes, with the CORS
middleware behind logging and recovery only, and with nothing inside that takes the three headers
away or sets them to anything else: on a fresh connection whose socket accepts writes, what is
written is one response, if anything is, and it has the headers exactly when the request was read
and was answered by the chain. So they are on every 404 and 405, on the answer to a preflight and on
a 500 that `Recovery` made, and missing from the 500 for an exception that left the chain and from a
400, 413 or 431 for a request that was rejected. -/
theorem handleConnection_cors (allowedOrigin : Bytes) (outer : List Outer)
    (rest : List (MiddlewareFn M)) (hno : server.NoStreams) (hstd : server.ThrowsStd)
    (hmiddleware : server.middleware = outer.map Outer.middleware ++ cors allowedOrigin :: rest)
    (hrest : ∀ m ∈ rest, Keeps (HasCors allowedOrigin) m)
    (hroutes : server.RoutesKeep (HasCors allowedOrigin)) (s : ChainState) (hfresh : Untouched s) :
    (server.handleConnection s).1 = none ∧
      (server.handleConnection s).2.endpoint.closed = true ∧
      ((readRequest server.caps s.endpoint.incoming (M := M)).1 = .closed ∧
          (server.handleConnection s).2.endpoint.sent = [] ∨
        ∃ response : HttpResponse M,
          (server.handleConnection s).2.endpoint.sent = HttpSerializer.serialize response ∧
          (HasCors allowedOrigin response ↔ ∃ request : HttpRequest M,
            (readRequest server.caps s.endpoint.incoming).1 = .request request ∧
              server.CorsReaches allowedOrigin outer rest request)) := by
  rcases hread : (readRequest server.caps s.endpoint.incoming (M := M)).1 with
    request | response | -
  all_goals
    obtain ⟨hescaped, hclosed, accepted, hsent, -, hall⟩ :=
      handleConnection_of_outcome hno hstd hfresh.isOpen hread
    rw [hfresh.sent_eq, List.nil_append, hall hfresh.accepts] at hsent
    refine ⟨hescaped, hclosed, ?_⟩
  · refine Or.inr ⟨server.answer request, hsent, ?_⟩
    rw [hasCors_answer_iff hmiddleware hrest hroutes]
    constructor
    · exact fun hreaches ↦ ⟨request, rfl, hreaches⟩
    · rintro ⟨request', heq, hreaches⟩
      obtain rfl := ReadOutcome.request.inj heq
      exact hreaches
  · refine Or.inr ⟨response, hsent, iff_of_false ?_ ?_⟩
    · exact not_hasCors_of_empty (headers_of_rejected hread)
    · rintro ⟨request, heq, -⟩
      cases heq
  · exact Or.inl ⟨rfl, hsent⟩

end Answers

/-- A server whose handler throws, behind logging and the CORS middleware. -/
def failingServer : Server BytesMap where
  routes := [⟨.get, ascii "/fail", .normal fun _ response ↦ (.error (.std (ascii "no")), response)⟩]
  middleware := [logger, cors (ascii "*")]
  caps := smallCaps
  maxStreamingConnections := 1
  maxStreamingConnections_pos := Nat.one_pos

/-- A connection on which its route is asked for. -/
def failingState : ChainState :=
  { tickState with endpoint := { tickState.endpoint with
      incoming := [⟨ascii "GET /fail HTTP/1.1\r\n\r\n", by decide +kernel, by decide +kernel⟩] } }

theorem failingServer_noStreams : failingServer.NoStreams := by
  intro route hroute
  obtain rfl := List.mem_singleton.1 hroute
  exact ⟨_, rfl⟩

theorem failingServer_throwsStd : failingServer.ThrowsStd where
  middleware m hm request response := by
    rcases List.mem_pair.1 hm with rfl | rfl
    · exact fun r hr ↦ hr
    · rw [cors]
      by_cases hoptions : request.method = .options
      · rw [if_pos hoptions]
        exact onlyStd_ok ()
      · rw [if_neg hoptions]
        exact fun r hr ↦ hr
  normal route hroute handler htarget request response e he := by
    obtain rfl := List.mem_singleton.1 hroute
    obtain rfl := RouteTarget.normal.inj htarget
    obtain rfl := Except.error.inj he
    rfl
  stream route hroute streamHandler htarget request := by
    obtain rfl := List.mem_singleton.1 hroute
    exact absurd htarget (by simp)

theorem failingServer_routesKeep : failingServer.RoutesKeep (HasCors (ascii "*")) := by
  intro route hroute handler htarget request response h
  obtain rfl := List.mem_singleton.1 hroute
  obtain rfl := RouteTarget.normal.inj htarget
  exact h

/-- The 500 of the `catch` block has no CORS headers. -/
theorem handleConnection_cors_failingState :
    ∃ response : HttpResponse BytesMap,
      (failingServer.handleConnection failingState).2.endpoint.sent =
          HttpSerializer.serialize response ∧
        ¬ HasCors (ascii "*") response := by
  have hrequest : (readRequest failingServer.caps failingState.endpoint.incoming).1.request?.map
      (fun request : HttpRequest BytesMap ↦ (request.method,
        (failingServer.plainChain [] request (setCorsHeaders (ascii "*") (.new .ok))).1.isOk)) =
      some (.get, false) := by decide +kernel
  obtain ⟨-, -, ⟨hclosed, -⟩ | ⟨response, hsent, hcors⟩⟩ := handleConnection_cors (ascii "*")
    [.logger] [] failingServer_noStreams failingServer_throwsStd rfl
    (fun m hm ↦ absurd hm List.not_mem_nil) failingServer_routesKeep failingState
    ⟨rfl, by decide, rfl, rfl⟩
  · rw [hclosed] at hrequest
    cases hrequest
  · refine ⟨response, hsent, fun h ↦ ?_⟩
    obtain ⟨request, hread, hreaches⟩ := hcors.1 h
    rw [hread] at hrequest
    obtain ⟨hmethod, hthrows⟩ := Prod.mk.inj (Option.some.inj hrequest)
    rcases hreaches with hoptions | hrecovered | hreturns
    · exact HttpMethod.noConfusion (hmethod.symm.trans hoptions)
    · exact absurd hrecovered (by decide)
    · rw [hreturns] at hthrows
      cases hthrows

/-! ### Preflights -/

/-- The answer to a preflight. -/
def preflight (allowedOrigin : Bytes) : HttpResponse M :=
  (setCorsHeaders allowedOrigin (.new .ok)).setStatus .noContent

/-- **A preflight is answered by the CORS middleware alone.** On any server that has it behind
logging and recovery, with stream routes or without: an `OPTIONS` request that is read is answered
with the same 204, whatever the routes and the middlewares inside are; none of them runs, no stream
starts, and the counter of streams is left alone. -/
theorem handleConnection_preflight {allowedOrigin : Bytes} (outer : List Outer)
    {rest : List (MiddlewareFn M)}
    (hmiddleware : server.middleware = outer.map Outer.middleware ++ cors allowedOrigin :: rest)
    {s : ChainState} (hopen : s.connection.isOpen) {request : HttpRequest M}
    (hread : (readRequest server.caps s.endpoint.incoming).1 = .request request)
    (hoptions : request.method = .options) :
    server.handleConnection s =
        (none, closeConnection
          (sendResponse (preflight allowedOrigin : HttpResponse M) (afterRead server s))) ∧
      (server.handleConnection s).2.counterOps = s.counterOps ∧
      (server.handleConnection s).2.fetched = s.fetched := by
  have hcors : server.runChain (cors allowedOrigin :: rest) request (.new .ok)
      (afterRead server s) = ⟨.ok false, request, preflight allowedOrigin, afterRead server s⟩ := by
    rw [runChain, cors]
    simp only [if_pos hoptions, Interaction.run_done]
    rfl
  have hhandle : server.handleConnection s = (none, closeConnection
      (sendResponse (preflight allowedOrigin : HttpResponse M) (afterRead server s))) := by
    rw [handleConnection_of_isOpen hopen hread, settle, respond, hmiddleware,
      runChain_outer_of_ok outer hcors]
    exact congrArg _ (closeConnection_closeConnection hopen)
  have hclose := closeConnection_of_isOpen (s := sendResponse
    (preflight allowedOrigin : HttpResponse M) (afterRead server s)) hopen
  rw [hhandle, hclose]
  exact ⟨rfl, rfl, rfl⟩

/-- A preflight for the failing route. -/
def preflightState : ChainState :=
  { failingState with endpoint := { failingState.endpoint with
      incoming := [⟨ascii "OPTIONS /fail HTTP/1.1\r\n\r\n", by decide +kernel,
        by decide +kernel⟩] } }

theorem handleConnection_preflight_preflightState :
    failingServer.handleConnection preflightState =
      (none, closeConnection (sendResponse (preflight (ascii "*") : HttpResponse BytesMap)
        (afterRead failingServer preflightState))) := by
  have hoptions : (readRequest failingServer.caps preflightState.endpoint.incoming).1.request?.map
      (fun request : HttpRequest BytesMap ↦ request.method) = some .options := by decide +kernel
  rcases hread : (readRequest failingServer.caps preflightState.endpoint.incoming
    (M := BytesMap)).1 with request | response | -
  · rw [hread] at hoptions
    exact (handleConnection_preflight [.logger] rfl rfl hread (Option.some.inj hoptions)).1
  · rw [hread] at hoptions
    cases hoptions
  · rw [hread] at hoptions
    cases hoptions

end Server

end FalconHTTP
