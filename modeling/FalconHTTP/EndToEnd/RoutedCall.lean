import FalconHTTP.EndToEnd.Exchange
import FalconHTTP.Middleware.Cors
import FalconHTTP.Routing.Tables

/-!
# A call and the route that answers it

The client names a method and a path, the server a table of patterns and handlers. On a server
whose middlewares are logging and recovery only, this is all that decides what a call comes to
(`answer_of_outer`): the handler of the first normal route that serves the call runs on the call,
with the values that stand in the path for the parameters of the pattern, and the client gets what
it leaves (`exchange_routed`). Without such a route the client gets a 405 or a 404.
-/

namespace FalconHTTP

open FiniteMap HttpClient

variable {M : Type} [FiniteMap M Bytes Bytes]

namespace PathMatcher

/-- What a match means depends on the values alone. -/
theorem Sound.congr {pattern path : Bytes} {params params' : M} (h : Sound pattern path params)
    (hparams : ∀ name, find? params' name = find? params name) : Sound pattern path params' where
  length_eq := h.length_eq
  keys name := by rw [hparams, h.keys]
  slash_notMem name value hvalue := h.slash_notMem name value (hparams name ▸ hvalue)
  substitute_eq := by
    have hsubst : substitute pattern params' = substitute pattern params := by
      simp only [substitute, hparams]
    rw [hsubst, h.substitute_eq]

/-- On a path that starts with a slash, a match means what it should. -/
theorem sound_of_accepts {pattern path : Bytes} (hslash : pattern.head? = some 47)
    (hpath : path.head? = some 47) (hnames : (paramNames pattern).Nodup)
    (h : accepts pattern path = true) :
    Sound pattern path (PathMatcher.match pattern path (FiniteMap.empty : M)).2 := by
  obtain ⟨text, rfl⟩ := List.head?_eq_some_iff.1 hslash
  obtain ⟨rest, rfl⟩ := List.head?_eq_some_iff.1 hpath
  obtain ⟨p, ps, htext⟩ := List.exists_cons_of_ne_nil (List.splitOn_ne_nil 47 text)
  rw [accepts, match_cons htext, if_pos (Or.inr rfl), bindSegments_fst_iff] at h
  rw [match_cons htext, if_pos (Or.inr rfl)]
  exact sound_of_fits h hnames

end PathMatcher

namespace Server

variable {server : Server M} {outer : List Outer}

/-- What a handler leaves, once the middlewares and the server have dealt with an exception. -/
def handled (outer : List Outer) (ran : Except Exn Unit × HttpResponse M) : HttpResponse M :=
  match ran with
  | (.ok (), response) => response
  | (.error _, response) =>
    if .recovery ∈ outer then
      (response.setStatus .internalServerError).setBody (ascii "Internal Server Error")
    else internalServerError

/-- The answer to a request that no route serves. -/
def refusal (routes : List (Route M)) (request : HttpRequest M) : HttpResponse M :=
  if routes.any fun route ↦ !route.isStream && route.covers request then
    ((HttpResponse.new .ok).setStatus .methodNotAllowed).setBody (ascii "Method Not Allowed")
  else ((HttpResponse.new .ok).setStatus .notFound).setBody (ascii "Not Found")

/-- With logging and recovery only, the end of the chain makes the answer. -/
theorem answer_of_outer (hmiddleware : server.middleware = outer.map Outer.middleware)
    (request : HttpRequest M) :
    server.answer request = handled outer
      ((server.plainEnd request (.new .ok)).1, (server.plainEnd request (.new .ok)).2.2) := by
  have hend : server.plainChain [] request (.new .ok) = server.plainEnd request (.new .ok) := rfl
  rw [answer, hmiddleware, ← List.append_nil (outer.map Outer.middleware)]
  rcases hplain : server.plainEnd request (.new .ok) with ⟨e | ⟨⟩, request', response'⟩
  · rw [plainChain_outer_of_error outer (hend.trans hplain)]
    by_cases hrecovered : Outer.recovery ∈ outer
    · simp only [handled, if_pos hrecovered]
    · simp only [handled, if_neg hrecovered]
  · rw [plainChain_outer_of_ok outer (hend.trans hplain)]
    rfl

/-- The first route that serves the request makes the answer. -/
theorem answer_of_firstNormal (hmiddleware : server.middleware = outer.map Outer.middleware)
    {request : HttpRequest M} {route : Route M} {handler : RouteHandler M}
    (hfirst : Router.firstNormal server.routes request = some route)
    (htarget : route.target = .normal handler) :
    server.answer request = handled outer (handler (route.bindParams request) (.new .ok)) := by
  rw [answer_of_outer hmiddleware, plainEnd, Router.dispatch,
    Router.dispatchFrom_of_firstNormal _ _ hfirst htarget]
  rcases handler (route.bindParams request) (.new .ok) with ⟨e | ⟨⟩, response⟩
  · rfl
  · rfl

/-- Without one the request is refused. -/
theorem answer_of_none (hmiddleware : server.middleware = outer.map Outer.middleware)
    {request : HttpRequest M} (hnone : Router.firstNormal server.routes request = none) :
    server.answer request = refusal server.routes request := by
  rw [answer_of_outer hmiddleware, plainEnd, Router.dispatch,
    Router.dispatchFrom_of_none _ _ hnone, Bool.false_or, refusal]
  rcases server.routes.any fun route ↦ !route.isStream && route.covers request with - | -
  · rfl
  · rfl

end Server

/-! ### What the client gets -/

section Calls

variable {server : Server M} {options : ClientOptions} {call : Call M} {room : ℕ}
  {as : List (ExchangeAction (Chunk defaultReadChunk))} {s : ExchangePoint M}

/-- **A routed call** that fits. On a server whose middlewares are logging and recovery, in any
order: where neither side can go on and the connection did not break,

* if some normal route serves the call, the client has what the handler of the first such route
  leaves on the call with the path parameters set (or a 500 when it throws); and if the pattern and
  the path start with a slash and the names of the parameters are distinct, the parameters put into
  the pattern give the path that the client called;
* otherwise it has a 405 when the pattern of some normal route matches the path, and a 404 when
  none does. -/
theorem exchange_routed (outer : List Server.Outer)
    (hmiddleware : server.middleware = outer.map Server.Outer.middleware)
    (hfits : call.Fits server options) (hroom : 0 < room)
    (h : (exchange server options call.bytes room hroom).system.run as = some s)
    (hstuck : ∀ a, a.ofParty →
      (exchange server options call.bytes room hroom).system.step s a = none)
    (hbroken : s.broken = false) :
    (∀ route handler, Router.firstNormal server.routes call.request = some route →
      route.target = .normal handler →
        ∃ request', Router.BoundBy route call.request request' ∧
          (route.StartsWithSlash → call.path.head? = some 47 →
            (PathMatcher.paramNames route.pattern).Nodup →
            PathMatcher.Sound route.pattern call.path request'.pathParams) ∧
          s.result =
            some (some (receivedResponse (Server.handled outer (handler request' (.new .ok)))))) ∧
      (Router.firstNormal server.routes call.request = none →
        s.result =
          some (some (receivedResponse (Server.refusal server.routes call.request)))) := by
  have hanswer := ((Exchange.final_of_stuck (hfits.delimited room hroom) h hstuck).2 hbroken).2
  refine ⟨fun route handler hfirst htarget ↦ ?_, fun hnone ↦ ?_⟩
  · have hbound : Router.BoundBy route call.request (route.bindParams call.request) :=
      Router.boundBy_bindParams route find?_empty
    refine ⟨_, hbound, fun hslash hpath hnames ↦ ?_, ?_⟩
    · have hserves : route.serves call.request = true :=
        (Bool.and_eq_true_iff.1 (List.find?_some
          (p := fun r : Route M ↦ !r.isStream && r.serves call.request) hfirst)).2
      have haccepts : PathMatcher.accepts route.pattern call.path = true :=
        (Route.covers_eq route call.request).symm.trans (Route.serves_iff.1 hserves).2
      exact (PathMatcher.sound_of_accepts hslash hpath hnames haccepts).congr
        hbound.find?_pathParams
    · rw [hanswer, Server.answer_of_firstNormal hmiddleware hfirst htarget]
  · rw [hanswer, Server.answer_of_none hmiddleware hnone]

theorem exchange_routed_helloRun : ∃ s, helloExchange.system.run helloRun = some s ∧
    ∃ request', s.result = some (some (receivedResponse
      ((HttpResponse.new .ok : HttpResponse BytesMap).setBody (ascii "hi")))) ∧
      PathMatcher.Sound (ascii "/hello") (ascii "/hello")
        (HttpRequest.pathParams (M := BytesMap) request') := by
  obtain ⟨s, hs, hclient, hserver, hbroken, -⟩ := run_helloRun
  obtain ⟨hrouted, -⟩ := exchange_routed [.recovery] rfl helloCall_fits (by decide) hs
    (fun a hparty ↦ Exchange.step_of_final ⟨hclient, hserver⟩ hparty) hbroken
  obtain ⟨request', -, hsound, hresult⟩ := hrouted _ _
    (List.find?_cons_of_pos (by decide +kernel)) rfl
  exact ⟨s, hs, request', hresult, hsound rfl rfl (by decide +kernel)⟩

end Calls

end FalconHTTP
