import FalconHTTP.Foundation.Interaction
import FalconHTTP.Routing.Router

/-!
# What a scan of the routes finds

`dispatch` and `matchStream` each look for the first route of their kind that serves a request, one
whose method is the request's and whose pattern matches the path.

Which handlers are called, and how often, shows in the scan as a program (`dispatchCalls`): its
calls are the handlers', and answered by the handlers it is `dispatch` (`run_dispatchCallsFrom`). A
match that fails leaves bindings behind, in a map that the program carries from route to route; it
is cleared before each match, so that nothing depends on what was left.
-/

namespace FalconHTTP

open FiniteMap

variable {M : Type} [FiniteMap M Bytes Bytes]

/-! ### Routes that match -/

namespace Route

/-- A stream route. -/
def isStream (route : Route M) : Bool :=
  match route.target with
  | .normal _ => false
  | .stream _ => true

/-- The pattern matches the request's path. -/
def covers (route : Route M) (request : HttpRequest M) : Bool :=
  (PathMatcher.match route.pattern request.path (FiniteMap.empty : M)).1

/-- The route is registered for the request's method, and its pattern matches the path. -/
def serves (route : Route M) (request : HttpRequest M) : Bool :=
  route.method = request.method && route.covers request

/-- The request with the parameters of the match. -/
def bindParams (route : Route M) (request : HttpRequest M) : HttpRequest M :=
  Router.setPathParams request
    (PathMatcher.match route.pattern request.path (FiniteMap.empty : M)).2

variable {route : Route M} {request : HttpRequest M}

theorem isStream_of_normal {handler : RouteHandler M} (h : route.target = .normal handler) :
    route.isStream = false := by
  rw [isStream, h]

theorem isStream_of_stream {streamHandler : StreamHandler M}
    (h : route.target = .stream streamHandler) : route.isStream = true := by
  rw [isStream, h]

theorem exists_of_isStream (h : route.isStream = true) :
    ∃ streamHandler, route.target = .stream streamHandler := by
  rw [isStream] at h
  split at h
  · exact absurd h Bool.false_ne_true
  · exact ⟨_, ‹_›⟩

theorem exists_of_not_isStream (h : route.isStream = false) :
    ∃ handler, route.target = .normal handler := by
  rw [isStream] at h
  split at h
  · exact ⟨_, ‹_›⟩
  · exact absurd h.symm Bool.false_ne_true

theorem serves_of_eq (h : route.method = request.method) :
    route.serves request = route.covers request := by
  rw [serves, decide_eq_true h, Bool.true_and]

theorem serves_iff : route.serves request = true ↔
    route.method = request.method ∧ route.covers request = true := by
  rw [serves, Bool.and_eq_true_iff, decide_eq_true_iff]

theorem not_serves_of_not_covers (h : route.covers request = false) :
    route.serves request = false := by
  rw [serves, h, Bool.and_false]

end Route

/-! ### The scan of `dispatch` as a program -/

/-- A call of a route handler: the handler, and the request and the response it is given. -/
abbrev HandlerCall (M : Type) [FiniteMap M Bytes Bytes] :=
  RouteHandler M × HttpRequest M × HttpResponse M

/-- What a call of a route handler leaves behind. -/
abbrev HandlerResult (M : Type) [FiniteMap M Bytes Bytes] :=
  Except Exn Unit × HttpResponse M

/-- Dispatching, as a program that calls handlers. -/
abbrev DispatchProgram (M : Type) [FiniteMap M Bytes Bytes] :=
  Interaction (HandlerCall M) (fun _ ↦ HandlerResult M)
    (Except Exn DispatchResult × HttpRequest M × HttpResponse M)

namespace Router

/-- `params.clear()`. -/
def clear (_ : M) : M :=
  FiniteMap.empty

theorem clear_eq (params : M) : clear params = FiniteMap.empty := rfl

/-- The scan of `dispatch` over the routes that are left, with the map of parameters that the routes
before have left behind, and with its calls left open. -/
def dispatchCallsFrom (request : HttpRequest M) (response : HttpResponse M) :
    List (Route M) → M → Bool → DispatchProgram M
  | [], _, pathMatchedOtherMethod =>
    .done (.ok (if pathMatchedOtherMethod then .methodNotAllowed else .notFound), request, response)
  | route :: routes, params, pathMatchedOtherMethod =>
    match route.target with
    | .stream _ => dispatchCallsFrom request response routes params pathMatchedOtherMethod
    | .normal handler =>
      if route.method ≠ request.method then
        -- the bindings go to a map of their own, which is dropped
        let (found, _) := PathMatcher.match route.pattern request.path (FiniteMap.empty : M)
        dispatchCallsFrom request response routes params (pathMatchedOtherMethod || found)
      else
        let (found, params) := PathMatcher.match route.pattern request.path (clear params)
        if found then
          let request := setPathParams request params
          .call (handler, request, response) fun ran ↦
            match ran with
            | (.ok (), response) => .done (.ok .matched, request, response)
            | (.error e, response) => .done (.error e, request, response)
        else dispatchCallsFrom request response routes params pathMatchedOtherMethod

/-- `dispatch` with its calls left open. -/
def dispatchCalls (routes : List (Route M)) (request : HttpRequest M) (response : HttpResponse M) :
    DispatchProgram M :=
  dispatchCallsFrom request response routes FiniteMap.empty false

/-- A call is answered by the handler that it names. -/
def callHandler (call : HandlerCall M) (s : Unit) : HandlerResult M × Unit :=
  (call.1 call.2.1 call.2.2, s)

end Router

/-! ### The two scans -/

namespace Router

/-- The first stream route that serves a request. -/
def firstStream (routes : List (Route M)) (request : HttpRequest M) : Option (Route M) :=
  routes.find? fun route ↦ route.isStream && route.serves request

/-- The first normal route that serves a request. -/
def firstNormal (routes : List (Route M)) (request : HttpRequest M) : Option (Route M) :=
  routes.find? fun route ↦ !route.isStream && route.serves request

section Scans

variable {route : Route M} {routes : List (Route M)} {request : HttpRequest M}

theorem isStream_of_firstStream (h : firstStream routes request = some route) :
    route.isStream = true := by
  have hfound := List.find?_some (p := fun r : Route M ↦ r.isStream && r.serves request) h
  exact (Bool.and_eq_true_iff.1 hfound).1

theorem isStream_of_firstNormal (h : firstNormal routes request = some route) :
    route.isStream = false := by
  have hfound := List.find?_some (p := fun r : Route M ↦ !r.isStream && r.serves request) h
  simpa using (Bool.and_eq_true_iff.1 hfound).1

theorem firstStream_eq_none_iff : firstStream routes request = none ↔
    ∀ route ∈ routes, route.isStream = true → route.serves request = false := by
  simp [firstStream, List.find?_eq_none]

theorem firstNormal_eq_none_iff : firstNormal routes request = none ↔
    ∀ route ∈ routes, route.isStream = false → route.serves request = false := by
  simp [firstNormal, List.find?_eq_none]

theorem any_normal_iff (routes : List (Route M)) (request : HttpRequest M) :
    (routes.any fun route ↦ !route.isStream && route.covers request) = true ↔
      ∃ route ∈ routes, route.isStream = false ∧ route.covers request = true := by
  simp [List.any_eq_true]

/-- One turn of `matchStream` on a route that it passes over. -/
theorem matchStream_cons_of_not (h : (route.isStream && route.serves request) = false) :
    matchStream request (route :: routes) = matchStream request routes := by
  rw [matchStream]
  split
  · rfl
  · rename_i streamHandler htarget
    rw [Route.isStream_of_stream htarget, Bool.true_and] at h
    split
    · rfl
    · rename_i hmethod
      rw [Route.serves_of_eq (not_not.1 hmethod), Route.covers] at h
      split
      · rename_i hmatch
        exact absurd (h.symm.trans (congrArg Prod.fst hmatch)) Bool.false_ne_true
      · rfl

/-- One turn of `matchStream` on a route that it finds. -/
theorem matchStream_cons_of_serves {streamHandler : StreamHandler M}
    (htarget : route.target = .stream streamHandler) (h : route.serves request = true) :
    matchStream request (route :: routes) = some (streamHandler, route.bindParams request) := by
  obtain ⟨hmethod, hcovers⟩ := Route.serves_iff.1 h
  rw [matchStream, htarget]
  simp only [hmethod, ne_eq, not_true_eq_false, if_false]
  split
  · rename_i params hmatch
    rw [Route.bindParams, hmatch]
  · rename_i params hmatch
    exact absurd ((congrArg Prod.fst hmatch).symm.trans hcovers) Bool.false_ne_true

/-- **`matchStream` finds the first stream route that serves the request**. -/
theorem matchStream_of_firstStream {streamHandler : StreamHandler M}
    (hfirst : firstStream routes request = some route)
    (htarget : route.target = .stream streamHandler) :
    matchStream request routes = some (streamHandler, route.bindParams request) := by
  induction routes with
  | nil => exact absurd hfirst (by simp [firstStream])
  | cons r routes ih =>
    rw [firstStream, List.find?_cons] at hfirst
    split at hfirst
    · rename_i hserves
      obtain rfl := Option.some.inj hfirst
      exact matchStream_cons_of_serves htarget (Bool.and_eq_true_iff.1 hserves).2
    · rename_i hserves
      rw [matchStream_cons_of_not hserves]
      exact ih hfirst

theorem matchStream_of_none (hnone : firstStream routes request = none) :
    matchStream request routes = none := by
  induction routes with
  | nil => rfl
  | cons r routes ih =>
    rw [firstStream, List.find?_cons] at hnone
    split at hnone
    · exact absurd hnone (by simp)
    · rename_i hserves
      rw [matchStream_cons_of_not hserves]
      exact ih hnone

/-- One turn of `dispatch` on a route that it passes over: the map of parameters may be left with
bindings. -/
theorem dispatchCallsFrom_cons_of_not (response : HttpResponse M) (params : M)
    (pathMatchedOtherMethod : Bool) (h : (!route.isStream && route.serves request) = false) :
    ∃ left, dispatchCallsFrom request response (route :: routes) params pathMatchedOtherMethod =
      dispatchCallsFrom request response routes left
        (pathMatchedOtherMethod || (!route.isStream && route.covers request)) := by
  rw [dispatchCallsFrom]
  split
  · rename_i streamHandler htarget
    rw [Route.isStream_of_stream htarget, Bool.not_true, Bool.false_and, Bool.or_false]
    exact ⟨params, rfl⟩
  · rename_i handler htarget
    rw [Route.isStream_of_normal htarget, Bool.not_false, Bool.true_and] at h
    rw [Route.isStream_of_normal htarget, Bool.not_false, Bool.true_and]
    split
    · exact ⟨params, rfl⟩
    · rename_i hmethod
      -- a route for the request's own method that does not serve it leaves the flag alone
      have hcovers : route.covers request = false := by
        rw [← Route.serves_of_eq (not_not.1 hmethod), h]
      rw [hcovers, Bool.or_false]
      exact ⟨_, if_neg (ne_true_of_eq_false hcovers)⟩

/-- The one call of a handler, and what dispatching returns then. -/
def callOnce (handler : RouteHandler M) (request : HttpRequest M) (response : HttpResponse M) :
    DispatchProgram M :=
  .call (handler, request, response) fun ran ↦
    .done (ran.1.map fun _ ↦ .matched, request, ran.2)

/-- One turn of `dispatch` on a route whose handler it calls: what was left in the map of parameters
is cleared. -/
theorem dispatchCallsFrom_cons_of_serves {handler : RouteHandler M} (response : HttpResponse M)
    (params : M) (pathMatchedOtherMethod : Bool) (htarget : route.target = .normal handler)
    (h : route.serves request = true) :
    dispatchCallsFrom request response (route :: routes) params pathMatchedOtherMethod =
      callOnce handler (route.bindParams request) response := by
  obtain ⟨hmethod, hcovers⟩ := Route.serves_iff.1 h
  have hfound : (PathMatcher.match route.pattern request.path (FiniteMap.empty : M)).1 = true :=
    hcovers
  rw [dispatchCallsFrom, htarget]
  simp only [hmethod, ne_eq, not_true_eq_false, if_false]
  rw [clear_eq, if_pos hfound, ← Route.bindParams, callOnce]
  congr 1
  funext ran
  rcases ran with ⟨e | -, response'⟩
  · rfl
  · rfl

/-- **`dispatch` calls the handler of the first normal route that serves the request**, and no
other. -/
theorem dispatchCallsFrom_of_firstNormal {handler : RouteHandler M} (response : HttpResponse M)
    (params : M) (pathMatchedOtherMethod : Bool) (hfirst : firstNormal routes request = some route)
    (htarget : route.target = .normal handler) :
    dispatchCallsFrom request response routes params pathMatchedOtherMethod =
      callOnce handler (route.bindParams request) response := by
  induction routes generalizing params pathMatchedOtherMethod with
  | nil => exact absurd hfirst (by simp [firstNormal])
  | cons r routes ih =>
    rw [firstNormal, List.find?_cons] at hfirst
    split at hfirst
    · rename_i hserves
      obtain rfl := Option.some.inj hfirst
      exact dispatchCallsFrom_cons_of_serves response _ _ htarget
        (Bool.and_eq_true_iff.1 hserves).2
    · rename_i hserves
      obtain ⟨left, hturn⟩ := dispatchCallsFrom_cons_of_not response params _ hserves
      rw [hturn]
      exact ih _ _ hfirst

/-- Without such a route it calls none, and the result says whether the pattern of some normal
route matches the path. -/
theorem dispatchCallsFrom_of_none (response : HttpResponse M) (params : M)
    (pathMatchedOtherMethod : Bool) (hnone : firstNormal routes request = none) :
    dispatchCallsFrom request response routes params pathMatchedOtherMethod =
      .done (.ok (if pathMatchedOtherMethod || routes.any fun route ↦
        !route.isStream && route.covers request then .methodNotAllowed else .notFound),
        request, response) := by
  induction routes generalizing params pathMatchedOtherMethod with
  | nil => rw [dispatchCallsFrom, List.any_nil, Bool.or_false]
  | cons r routes ih =>
    rw [firstNormal, List.find?_cons] at hnone
    split at hnone
    · exact absurd hnone (by simp)
    · rename_i hserves
      obtain ⟨left, hturn⟩ := dispatchCallsFrom_cons_of_not response params
        pathMatchedOtherMethod hserves
      rw [hturn, ih _ _ hnone, List.any_cons, Bool.or_assoc]

/-- **With its calls answered by the handlers, the program is `dispatch`**, whatever is left in the
map of parameters. -/
theorem run_dispatchCallsFrom (request : HttpRequest M) (response : HttpResponse M)
    (routes : List (Route M)) (params : M) (pathMatchedOtherMethod : Bool) (s : Unit) :
    (dispatchCallsFrom request response routes params pathMatchedOtherMethod).run callHandler s =
      (dispatchFrom request response routes pathMatchedOtherMethod, s) := by
  induction routes generalizing params pathMatchedOtherMethod with
  | nil => rfl
  | cons route routes ih =>
    rw [dispatchCallsFrom, dispatchFrom]
    rcases route.target with handler | streamHandler
    · simp only
      rw [clear_eq]
      split
      · exact ih _ _
      · split
        · simp only [Interaction.run_call, callHandler]
          rcases handler _ response with ⟨e | -, response'⟩
          · rfl
          · rfl
        · exact ih _ _
    · exact ih _ _

/-- What `dispatch` comes to when some normal route serves the request. -/
theorem dispatchFrom_of_firstNormal {handler : RouteHandler M} (response : HttpResponse M)
    (pathMatchedOtherMethod : Bool) (hfirst : firstNormal routes request = some route)
    (htarget : route.target = .normal handler) :
    dispatchFrom request response routes pathMatchedOtherMethod =
      ((handler (route.bindParams request) response).1.map fun _ ↦ .matched,
        route.bindParams request, (handler (route.bindParams request) response).2) := by
  have hrun := run_dispatchCallsFrom request response routes FiniteMap.empty
    pathMatchedOtherMethod ()
  rw [dispatchCallsFrom_of_firstNormal response _ _ hfirst htarget] at hrun
  exact (congrArg Prod.fst hrun).symm

/-- What `dispatch` comes to when none does. -/
theorem dispatchFrom_of_none (response : HttpResponse M) (pathMatchedOtherMethod : Bool)
    (hnone : firstNormal routes request = none) :
    dispatchFrom request response routes pathMatchedOtherMethod =
      (.ok (if pathMatchedOtherMethod || routes.any fun route ↦
        !route.isStream && route.covers request then .methodNotAllowed else .notFound),
        request, response) := by
  have hrun := run_dispatchCallsFrom request response routes FiniteMap.empty
    pathMatchedOtherMethod ()
  rw [dispatchCallsFrom_of_none response _ _ hnone] at hrun
  exact (congrArg Prod.fst hrun).symm

end Scans

/-! ### The bindings of a match -/

/-- Binding the entries of a map puts its lookups before those of the request. -/
theorem find?_setPathParams (request : HttpRequest M) (params : M) (name : Bytes) :
    find? (setPathParams request params).pathParams name =
      (find? params name).or (find? request.pathParams name) := by
  have hdistinct : (entries params).Pairwise fun d e ↦ d.1 ≠ e.1 :=
    List.pairwise_map.1 (nodup_keys params)
  have hfold : ∀ es : List (Bytes × Bytes), ∀ request : HttpRequest M,
      (es.foldl (fun request e ↦ request.setPathParam e.1 e.2) request).pathParams =
        es.foldl (fun m e ↦ FiniteMap.put m e.1 e.2) request.pathParams := by
    intro es
    induction es with
    | nil => exact fun _ ↦ rfl
    | cons e es ih => exact fun request ↦ ih (request.setPathParam e.1 e.2)
  rw [setPathParams, hfold]
  rcases hname : find? params name with - | value
  · have hne : ∀ e ∈ entries params, name ≠ e.1 := by
      rintro e he rfl
      exact absurd (hname.symm.trans (mem_entries.1 he)) (by simp)
    rw [find?_foldl_of_ne (find?_put_item Prod.fst Prod.snd) _ _ hne, Option.none_or]
  · rw [find?_foldl_of_mem (find?_put_item Prod.fst Prod.snd) hdistinct _ (mem_entries.2 hname),
      Option.some_or]

/-- Binding path parameters changes nothing else. -/
theorem setPathParams_eq (request : HttpRequest M) (params : M) :
    setPathParams request params =
      { request with pathParams := (setPathParams request params).pathParams } := by
  rw [setPathParams]
  generalize entries params = es
  induction es generalizing request with
  | nil => rfl
  | cons e es ih => exact ih (request.setPathParam e.1 e.2)

/-- A request that differs in its path parameters only: they are what a match of the route's
pattern, from no bindings, leaves behind. -/
structure BoundBy (route : Route M) (request request' : HttpRequest M) : Prop where
  /-- Nothing but the path parameters has changed. -/
  eq : request' = { request with pathParams := request'.pathParams }
  /-- The path parameters are those of the match. -/
  find?_pathParams : ∀ name, find? request'.pathParams name =
    find? (PathMatcher.match route.pattern request.path (FiniteMap.empty : M)).2 name

/-- On a request without path parameters the match alone decides. -/
theorem boundBy_bindParams (route : Route M) {request : HttpRequest M}
    (hfresh : ∀ name, find? request.pathParams name = none) :
    BoundBy route request (route.bindParams request) where
  eq := setPathParams_eq request _
  find?_pathParams name := by
    rw [Route.bindParams, find?_setPathParams, hfresh, Option.or_none]

/-! ### The law of the two scans -/

/-- Some normal route for another method matches the request's path. -/
def OtherMethod (routes : List (Route M)) (request : HttpRequest M) : Prop :=
  ∃ route ∈ routes, route.isStream = false ∧ route.method ≠ request.method ∧
    route.covers request = true

/-- When no normal route serves the request, a normal route that matches its path is for another
method. -/
theorem any_normal_iff_otherMethod {routes : List (Route M)} {request : HttpRequest M}
    (hnone : firstNormal routes request = none) :
    (routes.any fun route ↦ !route.isStream && route.covers request) = true ↔
      OtherMethod routes request := by
  rw [any_normal_iff, OtherMethod]
  refine exists_congr fun route ↦ and_congr_right fun hroute ↦ and_congr_right fun hkind ↦ ?_
  refine ⟨fun hcovers ↦ ⟨fun hmethod ↦ ?_, hcovers⟩, And.right⟩
  have hserves := firstNormal_eq_none_iff.1 hnone route hroute hkind
  rw [Route.serves_of_eq hmethod, hcovers] at hserves
  cases hserves

/-- Whether some normal route serves the request decides whether a handler is called, and the first
such route decides which, with what path parameters. -/
theorem dispatchCalls_of_serves {routes : List (Route M)} {request : HttpRequest M}
    (hfresh : ∀ name, find? request.pathParams name = none) (response : HttpResponse M)
    (hserves : ∃ route ∈ routes, route.isStream = false ∧ route.serves request = true) :
    ∃ route handler request', firstNormal routes request = some route ∧
      route.target = .normal handler ∧ BoundBy route request request' ∧
      dispatchCalls routes request response = callOnce handler request' response := by
  rcases hfirst : firstNormal routes request with - | route
  · obtain ⟨route, hroute, hkind, hserves⟩ := hserves
    rw [firstNormal_eq_none_iff.1 hfirst route hroute hkind] at hserves
    cases hserves
  · obtain ⟨handler, htarget⟩ := Route.exists_of_not_isStream (isStream_of_firstNormal hfirst)
    exact ⟨route, handler, route.bindParams request, rfl, htarget, boundBy_bindParams route hfresh,
      dispatchCallsFrom_of_firstNormal response _ false hfirst htarget⟩

/-- Without such a route no handler is called and nothing changes. -/
theorem dispatchCalls_of_not_serves {routes : List (Route M)} {request : HttpRequest M}
    (response : HttpResponse M)
    (hserves : ¬ ∃ route ∈ routes, route.isStream = false ∧ route.serves request = true) :
    ∃ result, dispatchCalls routes request response = .done (.ok result, request, response) ∧
      (result = .methodNotAllowed ↔ OtherMethod routes request) ∧
      (result = .notFound ↔ ¬ OtherMethod routes request) := by
  have hnone : firstNormal routes request = none :=
    firstNormal_eq_none_iff.2 fun route hroute hkind ↦
      Bool.eq_false_iff.2 fun h ↦ hserves ⟨route, hroute, hkind, h⟩
  have hany := any_normal_iff_otherMethod hnone
  refine ⟨_, dispatchCallsFrom_of_none response _ false hnone, ?_⟩
  rw [Bool.false_or, ← hany]
  split
  · rename_i hcovered
    simp [hcovered]
  · rename_i hcovered
    simp [hcovered]

/-- `matchStream` finds the first stream route that serves the request, and binds the parameters of
its match. -/
theorem matchStream_of_serves {routes : List (Route M)} {request : HttpRequest M}
    (hfresh : ∀ name, find? request.pathParams name = none)
    (hserves : ∃ route ∈ routes, route.isStream = true ∧ route.serves request = true) :
    ∃ route streamHandler request', firstStream routes request = some route ∧
      route.target = .stream streamHandler ∧ BoundBy route request request' ∧
      matchStream request routes = some (streamHandler, request') := by
  rcases hfirst : firstStream routes request with - | route
  · obtain ⟨route, hroute, hkind, hserves⟩ := hserves
    rw [firstStream_eq_none_iff.1 hfirst route hroute hkind] at hserves
    cases hserves
  · obtain ⟨streamHandler, htarget⟩ := Route.exists_of_isStream (isStream_of_firstStream hfirst)
    exact ⟨route, streamHandler, route.bindParams request, rfl, htarget,
      boundBy_bindParams route hfresh, matchStream_of_firstStream hfirst htarget⟩

/-- Without such a route it finds nothing. -/
theorem matchStream_of_not_serves {routes : List (Route M)} {request : HttpRequest M}
    (hserves : ¬ ∃ route ∈ routes, route.isStream = true ∧ route.serves request = true) :
    matchStream request routes = none :=
  matchStream_of_none (firstStream_eq_none_iff.2 fun route hroute hkind ↦
    Bool.eq_false_iff.2 fun h ↦ hserves ⟨route, hroute, hkind, h⟩)

/-- **The law of dispatching.** For every route table and every request without path parameters:

* `dispatch` is a program that calls handlers, answered by the handlers;
* when some normal route serves the request, it calls the handler of the first one, once, with the
  parameters of its match alone, and then returns that a route matched (or throws what the handler
  throws);
* otherwise it calls no handler and returns the request and the response as they were, with the
  answer whether a normal route for another method matches the path;
* `matchStream` finds the first stream route that serves the request, with the parameters of its
  match alone, and nothing when there is none. -/
theorem dispatch_law (routes : List (Route M)) {request : HttpRequest M}
    (hfresh : ∀ name, find? request.pathParams name = none) (response : HttpResponse M) :
    (dispatchCalls routes request response).run callHandler () =
        (dispatch routes request response, ()) ∧
      ((∃ route ∈ routes, route.isStream = false ∧ route.serves request = true) →
        ∃ route handler request', firstNormal routes request = some route ∧
          route.target = .normal handler ∧ BoundBy route request request' ∧
          dispatchCalls routes request response = callOnce handler request' response) ∧
      ((¬ ∃ route ∈ routes, route.isStream = false ∧ route.serves request = true) →
        ∃ result, dispatchCalls routes request response = .done (.ok result, request, response) ∧
          (result = .methodNotAllowed ↔ OtherMethod routes request) ∧
          (result = .notFound ↔ ¬ OtherMethod routes request)) ∧
      ((∃ route ∈ routes, route.isStream = true ∧ route.serves request = true) →
        ∃ route streamHandler request', firstStream routes request = some route ∧
          route.target = .stream streamHandler ∧ BoundBy route request request' ∧
          matchStream request routes = some (streamHandler, request')) ∧
      ((¬ ∃ route ∈ routes, route.isStream = true ∧ route.serves request = true) →
        matchStream request routes = none) :=
  ⟨run_dispatchCallsFrom request response routes _ false (),
    dispatchCalls_of_serves hfresh response, dispatchCalls_of_not_serves response,
    matchStream_of_serves hfresh, matchStream_of_not_serves⟩

/-- A handler that leaves the response alone. -/
def silentHandler : RouteHandler BytesMap := fun _ response ↦ (.ok (), response)

/-- A route whose match binds a parameter before it fails, and a route that serves the request. -/
def userRoutes : List (Route BytesMap) :=
  get (ascii "/users/:name") silentHandler (get (ascii "/users/:id/posts") silentHandler [])

/-- A request for one user. -/
def userRequest : HttpRequest BytesMap :=
  { HttpRequest.new with method := .get, path := ascii "/users/7" }

/-- The binding of the route that failed partway is not left over. -/
theorem dispatch_law_userRoutes :
    ∃ request', find? request'.pathParams (ascii "name") = some (ascii "7") ∧
      find? request'.pathParams (ascii "id") = none ∧
      dispatchCalls userRoutes userRequest (.new .ok) =
        callOnce silentHandler request' (.new .ok) := by
  have hfresh : ∀ name, find? userRequest.pathParams name = none := fun name ↦ find?_empty name
  obtain ⟨-, hcalls, -⟩ := dispatch_law userRoutes hfresh (.new .ok)
  obtain ⟨route, handler, request', hfirst, htarget, hbound, hcall⟩ :=
    hcalls ⟨⟨.get, ascii "/users/:name", .normal silentHandler⟩,
      List.mem_cons_of_mem _ List.mem_cons_self, rfl, by decide +kernel⟩
  have hsecond : firstNormal userRoutes userRequest =
      some ⟨.get, ascii "/users/:name", .normal silentHandler⟩ :=
    (List.find?_cons_of_neg (by decide +kernel)).trans
      (List.find?_cons_of_pos (by decide +kernel))
  obtain rfl := Option.some.inj (hfirst.symm.trans hsecond)
  obtain rfl := RouteTarget.normal.inj htarget
  refine ⟨request', ?_, ?_, hcall⟩
  · exact (hbound.find?_pathParams (ascii "name")).trans (by decide +kernel)
  · exact (hbound.find?_pathParams (ascii "id")).trans (by decide +kernel)

end Router

end FalconHTTP
