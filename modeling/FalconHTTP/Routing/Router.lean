import FalconHTTP.HTTP.Message
import FalconHTTP.Foundation.Occurrence
import FalconHTTP.Streaming.SseConnection

/-!
# Routing

`PathMatcher::match` and the two scans of `Router`: `dispatch` runs the first normal route that
matches a request's method and path, `matchStream` finds the first stream route that does. Both bind
the path parameters of the match on the request.

A route handler is an arbitrary function of the request and the response: it leaves a response
behind and returns or throws. A matcher returns its parameters also when it fails, with the
bindings made so far; its callers drop them.
-/

namespace FalconHTTP

open Occurrence FiniteMap

variable {M : Type} [FiniteMap M Bytes Bytes]

/-! ### Matching paths -/

namespace PathMatcher

/-- The text up to a position, all of it when there is none. -/
def segment (text : Bytes) : Option ℕ → Bytes
  | none => text
  | some slash => text.take slash

/-- The text from a position on, nothing when there is none. -/
def remainder (text : Bytes) : Option ℕ → Bytes
  | none => []
  | some slash => text.drop slash

/-- The loop of the matcher: one segment of the pattern and of the path each turn. -/
def matchLoop : ℕ → Bytes → Bytes → M → Bool × M
  | 0, pattern, path, params => (pattern = [] ∧ path = [], params)
  | fuel + 1, pattern, path, params =>
    if pattern = [] ∨ path = [] then (pattern = [] ∧ path = [], params)
    else
      let patternSlash := indexFrom? [47] pattern 1
      let pathSlash := indexFrom? [47] path 1
      let patternSegment := segment pattern patternSlash
      let pathSegment := segment path pathSlash
      if patternSegment[1]? = some 58 then
        let params := put params (patternSegment.drop 2) (pathSegment.drop 1)
        matchLoop fuel (remainder pattern patternSlash) (remainder path pathSlash) params
      else if patternSegment ≠ pathSegment then (false, params)
      else matchLoop fuel (remainder pattern patternSlash) (remainder path pathSlash) params

/-- Match a path against a pattern. -/
def «match» (pattern path : Bytes) (params : M) : Bool × M :=
  matchLoop pattern.length pattern path params

end PathMatcher

/-! ### Routes -/

/-- A route handler at work: it leaves a response, and returns or throws. -/
abbrev RouteHandler (M : Type) [FiniteMap M Bytes Bytes] :=
  HttpRequest M → HttpResponse M → Except Exn Unit × HttpResponse M

/-- A stream handler. -/
abbrev StreamHandler (M : Type) [FiniteMap M Bytes Bytes] :=
  HttpRequest M → StreamProgram

/-- The handler of a route, of one kind or the other. -/
inductive RouteTarget (M : Type) [FiniteMap M Bytes Bytes]
  /-- A normal route. -/
  | normal (handler : RouteHandler M)
  /-- A stream route. -/
  | stream (streamHandler : StreamHandler M)

/-- One registered route. -/
structure Route (M : Type) [FiniteMap M Bytes Bytes] where
  /-- The method it responds to. -/
  method : HttpMethod
  /-- The path pattern. -/
  pattern : Bytes
  /-- The handler. -/
  target : RouteTarget M

/-- What dispatching came to. -/
inductive DispatchResult
  | matched | notFound | methodNotAllowed
  deriving DecidableEq

namespace Router

/-- Append a normal route. -/
def addRoute (method : HttpMethod) (pattern : Bytes) (handler : RouteHandler M)
    (routes : List (Route M)) : List (Route M) :=
  routes ++ [⟨method, pattern, .normal handler⟩]

/-- Register a `GET` handler. -/
def get (pattern : Bytes) (handler : RouteHandler M) : List (Route M) → List (Route M) :=
  addRoute .get pattern handler

/-- Register a `POST` handler. -/
def post (pattern : Bytes) (handler : RouteHandler M) : List (Route M) → List (Route M) :=
  addRoute .post pattern handler

/-- Register a `PUT` handler. -/
def put (pattern : Bytes) (handler : RouteHandler M) : List (Route M) → List (Route M) :=
  addRoute .put pattern handler

/-- Register a `DELETE` handler. -/
def del (pattern : Bytes) (handler : RouteHandler M) : List (Route M) → List (Route M) :=
  addRoute .delete pattern handler

/-- Register a stream handler, always under `GET`. -/
def stream (pattern : Bytes) (streamHandler : StreamHandler M) (routes : List (Route M)) :
    List (Route M) :=
  routes ++ [⟨.get, pattern, .stream streamHandler⟩]

/-- Bind the entries of a match on a request. -/
def setPathParams (request : HttpRequest M) (params : M) : HttpRequest M :=
  (entries params).foldl (fun request entry ↦ request.setPathParam entry.1 entry.2) request

/-- The scan of `dispatch` over the routes that are left. -/
def dispatchFrom (request : HttpRequest M) (response : HttpResponse M) :
    List (Route M) → Bool → Except Exn DispatchResult × HttpRequest M × HttpResponse M
  | [], pathMatchedOtherMethod =>
    (.ok (if pathMatchedOtherMethod then .methodNotAllowed else .notFound), request, response)
  | route :: routes, pathMatchedOtherMethod =>
    match route.target with
    | .stream _ => dispatchFrom request response routes pathMatchedOtherMethod
    | .normal handler =>
      let (found, params) := PathMatcher.match route.pattern request.path (FiniteMap.empty : M)
      if route.method ≠ request.method then
        dispatchFrom request response routes (pathMatchedOtherMethod || found)
      else if found then
        let request := setPathParams request params
        match handler request response with
        | (.ok (), response) => (.ok .matched, request, response)
        | (.error e, response) => (.error e, request, response)
      else dispatchFrom request response routes pathMatchedOtherMethod

/-- Run the first normal route that matches. -/
def dispatch (routes : List (Route M)) (request : HttpRequest M) (response : HttpResponse M) :
    Except Exn DispatchResult × HttpRequest M × HttpResponse M :=
  dispatchFrom request response routes false

/-- Find the first stream route that matches, and bind its parameters. -/
def matchStream (request : HttpRequest M) :
    List (Route M) → Option (StreamHandler M × HttpRequest M)
  | [] => none
  | route :: routes =>
    match route.target with
    | .normal _ => matchStream request routes
    | .stream streamHandler =>
      if route.method ≠ request.method then matchStream request routes
      else
        match PathMatcher.match route.pattern request.path (FiniteMap.empty : M) with
        | (true, params) => some (streamHandler, setPathParams request params)
        | (false, _) => matchStream request routes

/-- A stream handler that is found is registered. -/
theorem mem_of_matchStream {request request' : HttpRequest M} {routes : List (Route M)}
    {streamHandler : StreamHandler M}
    (h : matchStream request routes = some (streamHandler, request')) :
    ∃ route ∈ routes, route.target = .stream streamHandler := by
  induction routes with
  | nil => exact absurd h (by simp [matchStream])
  | cons route routes ih =>
    have hskip : matchStream request routes = some (streamHandler, request') →
        ∃ r ∈ route :: routes, r.target = .stream streamHandler := by
      intro hrest
      obtain ⟨r, hr, htarget⟩ := ih hrest
      exact ⟨r, List.mem_cons_of_mem _ hr, htarget⟩
    rw [matchStream] at h
    split at h
    · exact hskip h
    · rename_i handler htarget
      split at h
      · exact hskip h
      · split at h
        · obtain ⟨rfl, -⟩ := Prod.mk.inj (Option.some.inj h)
          exact ⟨route, List.mem_cons_self, htarget⟩
        · exact hskip h

/-- What dispatching throws, a registered handler threw. -/
theorem error_of_dispatch {routes : List (Route M)} {request : HttpRequest M}
    {response : HttpResponse M} {e : Exn} (h : (dispatch routes request response).1 = .error e) :
    ∃ route ∈ routes, ∃ handler, route.target = .normal handler ∧
      ∃ request', (handler request' response).1 = .error e := by
  rw [dispatch] at h
  generalize false = pathMatchedOtherMethod at h
  induction routes generalizing pathMatchedOtherMethod with
  | nil => exact absurd h (by simp [dispatchFrom])
  | cons route routes ih =>
    have hskip : ∀ b, (dispatchFrom request response routes b).1 = .error e →
        ∃ r ∈ route :: routes, ∃ handler, r.target = .normal handler ∧
          ∃ request', (handler request' response).1 = .error e := by
      intro b hrest
      obtain ⟨r, hr, htarget⟩ := ih b hrest
      exact ⟨r, List.mem_cons_of_mem _ hr, htarget⟩
    rw [dispatchFrom] at h
    split at h
    · exact hskip _ h
    · rename_i handler htarget
      simp only at h
      split at h
      · exact hskip _ h
      · split at h
        · split at h
          · exact absurd h (by simp)
          · rename_i hhandler
            obtain rfl := Except.error.inj h
            exact ⟨route, List.mem_cons_self, handler, htarget, _, congrArg Prod.fst hhandler⟩
        · exact hskip _ h

end Router

end FalconHTTP
