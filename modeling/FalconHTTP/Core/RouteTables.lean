import FalconHTTP.Core.FirstMatch
import FalconHTTP.Core.OneResponse
import FalconHTTP.Routing.Tables

/-!
# Route tables of a server

What a server does on a connection depends on its route table through the two scans at the end of
the chain, and through the paths that the normal routes match, which decide between a 404 and a 405
(`handleConnection_congr_routes`).

* `reachable_iff`: in a table of patterns that start with a slash, a route answers some request
  exactly when no route before it, in the order of the scans, shadows it. So a dead route is found
  by comparing patterns, two at a time.
* `handleConnection_remove`: a route that an earlier one of its kind shadows can be removed.
* `handleConnection_perm`: routes whose patterns start with a slash and do not overlap can be
  registered in any order.

A stream route that shadows a normal one makes it unreachable too, but the normal one still turns
the 404 for other methods into a 405.
-/

namespace FalconHTTP

open FiniteMap

variable {M : Type} [FiniteMap M Bytes Bytes]

namespace Server

variable {server server' : Server M}

/-! ### Servers that differ in their route tables -/

/-- The chain depends on the routes through its end. -/
theorem runChain_congr (hend : ∀ request response s,
      server.endOfChain request response s = server'.endOfChain request response s)
    (middlewares : List (MiddlewareFn M)) :
    server.runChain middlewares = server'.runChain middlewares := by
  induction middlewares with
  | nil =>
    funext request response s
    exact hend request response s
  | cons middleware rest ih =>
    funext request response s
    rw [runChain, runChain, ih]

/-- The end of the chain depends on what the scans find, and on which paths the normal routes
match. -/
theorem endOfChain_congr_routes {routes : List (Route M)} {request : HttpRequest M}
    (hfirst : ∀ kind,
      Router.firstOf kind routes request = Router.firstOf kind server.routes request)
    (hany : (routes.any fun r ↦ !r.isStream && r.covers request) =
      server.routes.any fun r ↦ !r.isStream && r.covers request)
    (response : HttpResponse M) (s : ChainState) :
    ({ server with routes := routes } : Server M).endOfChain request response s =
      server.endOfChain request response s := by
  have hstream : Router.firstStream routes request = Router.firstStream server.routes request := by
    rw [← Router.firstOf_true, ← Router.firstOf_true, hfirst]
  have hnormal : Router.firstNormal routes request = Router.firstNormal server.routes request := by
    rw [← Router.firstOf_false, ← Router.firstOf_false, hfirst]
  rw [endOfChain, endOfChain]
  simp only [Router.matchStream_congr hstream, Router.dispatch_congr hnormal hany]

/-- **So does what the server does on a connection.** -/
theorem handleConnection_congr_routes {routes : List (Route M)}
    (hfirst : ∀ kind request,
      Router.firstOf kind routes request = Router.firstOf kind server.routes request)
    (hany : ∀ request : HttpRequest M, (routes.any fun r ↦ !r.isStream && r.covers request) =
      server.routes.any fun r ↦ !r.isStream && r.covers request) (s : ChainState) :
    ({ server with routes := routes } : Server M).handleConnection s =
      server.handleConnection s := by
  have hend : ∀ request response s,
      ({ server with routes := routes } : Server M).endOfChain request response s =
        server.endOfChain request response s := fun request response s ↦
    endOfChain_congr_routes (fun kind ↦ hfirst kind request) (hany request) response s
  exact handleConnection_congr (runChain_congr hend server.middleware) rfl s

/-! ### Dead routes -/

/-- The first route that serves a request, in the order of the scans, answers it. -/
theorem endOfChain_of_scanOrder {request : HttpRequest M} {route : Route M} {s : ChainState}
    (hfirst : (Router.scanOrder server.routes).find? (·.serves request) = some route)
    (hfree : s.fetched.headD 0 < server.maxStreamingConnections) (response : HttpResponse M) :
    server.endOfChain request response s = runRoute route request response s := by
  rw [Router.find?_scanOrder] at hfirst
  rcases hstream : Router.firstStream server.routes request with - | r
  · rw [hstream, Option.none_or] at hfirst
    exact endOfChain_of_firstNormal response hstream hfirst
  · rw [hstream, Option.some_or] at hfirst
    exact endOfChain_of_firstStream response (hstream.trans hfirst) hfree

/-- **Which routes are dead.** For a table of patterns that start with a slash: a route is asked for
some request, serves it where none before it does, and answers it, exactly when no route before it
in the order of the scans is for the same method and has a pattern that matches the pattern of the
route. Several routes that only together match everything the route matches do not make it dead. -/
theorem reachable_iff (server : Server M) (before after : List (Route M)) (route : Route M)
    (horder : Router.scanOrder server.routes = before ++ route :: after)
    (hslash : ∀ r ∈ server.routes, r.StartsWithSlash) :
    (∃ request : HttpRequest M, route.serves request = true ∧
        (∀ r ∈ before, r.serves request = false) ∧
        ∀ response s, s.fetched.headD 0 < server.maxStreamingConnections →
          server.endOfChain request response s = runRoute route request response s) ↔
      ∀ r ∈ before, ¬ r.Shadows route := by
  have hmem : ∀ r ∈ before ++ route :: after, r.StartsWithSlash := by
    intro r hr
    rw [← horder, Router.scanOrder, List.mem_append, List.mem_filter, List.mem_filter] at hr
    exact hslash r (hr.elim And.left And.left)
  have hroute : route.StartsWithSlash :=
    hmem route (List.mem_append_right _ List.mem_cons_self)
  constructor
  · rintro ⟨request, hserves, hbefore, -⟩ r hr hshadows
    have hserves' := hshadows.serves hserves
    rw [hbefore r hr] at hserves'
    cases hserves'
  · intro hnot
    -- the patterns before it for its method do not cover the pattern
    obtain ⟨path, haccepts, huncovered⟩ : ∃ path,
        PathMatcher.accepts route.pattern path = true ∧ ∀ r ∈ before, r.method = route.method →
          PathMatcher.accepts r.pattern path = false := by
      have hcovered := (PathMatcher.covered_iff
        (show ∀ p ∈ (before.filter (·.method = route.method)).map (·.pattern), p.head? = some 47
          from ?_) hroute).not.2 ?_
      · simp only [not_forall, not_exists, not_and] at hcovered
        obtain ⟨path, -, haccepts, huncovered⟩ := hcovered
        refine ⟨path, haccepts, fun r hr hmethod ↦ Bool.eq_false_iff.2 ?_⟩
        exact huncovered _ (List.mem_map.2
          ⟨r, List.mem_filter.2 ⟨hr, decide_eq_true hmethod⟩, rfl⟩)
      · intro p hp
        obtain ⟨r, hr, rfl⟩ := List.mem_map.1 hp
        exact hmem r (List.mem_append_left _ (List.mem_filter.1 hr).1)
      · rintro ⟨p, hp, hmatch⟩
        obtain ⟨r, hr, rfl⟩ := List.mem_map.1 hp
        obtain ⟨hr, hmethod⟩ := List.mem_filter.1 hr
        exact hnot r hr ⟨of_decide_eq_true hmethod, hmatch⟩
    let request : HttpRequest M := { HttpRequest.new with method := route.method, path := path }
    have hserves : route.serves request = true :=
      Route.serves_iff.2 ⟨rfl, (Route.covers_eq route request).trans haccepts⟩
    have hbefore : ∀ r ∈ before, r.serves request = false := by
      intro r hr
      rcases hmethod : decide (r.method = route.method) with - | -
      · rw [Route.serves, hmethod, Bool.false_and]
      · rw [Route.serves_of_eq (of_decide_eq_true hmethod), Route.covers_eq]
        exact huncovered r hr (of_decide_eq_true hmethod)
    refine ⟨request, hserves, hbefore, fun response s hfree ↦
      endOfChain_of_scanOrder ?_ hfree response⟩
    have hnone : before.find? (·.serves request) = none :=
      List.find?_eq_none.2 fun r hr ↦ ne_true_of_eq_false (hbefore r hr)
    rw [horder, List.find?_append, hnone, Option.none_or]
    exact List.find?_cons_of_pos hserves

/-- Two routes that only together match a part of what a third one matches. -/
def kindRoutes : List (Route BytesMap) :=
  [⟨.get, ascii "/users/:id", .normal healthHandler⟩,
    ⟨.get, ascii "/:kind/me", .normal healthHandler⟩]

/-- The third one. -/
def kindRoute : Route BytesMap :=
  ⟨.get, ascii "/:kind/:id", .normal healthHandler⟩

theorem reachable_iff_kindRoute : ∃ request : HttpRequest BytesMap,
    kindRoute.serves request = true ∧ ∀ r ∈ kindRoutes, r.serves request = false := by
  have hslash : ∀ r ∈ kindRoutes ++ [kindRoute], r.StartsWithSlash := by decide +kernel
  obtain ⟨request, hserves, hbefore, -⟩ := (reachable_iff (routeServer (kindRoutes ++ [kindRoute]))
    kindRoutes [] kindRoute rfl hslash).2 (by decide +kernel)
  exact ⟨request, hserves, hbefore⟩

/-! ### Tables that do the same -/

/-- **A shadowed route can be removed**: when an earlier route of the same kind and for the same
method matches its pattern, the server does the same on every connection without it. -/
theorem handleConnection_remove (server : Server M) (before after : List (Route M))
    {route shadow : Route M} (hroutes : server.routes = before ++ route :: after)
    (hshadow : shadow ∈ before) (hkind : shadow.isStream = route.isStream)
    (h : shadow.Shadows route) (s : ChainState) :
    ({ server with routes := before ++ after } : Server M).handleConnection s =
      server.handleConnection s := by
  refine handleConnection_congr_routes (fun kind request ↦ ?_) (fun request ↦ ?_) s
  · rw [hroutes, Router.firstOf_remove hshadow hkind h]
  · rw [hroutes, List.any_append, List.any_append, List.any_cons]
    rcases hroute : (!route.isStream && route.covers request) with - | -
    · rw [Bool.false_or]
    · -- the other route matches the path too
      obtain ⟨hnormal, hcovers⟩ := Bool.and_eq_true_iff.1 hroute
      have hbefore : (before.any fun r ↦ !r.isStream && r.covers request) = true :=
        List.any_eq_true.2 ⟨shadow, hshadow,
          Bool.and_eq_true_iff.2 ⟨hkind ▸ hnormal, h.covers hcovers⟩⟩
      rw [hbefore, Bool.true_or, Bool.true_or]

/-- A table whose second route is dead. -/
def meRoutes : List (Route BytesMap) :=
  [⟨.get, ascii "/users/:id", .normal healthHandler⟩, ⟨.get, ascii "/users/me", .normal fun _ r ↦
    (.error .other, r)⟩]

theorem handleConnection_remove_meRoutes :
    (routeServer (meRoutes.take 1)).handleConnection tickState =
      (routeServer meRoutes).handleConnection tickState :=
  handleConnection_remove (routeServer meRoutes) (meRoutes.take 1) [] rfl List.mem_cons_self rfl
    (by decide +kernel) tickState

/-- **Routes that do not overlap can be registered in any order**: when all patterns start with a
slash, and no two routes of one kind and one method have patterns that meet segment by segment, the
server does the same on every connection after any rearrangement of its table. -/
theorem handleConnection_perm (server : Server M) {routes : List (Route M)}
    (hperm : server.routes.Perm routes)
    (hslash : ∀ r ∈ server.routes, r.StartsWithSlash)
    (hapart : server.routes.Pairwise Route.Apart) (s : ChainState) :
    ({ server with routes := routes } : Server M).handleConnection s =
      server.handleConnection s := by
  refine handleConnection_congr_routes (fun kind request ↦ ?_) (fun request ↦ ?_) s
  · exact (Router.firstOf_perm hperm hslash hapart kind request).symm
  · exact hperm.symm.any_eq

/-- A table of routes that do not overlap, with one pattern under two methods and for a stream. -/
def apartRoutes : List (Route BytesMap) :=
  [⟨.get, ascii "/users/:id", .normal healthHandler⟩,
    ⟨.delete, ascii "/users/:id", .normal healthHandler⟩,
    ⟨.get, ascii "/users/:id", .stream idleStream⟩,
    ⟨.get, ascii "/users/:id/posts", .normal healthHandler⟩]

theorem handleConnection_perm_apartRoutes :
    (routeServer apartRoutes.reverse).handleConnection tickState =
      (routeServer apartRoutes).handleConnection tickState :=
  handleConnection_perm (routeServer apartRoutes) (List.reverse_perm _).symm
    (by decide +kernel) (by decide +kernel) tickState

end Server

end FalconHTTP
