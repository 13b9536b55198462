import FalconHTTP.FileServer.Confinement
import FalconHTTP.Middleware.Around

/-!
# Files in front of the routes

A middleware can ask a `StaticFileServer` before the routes are asked: where a file is served it
answers by itself, and otherwise it goes on. The threads of the server share the file server, so its
cache may be in any state that calls of `serve` leave.

`handleConnection_staticFallback` says what such a server does on a connection: what the disk
answers to the path of the request decides, and neither the cache nor the method of the request
does. So a file hides every route for its path, streams included, and without a file the server does
what it does without the middleware. What lies outside the root directory shows on no connection
(`handleConnection_confined`).
-/

namespace FalconHTTP

open FiniteMap StaticFileServer

variable {M : Type} [FiniteMap M Bytes Bytes]

/-- The middleware, over one filesystem. What the call leaves in the cache is not kept: over one
filesystem it makes no difference. -/
def staticFallback (staticFiles : StaticFileServer) (fs : FileSystem) : MiddlewareFn M :=
  fun request response ↦
    match staticFiles.serve fs request.path response with
    | (.error e, response, _) => .done (.error e, request, response)
    | (.ok true, response, _) => .done (.ok (), request, response)
    | (.ok false, response, _) => .call (request, response) .done

/-! ### What the disk answers -/

namespace StaticFileServer

variable {rootDirectory : Path} {fs fs' : FileSystem} {staticFiles : StaticFileServer}

/-- The disk throws standard exceptions only. -/
theorem exists_std_of_lookup {requestPath : Bytes} {e : Exn}
    (h : lookup rootDirectory fs requestPath = .error e) : ∃ what, e = .std what := by
  rw [lookup_eq] at h
  split at h
  · rcases hreach : fs.reach (fullPath rootDirectory requestPath) with
      - | - | ⟨contents, - | -⟩ | - | what
    all_goals rw [hreach] at h
    · cases h
    · cases h
    · cases h
    · cases h
    · cases h
    · exact ⟨what, (Except.error.inj h).symm⟩
  · cases h

/-- So does the middleware, as long as what it calls does. -/
theorem staticFallback_ensures_onlyStd (staticFiles : StaticFileServer) (fs : FileSystem)
    (request : HttpRequest M) (response : HttpResponse M) :
    (staticFallback staticFiles fs request response).Ensures (fun _ r ↦ OnlyStd r.1)
      fun r ↦ OnlyStd r.1 := by
  rw [staticFallback]
  rcases serve_cases staticFiles fs request.path response with
    ⟨entry, cache, -, hserve⟩ | ⟨-, hserve⟩
  · rw [hserve]
    exact onlyStd_ok ()
  · rw [hserve]
    rcases hlookup : lookup staticFiles.rootDirectory fs request.path with e | - | entry
    · obtain ⟨what, rfl⟩ := exists_std_of_lookup hlookup
      intro e he
      obtain rfl := Except.error.inj he
      rfl
    · exact fun r hr ↦ hr
    · exact onlyStd_ok ()

/-- Filesystems that look the same give the same answers. -/
theorem lookup_congr (h : fs.SameUnder rootDirectory fs') (requestPath : Bytes) :
    lookup rootDirectory fs requestPath = lookup rootDirectory fs' requestPath := by
  rw [lookup_eq, lookup_eq, ← h.isPathSafe_eq]
  split
  · rename_i hsafe
    rw [h.reach_eq hsafe]
  · rfl

/-- A file server whose calls have all met the same filesystem. -/
theorem cacheAnswers_of_run {ι : Type*} [DecidableEq ι] {opens : Node → Option Bytes}
    {policy : EvictionPolicy} {cacheCapacity : ℕ} {as : List (ServingAction ι M)}
    {t : ServingState ι M}
    (h : (serving ι opens rootDirectory policy cacheCapacity fs).run as = some t)
    (hunchanged : ∀ a ∈ as, a.changesTo = none) : CacheAnswers rootDirectory [fs] t.server := by
  have hone : filesystems fs as = [fs] := by
    rw [filesystems, List.filterMap_eq_nil_iff.2 hunchanged]
  have hsteady : Steady (filesystems fs as) := by
    rw [hone]
    refine ⟨fun f hf f' hf' ↦ ?_, fun f hf f' hf' location contents readable hregular ↦ ?_⟩
    · rw [List.mem_singleton.1 hf, List.mem_singleton.1 hf']
    · rw [List.mem_singleton.1 hf', ← List.mem_singleton.1 hf]
      exact Or.inr ⟨contents, readable, hregular⟩
  exact hone ▸ (servingInv_of_run h hsteady).server

/-- Such a file server reports what the disk answers. -/
theorem CacheAnswers.serve (h : CacheAnswers rootDirectory [fs] staticFiles) (requestPath : Bytes)
    (response : HttpResponse M) :
    (staticFiles.serve fs requestPath response).1 =
        (report response (lookup rootDirectory fs requestPath)).1 ∧
      (staticFiles.serve fs requestPath response).2.1 =
        (report response (lookup rootDirectory fs requestPath)).2 := by
  obtain ⟨rfl, hkeeps⟩ := h
  refine serve_of_keeps (hkeeps.mono ?_) requestPath response
  rintro k e ⟨f, hf, hlookup⟩
  rwa [List.mem_singleton.1 hf] at hlookup

/-- **What the disk answers decides what the middleware does.** -/
theorem staticFallback_eq (h : CacheAnswers rootDirectory [fs] staticFiles)
    (request : HttpRequest M) (response : HttpResponse M) :
    staticFallback staticFiles fs request response =
      match lookup rootDirectory fs request.path with
      | .error e => .done (.error e, request, response)
      | .ok none => .call (request, response) .done
      | .ok (some entry) => .done (.ok (), request, populate response entry) := by
  obtain ⟨hresult, hresponse⟩ := h.serve request.path response
  rw [staticFallback]
  rcases hserve : staticFiles.serve fs request.path response with ⟨result, response', staticFiles'⟩
  rw [hserve] at hresult hresponse
  obtain rfl : result = _ := hresult
  obtain rfl : response' = _ := hresponse
  rcases lookup rootDirectory fs request.path with e | - | entry
  · rfl
  · rfl
  · rfl

end StaticFileServer

namespace Server

variable {server : Server M} {rootDirectory : Path} {fs fs' : FileSystem}
  {staticFiles staticFiles' : StaticFileServer} {outer : List Outer}
  {inner inner' : List (MiddlewareFn M)}

/-! ### The middleware in a chain -/

/-- The chain from this middleware on. -/
theorem runChain_staticFallback (h : CacheAnswers rootDirectory [fs] staticFiles)
    (inner : List (MiddlewareFn M)) (request : HttpRequest M) (response : HttpResponse M)
    (s : ChainState) :
    server.runChain (staticFallback staticFiles fs :: inner) request response s =
      match lookup rootDirectory fs request.path with
      | .error e => ⟨.error e, request, response, s⟩
      | .ok none => server.runChain inner request response s
      | .ok (some entry) => ⟨.ok false, request, populate response entry, s⟩ := by
  rw [runChain, staticFallback_eq h]
  rcases lookup rootDirectory fs request.path with e | - | entry
  · rfl
  · simp only [Interaction.run_call, nextCall]
    rcases server.runChain inner request response s with ⟨e | streamed, request', response', s'⟩
    · rfl
    · rfl
  · rfl

/-- Logging and recovery do to a chain what they do to one that ends in the same way. -/
theorem runChain_outer_congr_inner (outer : List Outer) {request : HttpRequest M}
    {response : HttpResponse M} {s : ChainState}
    (h : server.runChain inner request response s = server.runChain inner' request response s) :
    server.runChain (outer.map Outer.middleware ++ inner) request response s =
      server.runChain (outer.map Outer.middleware ++ inner') request response s := by
  rcases hinner : server.runChain inner request response s with
    ⟨e | streamed, request', response', s'⟩
  · rw [runChain_outer_of_error outer hinner, runChain_outer_of_error outer (h ▸ hinner)]
  · rw [runChain_outer_of_ok outer hinner, runChain_outer_of_ok outer (h ▸ hinner)]

/-! ### On a connection -/

/-- **A request that was read**: the file is the answer if there is one, an exception is a 500, and
otherwise the server does what it does without the middleware. -/
theorem handleConnection_of_lookup (h : CacheAnswers rootDirectory [fs] staticFiles)
    (hmiddleware :
      server.middleware = outer.map Outer.middleware ++ staticFallback staticFiles fs :: inner)
    {s : ChainState} (hopen : s.connection.isOpen) {request : HttpRequest M}
    (hread : (readRequest server.caps s.endpoint.incoming).1 = .request request) :
    server.handleConnection s =
      match lookup rootDirectory fs request.path with
      | .error _ =>
        (none, closeConnection
          (sendResponse (internalServerError : HttpResponse M) (afterRead server s)))
      | .ok none =>
        ({ server with middleware := outer.map Outer.middleware ++ inner } :
          Server M).handleConnection s
      | .ok (some entry) =>
        (none, closeConnection
          (sendResponse (populate (.new .ok : HttpResponse M) entry) (afterRead server s))) := by
  have hclose : ∀ response : HttpResponse M,
      closeConnection (closeConnection (sendResponse response (afterRead server s))) =
        closeConnection (sendResponse response (afterRead server s)) :=
    fun response ↦ closeConnection_closeConnection (s := sendResponse response _) hopen
  have hchain : server.runChain (staticFallback staticFiles fs :: inner) request (.new .ok)
      (afterRead server s) = _ := runChain_staticFallback h inner request _ _
  rcases hlookup : lookup rootDirectory fs request.path with e | - | entry
  · rw [hlookup] at hchain
    obtain ⟨what, rfl⟩ := exists_std_of_lookup hlookup
    rw [handleConnection_of_isOpen hopen hread, settle, respond, hmiddleware,
      runChain_outer_of_error outer hchain]
    by_cases hrecovered : Outer.recovery ∈ outer
    · rw [if_pos hrecovered]
      exact congrArg _ (hclose _)
    · rw [if_neg hrecovered]
      exact congrArg _ (hclose _)
  · rw [hlookup] at hchain
    show server.handleConnection s = ({ server with
      middleware := outer.map Outer.middleware ++ inner } : Server M).handleConnection s
    refine handleConnection_congr_of_read rfl hopen hread ?_
    rw [hmiddleware, runChain_outer_congr_inner outer hchain]
    exact (congrFun (congrFun (congrFun (runChain_with_middleware server _ _) _) _) _).symm
  · rw [hlookup] at hchain
    rw [handleConnection_of_isOpen hopen hread, settle, respond, hmiddleware,
      runChain_outer_of_ok outer hchain]
    exact congrArg _ (hclose _)

/-- Without a request the middlewares make no difference. -/
theorem handleConnection_congr_of_ne {server' : Server M} (hcaps : server'.caps = server.caps)
    {s : ChainState}
    (hread : ∀ request : HttpRequest M,
      (readRequest server.caps s.endpoint.incoming).1 ≠ .request request) :
    server.handleConnection s = server'.handleConnection s := by
  by_cases hopen : s.connection.isOpen
  · rcases houtcome : (readRequest server.caps s.endpoint.incoming (M := M)).1 with
      request | response | -
    · exact absurd houtcome (hread request)
    · exact ((unhandled_of_rejected hopen houtcome).independent server' hcaps).symm
    · exact ((unhandled_of_closed hopen houtcome).independent server' hcaps).symm
  · rw [handleConnection, handleConnection, if_pos hopen, if_pos hopen]

section Shared

variable {ι : Type*} [DecidableEq ι] {opens : Node → Option Bytes} {policy : EvictionPolicy}
  {cacheCapacity : ℕ} {as : List (ServingAction ι M)} {t : ServingState ι M}

/-- **Files, then routes.** A server asks a file server behind logging and recovery, in front of any
other middlewares. Whatever calls the threads of the server have made of the file server, in any
interleaving and under every eviction policy, over one filesystem:

* to a request that was read the answer is the file that the path leads to under the root directory,
  if there is one, whatever the method, the routes and the other middlewares are; a 500 if the disk
  throws; and otherwise the server does what it does without the file server;
* so it does where no request was read. -/
theorem handleConnection_staticFallback (server : Server M)
    (hrun : (serving ι opens rootDirectory policy cacheCapacity fs).run as = some t)
    (hunchanged : ∀ a ∈ as, a.changesTo = none) (outer : List Outer)
    (hmiddleware :
      server.middleware = outer.map Outer.middleware ++ staticFallback t.server fs :: inner)
    (s : ChainState) :
    (∀ request : HttpRequest M, s.connection.isOpen →
      (readRequest server.caps s.endpoint.incoming).1 = .request request →
      (∀ entry, lookup rootDirectory fs request.path = .ok (some entry) →
        ServesFile rootDirectory fs request.path entry.content ∧
        server.handleConnection s = (none, closeConnection
          (sendResponse (populate (.new .ok : HttpResponse M) entry) (afterRead server s)))) ∧
      (∀ e, lookup rootDirectory fs request.path = .error e →
        server.handleConnection s = (none, closeConnection
          (sendResponse (internalServerError : HttpResponse M) (afterRead server s)))) ∧
      (lookup rootDirectory fs request.path = .ok none → server.handleConnection s =
        ({ server with middleware := outer.map Outer.middleware ++ inner } :
          Server M).handleConnection s)) ∧
    ((∀ request : HttpRequest M,
        (readRequest server.caps s.endpoint.incoming).1 ≠ .request request) →
      server.handleConnection s =
        ({ server with middleware := outer.map Outer.middleware ++ inner } :
          Server M).handleConnection s) := by
  have hanswers := cacheAnswers_of_run hrun hunchanged
  refine ⟨fun request hopen hread ↦ ?_,
    fun hread ↦ handleConnection_congr_of_ne (by rfl) hread⟩
  have hhandle := handleConnection_of_lookup hanswers hmiddleware hopen hread
  refine ⟨fun entry hlookup ↦ ⟨servesFile_of_lookup hlookup, ?_⟩, fun e hlookup ↦ ?_,
    fun hlookup ↦ ?_⟩
  · rw [hhandle, hlookup]
  · rw [hhandle, hlookup]
  · rw [hhandle, hlookup]

/-- A run in which a file is asked for, and put in the cache. -/
def indexRun : List (ServingAction Unit BytesMap) :=
  .enter () (ascii "/index.html") (.new .ok) :: List.replicate 6 (.next ())

/-- The filesystem it meets. -/
def indexFs : FileSystem :=
  linkTo (ascii "/etc/passwd") (ascii "one")

/-- The system it is a run of. -/
def indexServing : TransitionSystem (ServingState Unit BytesMap) (ServingAction Unit BytesMap) :=
  serving Unit (fun _ ↦ none) (ascii "/srv") (fun _ _ _ ↦ true) 16 indexFs

/-- The state it leads to. -/
def indexPoint : ServingState Unit BytesMap :=
  (indexServing.run indexRun).getD indexServing.init

theorem run_indexRun : indexServing.run indexRun = some indexPoint := by
  have hrun : (indexServing.run indexRun).isSome := by decide +kernel
  obtain ⟨t, ht⟩ := Option.isSome_iff_exists.1 hrun
  rw [indexPoint, ht]
  rfl

theorem changesTo_indexRun : ∀ a ∈ indexRun, a.changesTo = none := fun a ha ↦
  Option.isNone_iff_eq_none.1 (List.all_eq_true.1
    (show indexRun.all (fun a ↦ a.changesTo.isNone) = true from rfl) a ha)

/-- A server whose only route is a stream, for the path of the file. -/
def indexServer (staticFiles : StaticFileServer) (fs : FileSystem) : Server BytesMap where
  routes := [⟨.get, ascii "/index.html", .stream fun _ ↦ .done (.ok ())⟩]
  middleware := [recovery, staticFallback staticFiles fs]
  caps := smallCaps
  maxStreamingConnections := 1
  maxStreamingConnections_pos := Nat.one_pos

/-- A connection on which the path is asked for. -/
def indexState : ChainState :=
  { tickState with endpoint := { tickState.endpoint with
      incoming := [⟨ascii "GET /index.html HTTP/1.1\r\n\r\n", by decide +kernel,
        by decide +kernel⟩] } }

theorem handleConnection_staticFallback_indexState :
    (indexServer indexPoint.server indexFs).handleConnection indexState =
      (none, closeConnection (sendResponse
        (populate (.new .ok : HttpResponse BytesMap) ⟨ascii "hello", ascii "text/html"⟩)
        (afterRead (indexServer indexPoint.server indexFs) indexState))) := by
  have hpath : (readRequest smallCaps indexState.endpoint.incoming).1.request?.map
      (fun request : HttpRequest BytesMap ↦ request.path) = some (ascii "/index.html") := by
    decide +kernel
  rcases hread : (readRequest smallCaps indexState.endpoint.incoming (M := BytesMap)).1 with
    request | response | -
  · rw [hread] at hpath
    obtain ⟨hfile, -⟩ := (handleConnection_staticFallback (indexServer indexPoint.server indexFs)
      run_indexRun changesTo_indexRun [.recovery] rfl indexState).1 request rfl hread
    refine (hfile _ ?_).2
    rw [show request.path = _ from Option.some.inj hpath]
    decide +kernel
  · rw [hread] at hpath
    cases hpath
  · rw [hread] at hpath
    cases hpath

/-- **What lies outside the root directory shows on no connection.** Take two servers that ask a
file server, with the same middlewares in front and behind, over filesystems that look the same from
the root directory. Whatever the threads of each have called before, and under whatever eviction
policies and cache capacities: they do the same on every connection. -/
theorem handleConnection_confined (server : Server M) (hfs : fs.SameUnder rootDirectory fs')
    (hrun : (serving ι opens rootDirectory policy cacheCapacity fs).run as = some t)
    (hunchanged : ∀ a ∈ as, a.changesTo = none) {policy' : EvictionPolicy} {cacheCapacity' : ℕ}
    {as' : List (ServingAction ι M)} {t' : ServingState ι M}
    (hrun' : (serving ι opens rootDirectory policy' cacheCapacity' fs').run as' = some t')
    (hunchanged' : ∀ a ∈ as', a.changesTo = none) (front back : List (MiddlewareFn M))
    (s : ChainState) :
    ({ server with middleware := front ++ staticFallback t.server fs :: back } :
        Server M).handleConnection s =
      ({ server with middleware := front ++ staticFallback t'.server fs' :: back } :
        Server M).handleConnection s := by
  have hsame : (staticFallback t.server fs : MiddlewareFn M) = staticFallback t'.server fs' := by
    funext request response
    rw [staticFallback_eq (cacheAnswers_of_run hrun hunchanged),
      staticFallback_eq (cacheAnswers_of_run hrun' hunchanged'), lookup_congr hfs]
  rw [hsame]

theorem handleConnection_confined_indexState :
    (indexServer indexPoint.server indexFs).handleConnection indexState =
      (indexServer (fresh (ascii "/srv") (fun _ _ _ ↦ false) 0)
        (linkTo (ascii "/etc/shadow") (ascii "two"))).handleConnection indexState := by
  have hfs : indexFs.SameUnder (ascii "/srv") (linkTo (ascii "/etc/shadow") (ascii "two")) :=
    sameUnder_linkTo _ _ (by decide) (by decide)
  have hrun : (serving (M := BytesMap) Unit (fun _ ↦ none) (ascii "/srv") (fun _ _ _ ↦ false) 0
      (linkTo (ascii "/etc/shadow") (ascii "two"))).run [] = some ⟨_, _, fun _ ↦ none⟩ := rfl
  exact handleConnection_confined (indexServer indexPoint.server indexFs) hfs run_indexRun
    changesTo_indexRun hrun (fun a ha ↦ absurd ha List.not_mem_nil) [recovery] [] indexState

end Shared

end Server

end FalconHTTP
