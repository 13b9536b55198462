import FalconHTTP.Core.Server

/-!
# The rules of the chain

Only one place in the chain touches the connection: the end of the chain, when a stream route
matches and gets a slot (`Enters`). `endOfChain_of_enters` and `endOfChain_of_not_enters` say all
that the end of the chain can do, and `runChain_cons` describes one level above it by the run of its
middleware against `nextCall`.

Whatever the middlewares are, `runChain_invariant` carries what the end of the chain preserves to
the whole chain. `runChain_counterOps` is a first use: each `fetch_add` on the counter of streams is
followed by one `fetch_sub`, on every way out of the chain.
-/

namespace FalconHTTP

open FiniteMap

variable {M : Type} [FiniteMap M Bytes Bytes]

namespace Server

variable (server : Server M)

/-! ### The end of the chain -/

/-- A stream route matches and gets a slot. -/
def Enters (request : HttpRequest M) (s : ChainState) (streamHandler : StreamHandler M)
    (request' : HttpRequest M) : Prop :=
  Router.matchStream request server.routes = some (streamHandler, request') ∧
    s.fetched.headD 0 < server.maxStreamingConnections

/-- The stream a handler is given. -/
abbrev startStream (response : HttpResponse M) (s : ChainState) : SseConnection × Endpoint :=
  SseConnection.new s.connection response.headers.map s.endpoint

variable {server} {request request' : HttpRequest M} {s : ChainState}
  {streamHandler : StreamHandler M}

/-- A stream route with a slot runs the handler on the connection. -/
theorem endOfChain_of_enters (response : HttpResponse M)
    (h : server.Enters request s streamHandler request') :
    (server.endOfChain request response s).result =
        (((streamHandler request').run sseCall (startStream response s)).1).map (fun _ ↦ true) ∧
      (server.endOfChain request response s).state =
        { connection := .movedFrom
          endpoint := ((streamHandler request').run sseCall (startStream response s)).2.1.destroy
            ((streamHandler request').run sseCall (startStream response s)).2.2
          fetched := s.fetched.tail
          counterOps := s.counterOps ++ [.fetchAdd (s.fetched.headD 0)] ++ [.fetchSub] } := by
  rw [endOfChain, h.1]
  simp only [if_neg (Nat.not_le.2 h.2), runStream]
  rcases ((streamHandler request').run sseCall (startStream response s)).1 with e | -
  · exact ⟨rfl, rfl⟩
  · exact ⟨rfl, rfl⟩

/-- Otherwise the connection is left alone, and the caller is told so. -/
theorem endOfChain_of_not_enters (response : HttpResponse M)
    (h : ∀ sh r, ¬ server.Enters request s sh r) :
    (server.endOfChain request response s).result ≠ .ok true ∧
      (server.endOfChain request response s).state.connection = s.connection ∧
      (server.endOfChain request response s).state.endpoint = s.endpoint := by
  rw [endOfChain]
  split
  · rename_i streamHandler request' hmatch
    have hfull : s.fetched.headD 0 ≥ server.maxStreamingConnections :=
      Nat.le_of_not_lt fun hlt ↦ h streamHandler request' ⟨hmatch, hlt⟩
    rw [if_pos hfull]
    exact ⟨by simp, rfl, rfl⟩
  · split <;> exact ⟨by simp, rfl, rfl⟩

/-- A stream route enters, or none does. -/
theorem enters_or (server : Server M) (request : HttpRequest M) (s : ChainState) :
    (∃ sh r, server.Enters request s sh r) ∨ ∀ sh r, ¬ server.Enters request s sh r := by
  by_cases h : ∃ sh r, server.Enters request s sh r
  · exact Or.inl h
  · exact Or.inr fun sh r hsr ↦ h ⟨sh, r, hsr⟩

/-! ### One level of the chain -/

section Level

variable {middleware : MiddlewareFn M} {rest : List (MiddlewareFn M)}

/-- How a level ends, in terms of the run of its middleware. -/
theorem runChain_cons (server : Server M) (middleware : MiddlewareFn M)
    (rest : List (MiddlewareFn M)) (request : HttpRequest M) (response : HttpResponse M)
    (s : ChainState) :
    (server.runChain (middleware :: rest) request response s).result =
        (((middleware request response).run (nextCall (server.runChain rest)) (false, s)).1.1).map
          (fun _ ↦ ((middleware request response).run (nextCall (server.runChain rest))
            (false, s)).2.1) ∧
      (server.runChain (middleware :: rest) request response s).state =
        ((middleware request response).run (nextCall (server.runChain rest)) (false, s)).2.2 := by
  rw [runChain]
  rcases (middleware request response).run (nextCall (server.runChain rest)) (false, s) with
    ⟨⟨e | -, -, -⟩, streamed, s'⟩
  · exact ⟨rfl, rfl⟩
  · exact ⟨rfl, rfl⟩

/-- The state after a call of `next` is the one the rest of the chain leaves. -/
@[simp] theorem nextCall_state (runRest : HttpRequest M → HttpResponse M → ChainState → ChainEnd M)
    (call : NextCall M) (s : Bool × ChainState) :
    (nextCall runRest call s).2.2 = (runRest call.1 call.2 s.2).state := by
  rw [nextCall]
  rcases (runRest call.1 call.2 s.2).result with e | streamed <;> rfl

/-- The flag after a call of `next`: overwritten by a call that returns, kept by one that throws. -/
theorem nextCall_flag (runRest : HttpRequest M → HttpResponse M → ChainState → ChainEnd M)
    (call : NextCall M) (s : Bool × ChainState) :
    (nextCall runRest call s).2.1 =
      ((runRest call.1 call.2 s.2).result.toOption).getD s.1 := by
  rw [nextCall]
  rcases (runRest call.1 call.2 s.2).result with e | streamed <;> rfl

/-- A call of `next` throws what the rest of the chain throws. -/
theorem nextCall_result (runRest : HttpRequest M → HttpResponse M → ChainState → ChainEnd M)
    (call : NextCall M) (s : Bool × ChainState) :
    (nextCall runRest call s).1.1 = ((runRest call.1 call.2 s.2).result).map (fun _ ↦ ()) := by
  rw [nextCall]
  rcases (runRest call.1 call.2 s.2).result with e | streamed <;> rfl

/-- **The rule of the chain**: what the end of the chain preserves, the chain preserves. -/
theorem runChain_invariant {I : ChainState → Prop}
    (hend : ∀ request response s, I s → I (server.endOfChain request response s).state)
    (middlewares : List (MiddlewareFn M)) (request : HttpRequest M) (response : HttpResponse M)
    (s : ChainState) (hs : I s) : I (server.runChain middlewares request response s).state := by
  induction middlewares generalizing request response s with
  | nil => exact hend request response s hs
  | cons middleware rest ih =>
    rw [(runChain_cons server middleware rest request response s).2]
    refine Interaction.run_invariant (I := fun t : Bool × ChainState ↦ I t.2) ?_ hs
    intro call t ht
    rw [nextCall_state]
    exact ih call.1 call.2 t.2 ht

end Level

/-! ### The counter of streams -/

/-- The operations of one request at the end of the chain: one `fetch_add`, then one `fetch_sub`. -/
def countedOnce (old : ℕ) : List CounterOp :=
  [.fetchAdd old, .fetchSub]

/-- **Every `fetch_add` is followed by one `fetch_sub`**, whether the request is refused, its
handler returns or its handler throws. -/
theorem runChain_counterOps (server : Server M) (middlewares : List (MiddlewareFn M))
    (request : HttpRequest M) (response : HttpResponse M) (s : ChainState) :
    ∃ olds : List ℕ, (server.runChain middlewares request response s).state.counterOps =
      s.counterOps ++ olds.flatMap countedOnce := by
  refine runChain_invariant
    (I := fun t ↦ ∃ olds : List ℕ, t.counterOps = s.counterOps ++ olds.flatMap countedOnce)
    (fun request response t ht ↦ ?_) middlewares request response s ⟨[], (List.append_nil _).symm⟩
  obtain ⟨olds, ht⟩ := ht
  have hadd : ∀ old, t.counterOps ++ [.fetchAdd old] ++ [.fetchSub] =
      s.counterOps ++ (olds ++ [old]).flatMap countedOnce := by
    intro old
    simp [ht, countedOnce]
  rcases enters_or server request t with ⟨streamHandler, request', henters⟩ | hnot
  · rw [(endOfChain_of_enters response henters).2]
    exact ⟨olds ++ [t.fetched.headD 0], hadd _⟩
  · rw [endOfChain]
    split
    · rename_i streamHandler request' hmatch
      rw [if_pos (Nat.le_of_not_lt fun hlt ↦ hnot streamHandler request' ⟨hmatch, hlt⟩)]
      exact ⟨olds ++ [t.fetched.headD 0], hadd _⟩
    · split <;> exact ⟨olds, ht⟩

/-! ### Servers with the same chain -/

/-- A chain does not depend on which middlewares the server has, beyond those it runs. -/
theorem runChain_with_middleware (server : Server M)
    (middleware middlewares : List (MiddlewareFn M)) :
    ({ server with middleware := middleware } : Server M).runChain middlewares =
      server.runChain middlewares := by
  induction middlewares with
  | nil => rfl
  | cons m rest ih =>
    funext request response s
    rw [runChain, runChain, ih]

/-- What a server does on a connection depends on its size caps and its chain. -/
theorem handleConnection_congr {server server' : Server M}
    (hchain : server.runChain server.middleware = server'.runChain server'.middleware)
    (hcaps : server.caps = server'.caps) (s : ChainState) :
    server.handleConnection s = server'.handleConnection s := by
  have hrespond : server.respond = server'.respond := by
    funext request s
    rw [respond, respond, hchain]
  rw [handleConnection, handleConnection, hcaps, hrespond]

end Server

end FalconHTTP
