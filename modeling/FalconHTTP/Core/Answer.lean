import FalconHTTP.Core.Incomplete

/-!
# The answer of a server

A server without stream routes is a function from requests to responses: its chain neither looks at
the connection nor changes it (`runChain_eq_plainChain`). `Server.answer` is that function, with the
500 of the `catch` block for an exception, and `Server.replyTo` is what the server writes for each
way reading can end.

So handling a connection writes a prefix of the reply, and all of it if no send fails
(`handleConnection_reply`).
-/

namespace FalconHTTP

open FiniteMap

variable {M : Type} [FiniteMap M Bytes Bytes]

namespace Server

variable (server : Server M)

/-- No stream route is registered. -/
def NoStreams : Prop :=
  ∀ route ∈ server.routes, ∃ handler, route.target = .normal handler

/-- The end of the chain, where no stream route matches. -/
def plainEnd (request : HttpRequest M) (response : HttpResponse M) : NextResult M :=
  match Router.dispatch server.routes request response with
  | (.error e, request, response) => (.error e, request, response)
  | (.ok .notFound, request, response) =>
    (.ok (), request, (response.setStatus .notFound).setBody (ascii "Not Found"))
  | (.ok .methodNotAllowed, request, response) =>
    (.ok (), request, (response.setStatus .methodNotAllowed).setBody (ascii "Method Not Allowed"))
  | (.ok .matched, request, response) => (.ok (), request, response)

/-- The chain, on a server without stream routes. -/
def plainChain : List (MiddlewareFn M) → HttpRequest M → HttpResponse M → NextResult M
  | [], request, response => server.plainEnd request response
  | middleware :: rest, request, response =>
    ((middleware request response).run
      (fun call (_ : Unit) ↦ (plainChain rest call.1 call.2, ())) ()).1

/-- What the server answers to a request. -/
def answer (request : HttpRequest M) : HttpResponse M :=
  match server.plainChain server.middleware request (.new .ok) with
  | (.ok (), _, response) => response
  | (.error _, _, _) => internalServerError

/-- What the server writes once reading has ended. -/
def replyTo : ReadOutcome M → Bytes
  | .closed => []
  | .rejected response => HttpSerializer.serialize response
  | .request request => HttpSerializer.serialize (server.answer request)

variable {server}

/-- Without stream routes none matches. -/
theorem NoStreams.matchStream_eq_none (h : server.NoStreams) (request : HttpRequest M) :
    Router.matchStream request server.routes = none := by
  rcases hmatch : Router.matchStream request server.routes with - | ⟨streamHandler, request'⟩
  · rfl
  · obtain ⟨route, hroute, htarget⟩ := Router.mem_of_matchStream hmatch
    obtain ⟨handler, hnormal⟩ := h route hroute
    rw [hnormal] at htarget
    cases htarget

/-- Where no stream route matches, the end of the chain leaves the connection alone. -/
theorem endOfChain_eq_plainEnd {request : HttpRequest M}
    (h : Router.matchStream request server.routes = none) (response : HttpResponse M)
    (s : ChainState) :
    server.endOfChain request response s =
      ⟨(server.plainEnd request response).1.map fun _ ↦ false,
        (server.plainEnd request response).2.1, (server.plainEnd request response).2.2, s⟩ := by
  rw [endOfChain, h, plainEnd]
  rcases Router.dispatch server.routes request response with ⟨e | result, request', response'⟩
  · rfl
  · cases result with
    | matched => rfl
    | notFound => rfl
    | methodNotAllowed => rfl

/-- **The chain is a function of the request and the response**: it does not depend on the
connection, and leaves it alone. -/
theorem runChain_eq_plainChain (h : server.NoStreams) (middlewares : List (MiddlewareFn M))
    (request : HttpRequest M) (response : HttpResponse M) (s : ChainState) :
    server.runChain middlewares request response s =
      ⟨(server.plainChain middlewares request response).1.map fun _ ↦ false,
        (server.plainChain middlewares request response).2.1,
        (server.plainChain middlewares request response).2.2, s⟩ := by
  induction middlewares generalizing request response s with
  | nil => exact endOfChain_eq_plainEnd (h.matchStream_eq_none request) response s
  | cons middleware rest ih =>
    -- the flag of this level is never set, and the state never changes
    obtain ⟨hresult, hstate⟩ : ((middleware request response).run (nextCall (server.runChain rest))
          (false, s)).1 =
        ((middleware request response).run
          (fun call (_ : Unit) ↦ (server.plainChain rest call.1 call.2, ())) ()).1 ∧
        ((middleware request response).run (nextCall (server.runChain rest)) (false, s)).2 =
          (false, s) := by
      refine Interaction.run_simulation (fun t _ ↦ t = (false, s)) ?_ rfl
      rintro call t - rfl
      rw [nextCall, ih]
      rcases server.plainChain rest call.1 call.2 with ⟨e | ⟨⟩, request', response'⟩
      · exact ⟨rfl, rfl⟩
      · exact ⟨rfl, rfl⟩
    rw [runChain, plainChain, ← hresult]
    rcases hrun : (middleware request response).run (nextCall (server.runChain rest)) (false, s)
      with ⟨result, streamed, s'⟩
    rw [hrun] at hstate
    obtain ⟨rfl, rfl⟩ := Prod.mk.inj hstate
    rcases result with ⟨e | ⟨⟩, request', response'⟩
    · rfl
    · rfl

/-- The answer to a request is written, and the connection closed. -/
theorem respond_eq_answer (h : server.NoStreams) (hstd : server.ThrowsStd)
    (request : HttpRequest M) (s : ChainState) :
    server.respond request s =
      (none, closeConnection (sendResponse (server.answer request) s)) := by
  have honly := runChain_onlyStd hstd (fun _ hm ↦ hm) request (.new .ok) s
  rw [runChain_eq_plainChain h] at honly
  rw [respond, runChain_eq_plainChain h, answer]
  generalize server.plainChain server.middleware request (.new .ok) = left at honly ⊢
  rcases left with ⟨e | ⟨⟩, request', response'⟩
  · cases e with
    | std what => rfl
    | other => exact absurd (honly .other rfl) (by decide)
  · rfl

/-- Handling a connection ends in writing a prefix of the reply, all of it if no send fails. -/
theorem handleConnection_of_outcome (h : server.NoStreams) (hstd : server.ThrowsStd)
    {s : ChainState} (hopen : s.connection.isOpen) {outcome : ReadOutcome M}
    (hread : (readRequest server.caps s.endpoint.incoming).1 = outcome) :
    (server.handleConnection s).1 = none ∧
      (server.handleConnection s).2.endpoint.closed = true ∧
      ∃ accepted, (server.handleConnection s).2.endpoint.sent = s.endpoint.sent ++ accepted ∧
        accepted <+: server.replyTo outcome ∧
        (s.endpoint.AcceptsWrites → accepted = server.replyTo outcome) := by
  have hunhandled : ∀ response : Bytes, server.Unhandled s response →
      (server.handleConnection s).1 = none ∧
        (server.handleConnection s).2.endpoint.closed = true ∧
        ∃ accepted, (server.handleConnection s).2.endpoint.sent = s.endpoint.sent ++ accepted ∧
          accepted <+: response ∧ (s.endpoint.AcceptsWrites → accepted = response) :=
    fun response hresponse ↦ ⟨hresponse.not_escaped, hresponse.closed, hresponse.sent⟩
  cases outcome with
  | closed => exact hunhandled [] (unhandled_of_closed hopen hread)
  | rejected response => exact hunhandled _ (unhandled_of_rejected hopen hread)
  | request request =>
    have hread' : (afterRead server s).connection.isOpen := hopen
    have hhandle : server.handleConnection s =
        (none, closeConnection (sendResponse (server.answer request) (afterRead server s))) := by
      rw [handleConnection_of_isOpen hopen hread, settle, respond_eq_answer h hstd]
      exact congrArg _ (closeConnection_closeConnection hread')
    have hclose := closeConnection_of_isOpen
      (show (sendResponse (server.answer request) (afterRead server s)).connection.isOpen from
        hopen)
    obtain ⟨accepted, endpoint, hsend, hprefix, htook⟩ := Connection.sendAll_spec s.connection
      (HttpSerializer.serialize (server.answer request)) (afterRead server s).endpoint
    have hwritten : (sendResponse (server.answer request) (afterRead server s)).endpoint =
        endpoint := congrArg Prod.snd hsend
    rw [hhandle, hclose]
    refine ⟨rfl, rfl, accepted, ?_, hprefix, fun haccepts ↦ ?_⟩
    · show (sendResponse (server.answer request) (afterRead server s)).endpoint.sent = _
      rw [hwritten]
      exact htook.sent
    · obtain ⟨endpoint', hall, -⟩ := Connection.sendAll_of_acceptsWrites hopen
        (show (afterRead server s).endpoint.AcceptsWrites from haccepts)
        (HttpSerializer.serialize (server.answer request))
      exact of_decide_eq_true (congrArg Prod.fst (hsend.symm.trans hall))

end Server

end FalconHTTP
