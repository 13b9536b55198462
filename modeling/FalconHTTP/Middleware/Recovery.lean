import FalconHTTP.Core.Server
import FalconHTTP.HTTP.HeaderNames

/-!
# The recovery middleware

`Recovery` calls `next` once and turns whatever it throws into a 500 response. Its log line goes to
the standard error stream and is left out.

It sets the status and the body of the response that the rest of the chain has worked on, and leaves
the headers alone. So the 500 is the one it would send for a handler that throws at once exactly
when the headers that were set on the way have the values they had before
(`recovery_leavesNoTrace_iff`).
-/

namespace FalconHTTP

open FiniteMap

variable {M : Type} [FiniteMap M Bytes Bytes]

/-- Turn an exception of the rest of the chain into a 500. -/
def recovery : MiddlewareFn M := fun request response ↦
  .call (request, response) fun r ↦
    match r with
    | (.ok (), request, response) => .done (.ok (), request, response)
    | (.error _, request, response) =>
      let response := (response.setStatus .internalServerError).setBody
        (ascii "Internal Server Error")
      .done (.ok (), request, response)

/-- The recovery middleware never throws. -/
theorem recovery_ensures_ok (request : HttpRequest M) (response : HttpResponse M)
    (A : NextCall M → NextResult M → Prop) :
    (recovery request response).Ensures A fun r ↦ r.1 = .ok () := by
  rintro ⟨e | -, request', response'⟩ -
  · exact rfl
  · exact rfl

/-! ### What a failed handler leaves behind -/

/-- A call that changes a response. -/
inductive ResponseCall
  /-- `setStatus`. -/
  | setStatus (status : HttpStatus)
  /-- `setHeader`. -/
  | setHeader (name value : Bytes)
  /-- `setBody`. -/
  | setBody (body : Bytes)
  /-- `setJson`, with the text that the value is dumped to. -/
  | setJson (dump : Bytes)

namespace ResponseCall

/-- The response after the call. -/
def apply (response : HttpResponse M) : ResponseCall → HttpResponse M
  | setStatus status => response.setStatus status
  | setHeader name value => response.setHeader name value
  | setBody body => response.setBody body
  | setJson dump => response.setJson dump

/-- The header that the call sets. -/
def header? : ResponseCall → Option (Bytes × Bytes)
  | setHeader name value => some (name, value)
  | setJson _ => some (ascii "Content-Type", ascii "application/json")
  | setStatus _ => none
  | setBody _ => none

/-- The headers after a sequence of calls. -/
theorem headers_foldl_apply (calls : List ResponseCall) (response : HttpResponse M) :
    (calls.foldl apply response).headers =
      response.headers.setHeaders (calls.filterMap header?) := by
  induction calls generalizing response with
  | nil => rfl
  | cons call calls ih =>
    rw [List.foldl_cons, ih]
    cases call with
    | setStatus status => rfl
    | setHeader name value => rfl
    | setBody body => rfl
    | setJson dump => rfl

end ResponseCall

/-- The rest of a chain that makes the given calls on the response it is passed, and then throws; it
may also leave another request behind. -/
def throwsAfter (calls : List ResponseCall) (e : Exn) (left : HttpRequest M) (call : NextCall M)
    (s : Unit) : NextResult M × Unit :=
  ((.error e, left, calls.foldl ResponseCall.apply call.2), s)

/-- What `recovery` does with such a chain. -/
def recovered (calls : List ResponseCall) (e : Exn) (request left : HttpRequest M)
    (response : HttpResponse M) : NextResult M :=
  ((recovery request response).run (throwsAfter calls e left) ()).1

/-- Two responses are the same answer: their headers are compared as maps. -/
structure SameAnswer (response response' : HttpResponse M) : Prop where
  /-- The statuses agree. -/
  status_eq : response.status = response'.status
  /-- The bodies agree. -/
  body_eq : response.body = response'.body
  /-- The headers agree. -/
  find?_headers : ∀ name, response.headers.find? name = response'.headers.find? name

/-- The answer of `recovery` to a chain that fails after the given calls: it returns, and the
response is the one it would leave had the chain thrown before any of them, a 500 with the generic
body and the headers that were there before. -/
structure LeavesNoTrace (calls : List ResponseCall) (e : Exn) (request left : HttpRequest M)
    (response : HttpResponse M) : Prop where
  /-- The exception is caught. -/
  caught : (recovered calls e request left response).1 = .ok ()
  /-- The calls make no difference. -/
  same : SameAnswer (recovered calls e request left response).2.2
    (recovered [] e request left response).2.2
  /-- The answer is a 500. -/
  answer : SameAnswer (recovered calls e request left response).2.2
    { response with
      status := .internalServerError
      body := ascii "Internal Server Error" }

/-- `recovery` keeps the headers of the response, whatever the chain has made of them. -/
theorem recovered_eq (calls : List ResponseCall) (e : Exn) (request left : HttpRequest M)
    (response : HttpResponse M) :
    recovered calls e request left response = (.ok (), left,
      { status := .internalServerError
        headers := response.headers.setHeaders (calls.filterMap ResponseCall.header?)
        body := ascii "Internal Server Error" }) := by
  rw [← ResponseCall.headers_foldl_apply]
  rfl

/-- **When a failed handler leaves no trace in the 500**: exactly when every header that one of its
calls sets ends up with the value it had when `recovery` was entered. -/
theorem recovery_leavesNoTrace_iff (calls : List ResponseCall) (e : Exn)
    (request left : HttpRequest M) (response : HttpResponse M) :
    LeavesNoTrace calls e request left response ↔
      ∀ name value, lastValue (calls.filterMap ResponseCall.header?) name = some value →
        response.headers.find? name = some value := by
  have hfind := response.headers.find?_setHeaders (calls.filterMap ResponseCall.header?)
  constructor
  · intro h name value hlast
    have hsame := h.answer.find?_headers name
    rw [recovered_eq] at hsame
    rw [hfind, hlast] at hsame
    exact hsame.symm
  · intro h
    have hheaders : ∀ name, (response.headers.setHeaders
        (calls.filterMap ResponseCall.header?)).find? name = response.headers.find? name := by
      intro name
      rw [hfind]
      rcases hlast : lastValue (calls.filterMap ResponseCall.header?) name with - | value
      · exact Option.none_or
      · exact (h name value hlast).symm
    refine ⟨?_, ?_, ?_⟩
    · rw [recovered_eq]
    · rw [recovered_eq, recovered_eq]
      exact ⟨rfl, rfl, hheaders⟩
    · rw [recovered_eq]
      exact ⟨rfl, rfl, hheaders⟩

/-- A handler that sets a JSON body and then throws leaves a plain text that claims to be JSON. -/
theorem not_leavesNoTrace_setJson :
    ¬ LeavesNoTrace [.setJson (ascii "[]")] .other (HttpRequest.new : HttpRequest BytesMap) .new
      (.new .ok) := by
  intro h
  exact absurd (h.answer.find?_headers (ascii "content-type")) (by decide +kernel)

end FalconHTTP
