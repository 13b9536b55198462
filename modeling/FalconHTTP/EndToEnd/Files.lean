import FalconHTTP.EndToEnd.Exchange
import FalconHTTP.FileServer.Fallback

/-!
# A file on its way to the client

The client calls a path, and the server has a file for it. What the client gets is the content of
that file, byte by byte, whatever is in it, under the type that goes with its extension
(`exchange_file`). All parts have to work together for this: the request as it is built and read,
the path as it is resolved and checked, the cache that other threads use, the response as it is
written and read, and the two sides as they wait for each other.

The type is one of a table, so the headers of the response need no condition. The call has to fit
the caps of the server, and the response the limit of the client.
-/

namespace FalconHTTP

open FiniteMap HttpClient StaticFileServer

variable {M : Type} [FiniteMap M Bytes Bytes]

/-! ### The response -/

/-- A text without blanks and carriage returns. -/
def Unbroken (text : Bytes) : Prop :=
  ∀ c ∈ text, isBlank c = false ∧ c ≠ 13

instance (text : Bytes) : Decidable (Unbroken text) :=
  inferInstanceAs (Decidable (∀ c ∈ text, isBlank c = false ∧ c ≠ 13))

theorem Unbroken.ite {p : Prop} [Decidable p] {a b : Bytes} (ha : Unbroken a) (hb : Unbroken b) :
    Unbroken (if p then a else b) := by
  split
  · exact ha
  · exact hb

/-- All types of the table are such texts. -/
theorem unbroken_mimeTypeFromExtension (extension : Bytes) :
    Unbroken (mimeTypeFromExtension extension) := by
  rw [mimeTypeFromExtension]
  repeat refine Unbroken.ite (by decide +kernel) ?_
  decide +kernel

/-- What the disk answers with has the type of its extension. -/
theorem contentType_of_lookup {rootDirectory : Path} {fs : FileSystem} {requestPath : Bytes}
    {entry : Entry} (h : lookup rootDirectory fs requestPath = .ok (some entry)) :
    entry.contentType =
      mimeTypeFromExtension (Path.extension (fullPath rootDirectory requestPath)) := by
  rw [lookup_eq] at h
  split at h
  · rcases hreach : fs.reach (fullPath rootDirectory requestPath) with
      - | - | ⟨contents, - | -⟩ | - | what
    all_goals rw [hreach] at h
    · cases h
    · cases h
    · cases h
    · obtain rfl := Option.some.inj (Except.ok.inj h)
      rfl
    · cases h
    · cases h
  · cases h

/-- The only header that is stored is the type. -/
theorem find?_populate (entry : Entry) (name : Bytes) :
    find? (populate (.new .ok : HttpResponse M) entry).headers.map name =
      if name = ascii "content-type" then some entry.contentType else none := by
  have hlower : toLowerAscii (ascii "Content-Type") = ascii "content-type" := by decide +kernel
  show find? (put FiniteMap.empty (toLowerAscii (ascii "Content-Type")) entry.contentType) name = _
  rw [find?_put, hlower, find?_empty]

/-- The client has the file: a 200 with its content and its type. -/
structure HasFile (entry : Entry) (response : ClientResponse M) : Prop where
  /-- The status. -/
  statusCode : response.statusCode = 200
  /-- The content. -/
  body : response.body = entry.content
  /-- The type. -/
  contentType : find? response.headers (ascii "content-type") = some entry.contentType

theorem hasFile_receivedResponse (entry : Entry) :
    HasFile entry (receivedResponse (populate (.new .ok : HttpResponse M) entry)) where
  statusCode := rfl
  body := rfl
  contentType := by
    rw [find?_receivedResponse, if_neg (by decide +kernel), if_neg (by decide +kernel),
      find?_populate, if_pos rfl]

/-! ### The answer of the server -/

section Answers

variable {server : Server M} {rootDirectory : Path} {fs : FileSystem}
  {staticFiles : StaticFileServer} {outer : List Server.Outer} {inner : List (MiddlewareFn M)}
  {entry : Entry}

/-- The answer is the file. -/
theorem Server.answer_of_file (h : CacheAnswers rootDirectory [fs] staticFiles)
    (hmiddleware : server.middleware =
      outer.map Server.Outer.middleware ++ staticFallback staticFiles fs :: inner)
    {request : HttpRequest M} (hlookup : lookup rootDirectory fs request.path = .ok (some entry)) :
    server.answer request = populate (.new .ok) entry := by
  have hchain : server.plainChain (staticFallback staticFiles fs :: inner) request (.new .ok) =
      (.ok (), request, populate (.new .ok) entry) := by
    rw [plainChain, staticFallback_eq h, hlookup]
    rfl
  rw [answer, hmiddleware, plainChain_outer_of_ok outer hchain]

/-- A call for a file fits as soon as it fits the caps, and the file the limit of the client. -/
theorem Call.fits_of_file {options : ClientOptions} {call : Call M} (hno : server.NoStreams)
    (hstd : server.ThrowsStd)
    (hheader : call.bytes.length - call.body.length ≤ server.caps.maxHeaderSize)
    (hbody : call.body.length ≤ server.caps.maxBodySize)
    (hanswer : server.answer call.request = populate (.new .ok) entry)
    (htype : Unbroken entry.contentType)
    (hsize : (HttpSerializer.serialize (populate (.new .ok : HttpResponse M) entry)).length ≤
      options.maxResponseSize) : call.Fits server options where
  noStreams := hno
  throwsStd := hstd
  header := hheader
  body := hbody
  headers name value hstored := by
    rw [hanswer, find?_populate] at hstored
    split at hstored
    · rename_i hname
      obtain rfl := Option.some.inj hstored
      subst hname
      refine ⟨by decide +kernel, fun hcr ↦ (htype 13 hcr).2 rfl, fun c hc ↦ ?_, fun c hc ↦ ?_⟩
      · exact (htype c (List.mem_of_mem_head? hc)).1
      · exact (htype c (List.mem_of_mem_getLast? hc)).1
    · cases hstored
  size := hanswer ▸ hsize

end Answers

/-! ### What the client gets -/

section Calls

variable {server : Server M} {options : ClientOptions} {call : Call M} {room : ℕ}
  {actions : List (ExchangeAction (Chunk defaultReadChunk))} {s : ExchangePoint M}
  {ι : Type*} [DecidableEq ι] {opens : Node → Option Bytes} {rootDirectory : Path}
  {policy : EvictionPolicy} {cacheCapacity : ℕ} {fs : FileSystem} {as : List (ServingAction ι M)}
  {t : ServingState ι M} {inner : List (MiddlewareFn M)} {entry : Entry}

/-- **A file gets to the client as it is.** A server without stream routes, which throws nothing but
`std::exception`s, asks a file server behind logging and recovery, in front of any other middlewares
and routes, and the threads have called the file server in whatever way over one filesystem. A
client calls a path, with any method and with a head and a body within the caps, that leads to a
regular file which can be read and whose response is within the client's limit: then this file is
under the root directory, and

* in every interleaving of the two sides, wherever the connection breaks, a response that the client
  returns is a 200 with the content of the file and the type of its extension;
* the exchange is bounded, and where neither side can go on and the connection did not break, the
  client has returned it. -/
theorem exchange_file (outer : List Server.Outer)
    (hrun : (serving ι opens rootDirectory policy cacheCapacity fs).run as = some t)
    (hunchanged : ∀ a ∈ as, a.changesTo = none)
    (hmiddleware : server.middleware =
      outer.map Server.Outer.middleware ++ staticFallback t.server fs :: inner)
    (hno : server.NoStreams) (hstd : server.ThrowsStd)
    (hheader : call.bytes.length - call.body.length ≤ server.caps.maxHeaderSize)
    (hbody : call.body.length ≤ server.caps.maxBodySize)
    (hlookup : lookup rootDirectory fs call.path = .ok (some entry))
    (hsize : (HttpSerializer.serialize (populate (.new .ok : HttpResponse M) entry)).length ≤
      options.maxResponseSize) (hroom : 0 < room)
    (h : (exchange server options call.bytes room hroom).system.run actions = some s) :
    ServesFile rootDirectory fs call.path entry.content ∧
    entry.contentType = mimeTypeFromExtension (Path.extension (fullPath rootDirectory call.path)) ∧
    (∀ response, s.result = some (some response) → HasFile entry response) ∧
    actions.length ≤ 2 * call.bytes.length +
      2 * (HttpSerializer.serialize (populate (.new .ok : HttpResponse M) entry)).length + 5 ∧
    ((∀ a, a.ofParty →
        (exchange server options call.bytes room hroom).system.step s a = none) →
      s.broken = false → ∃ response, s.result = some (some response) ∧ HasFile entry response) := by
  have hanswer : server.answer call.request = populate (.new .ok) entry :=
    Server.answer_of_file (cacheAnswers_of_run hrun hunchanged) hmiddleware hlookup
  have htype := contentType_of_lookup hlookup
  have hfits : call.Fits server options := Call.fits_of_file hno hstd hheader hbody hanswer
    (htype ▸ unbroken_mimeTypeFromExtension _) hsize
  have hdelimited := hfits.delimited room hroom
  rw [hanswer] at hdelimited
  refine ⟨servesFile_of_lookup hlookup, htype, fun response hresponse ↦ ?_, ?_,
    fun hstuck hbroken ↦ ?_⟩
  · rcases (Exchange.safe_of_run hdelimited h).2 _ hresponse with ⟨heq, -⟩ | hnone
    · rw [Option.some.inj heq]
      exact hasFile_receivedResponse entry
    · exact absurd hnone (by simp [exchange])
  · have hbound := Exchange.length_le_of_run hdelimited h
    rwa [show (exchange server options call.bytes room hroom).reply (.request call.request) =
      HttpSerializer.serialize (server.answer call.request) from rfl, hanswer] at hbound
  · exact ⟨_, ((Exchange.final_of_stuck hdelimited h hstuck).2 hbroken).2,
      hasFile_receivedResponse entry⟩

/-- A server without routes, behind the recovery middleware and the file server. -/
def indexOnlyServer : Server BytesMap where
  routes := []
  middleware := [recovery, staticFallback Server.indexPoint.server Server.indexFs]
  caps := helloServer.caps
  maxStreamingConnections := 1
  maxStreamingConnections_pos := Nat.one_pos

theorem indexOnlyServer_throwsStd : indexOnlyServer.ThrowsStd where
  middleware m hm request response := by
    rcases List.mem_pair.1 hm with rfl | rfl
    · refine (recovery_ensures_ok request response _).mono fun r hr ↦ ?_
      rw [hr]
      exact onlyStd_ok ()
    · exact staticFallback_ensures_onlyStd _ _ request response
  normal route hroute := absurd hroute List.not_mem_nil
  stream route hroute := absurd hroute List.not_mem_nil

/-- A call of the path of the file. -/
def indexCall : Call BytesMap where
  method := .get
  host := ascii "127.0.0.1"
  port := 80
  path := ascii "/index.html"
  body := []
  headers := FiniteMap.empty
  safe := { helloCall.safe with
    space_notMem := by decide +kernel
    query_notMem := by decide +kernel
    cr_notMem := by decide +kernel }

/-- The file as it is written. -/
def indexAnswer : Bytes :=
  HttpSerializer.serialize
    (populate (.new .ok : HttpResponse BytesMap) ⟨ascii "hello", ascii "text/html"⟩)

/-- A run in which each side reads what the other has written at once. -/
def indexCallRun : List (ExchangeAction (Chunk defaultReadChunk)) :=
  [.clientWrite indexCall.bytes.length, .clientTurn,
    .serverRead ⟨indexCall.bytes, by decide +kernel, by decide +kernel⟩,
    .serverWrite indexAnswer.length, .serverClose,
    .clientRead ⟨indexAnswer, by decide +kernel, by decide +kernel⟩]

theorem exchange_file_indexCallRun : ∃ s,
    (exchange indexOnlyServer helloOptions indexCall.bytes 200 (by decide)).system.run
      indexCallRun = some s ∧
    ∃ response : ClientResponse BytesMap, s.result = some (some response) ∧
      response.body = ascii "hello" := by
  have hrun : ((exchange indexOnlyServer helloOptions indexCall.bytes 200
      (by decide)).system.run indexCallRun).map (fun s ↦ (s.client, s.server, s.broken)) =
        some (.returned, .closed, false) := by
    decide +kernel
  obtain ⟨s, hs, hparts⟩ := Option.map_eq_some_iff.1 hrun
  simp only [Prod.mk.injEq] at hparts
  obtain ⟨hclient, hserver, hbroken⟩ := hparts
  obtain ⟨-, -, -, -, hdone⟩ := exchange_file [.recovery] Server.run_indexRun
    Server.changesTo_indexRun rfl (fun route hroute ↦ absurd hroute List.not_mem_nil)
    indexOnlyServer_throwsStd (by decide +kernel) (by decide +kernel)
    (show lookup _ _ _ = .ok (some ⟨ascii "hello", ascii "text/html"⟩) by decide +kernel)
    (by decide +kernel) (by decide) hs
  obtain ⟨response, hresponse, hfile⟩ := hdone
    (fun a hparty ↦ Exchange.step_of_final ⟨hclient, hserver⟩ hparty) hbroken
  exact ⟨s, hs, response, hresponse, hfile.body⟩

end Calls

end FalconHTTP
