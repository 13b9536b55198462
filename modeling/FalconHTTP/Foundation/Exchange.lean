import FalconHTTP.Foundation.TransitionSystem
import FalconHTTP.Foundation.WorkerPool

/-!
# One exchange over two streams

A client writes a request and then reads a reply; a server reads the request, writes a reply that
depends on what it read, and closes. Each direction is a stream with at most `room` elements in
flight: a write puts a part of what is left on it, a read takes a piece off its front, and the
connection may break at any time. Every order of these steps is a run of `Exchange.system`.

Both sides read with a `Reader`, which is fed one piece after the other until it has a result. A
reader *delimits* a message if it has its result exactly when the message is complete, however the
message is cut (`Reader.Delimits`).

* `Exchange.inv_of_run`: in every run, what a party has read is what its reader makes of a prefix of
  what the other party writes.
* `Exchange.safe_of_run`: if the readers delimit the messages, the server reads the request at most
  once and nothing else, and the client returns the reply to it or gives up, whether or not the
  connection breaks.
* `Exchange.length_le_of_run`, `Exchange.exists_step`, `Exchange.final_of_stuck`: every run is
  bounded, no reachable state is stuck before both parties are done, and a run in which neither
  party can go on has brought the reply to the client, unless the connection broke.
* `Exchange.pooled_serves`: a server that takes part in many exchanges with few workers brings each
  of them to its end.
-/

/-- How a stream ends for its reader. -/
inductive EndOfStream
  /-- The other side has closed. -/
  | closed
  /-- The connection has failed. -/
  | failed
  deriving DecidableEq

/-! ### Readers -/

/-- A reader that takes in a stream piece by piece. -/
structure Reader (κ σ ρ : Type*) where
  /-- The state before the first piece. -/
  start : σ
  /-- The state after one more piece. -/
  feed : σ → κ → σ
  /-- What was read, once no further piece is needed. -/
  result? : σ → Option ρ
  /-- What was read when the stream ends instead. -/
  finish : σ → EndOfStream → ρ
  /-- Some piece is needed. -/
  result?_start : result? start = none

/-- The pieces a stream can be cut into: none is empty, and one element is a piece. -/
structure Pieces (α κ : Type*) where
  /-- The elements of a piece. -/
  content : κ → List α
  /-- No piece is empty. -/
  content_ne_nil : ∀ k, content k ≠ []
  /-- The piece of one element. -/
  single : α → κ
  /-- It holds that element. -/
  content_single : ∀ a, content (single a) = [a]

namespace Pieces

variable {α κ : Type*} (P : Pieces α κ)

/-- The stream that pieces are cut from. -/
def stream (cuts : List κ) : List α :=
  cuts.flatMap P.content

@[simp] theorem stream_nil : P.stream [] = [] := rfl

theorem stream_concat (cuts : List κ) (k : κ) :
    P.stream (cuts ++ [k]) = P.stream cuts ++ P.content k := by
  simp [stream]

@[simp] theorem stream_append (cuts cuts' : List κ) :
    P.stream (cuts ++ cuts') = P.stream cuts ++ P.stream cuts' := by
  simp [stream]

/-- The pieces of one element each. -/
@[simp] theorem stream_map_single (l : List α) : P.stream (l.map P.single) = l := by
  induction l with
  | nil => rfl
  | cons a l ih =>
    show P.content (P.single a) ++ P.stream (l.map P.single) = a :: l
    rw [P.content_single, ih]
    rfl

/-- An empty stream is cut into no pieces. -/
theorem eq_nil_of_stream_eq_nil {cuts : List κ} (h : P.stream cuts = []) : cuts = [] := by
  rcases cuts with - | ⟨k, cuts⟩
  · rfl
  · exact absurd (List.append_eq_nil_iff.1 h).1 (P.content_ne_nil k)

end Pieces

namespace Reader

variable {α κ σ ρ : Type*} (R : Reader κ σ ρ)

/-- The state after a number of pieces. -/
def feedAll (cuts : List κ) : σ :=
  cuts.foldl R.feed R.start

@[simp] theorem feedAll_nil : R.feedAll [] = R.start := rfl

theorem feedAll_concat (cuts : List κ) (k : κ) :
    R.feedAll (cuts ++ [k]) = R.feed (R.feedAll cuts) k := by
  simp [feedAll]

/-- What is read from pieces and an ending. -/
def read (cuts : List κ) (e : EndOfStream) : ρ :=
  (R.result? (R.feedAll cuts)).getD (R.finish (R.feedAll cuts) e)

/-- The reader has its result `r` when the message is complete, not before, and reads `lost` when
the stream ends too early. -/
structure Delimits (P : Pieces α κ) (message : List α) (r lost : ρ) : Prop where
  /-- The complete message. -/
  whole : ∀ cuts, P.stream cuts = message → R.result? (R.feedAll cuts) = some r
  /-- A message that has not arrived completely. -/
  part : ∀ cuts, P.stream cuts <+: message → P.stream cuts ≠ message →
    R.result? (R.feedAll cuts) = none
  /-- A message that is cut off. -/
  cut : ∀ cuts, P.stream cuts <+: message → P.stream cuts ≠ message → ∀ e,
    R.finish (R.feedAll cuts) e = lost

variable {R} {P : Pieces α κ} {message : List α} {r lost : ρ}

/-- **Reading what the message says delimits it**: a result, once known, stays, and a failure loses
what is not known yet; so a result before the end would be both `r` and `lost`. -/
theorem delimits_of_read (hstay : ∀ x k r, R.result? x = some r → R.result? (R.feed x k) = some r)
    (hfail : ∀ x, R.result? x = none → R.finish x .failed = lost) (hne : r ≠ lost)
    (hwhole : ∀ cuts, P.stream cuts = message → ∀ e, R.read cuts e = r)
    (hpart : ∀ cuts, P.stream cuts <+: message → P.stream cuts ≠ message → ∀ e,
      R.read cuts e = lost) : R.Delimits P message r lost := by
  have hstays : ∀ cuts more r', R.result? (R.feedAll cuts) = some r' →
      R.result? (R.feedAll (cuts ++ more)) = some r' := by
    intro cuts more r' hr'
    induction more using List.reverseRecOn with
    | nil => rwa [List.append_nil]
    | append_singleton more k ih =>
      rw [← List.append_assoc, feedAll_concat]
      exact hstay _ k r' ih
  have hmore : ∀ cuts, P.stream cuts <+: message → P.stream cuts ≠ message →
      R.result? (R.feedAll cuts) = none := by
    rintro cuts ⟨rest, rfl⟩ hshort
    rcases hearly : R.result? (R.feedAll cuts) with - | r'
    · rfl
    have hrest := hstays cuts (rest.map P.single) r' hearly
    have hread := hwhole (cuts ++ rest.map P.single) (by simp) .closed
    have hlost := hpart cuts (List.prefix_append _ _) hshort .closed
    rw [read, hrest, Option.getD_some] at hread
    rw [read, hearly, Option.getD_some] at hlost
    exact absurd (hread.symm.trans hlost) hne
  refine ⟨fun cuts hcuts ↦ ?_, hmore, fun cuts hprefix hshort e ↦ ?_⟩
  · have hread := hwhole cuts hcuts .failed
    rw [read] at hread
    rcases hresult : R.result? (R.feedAll cuts) with - | r'
    · rw [hresult, Option.getD_none, hfail _ hresult] at hread
      exact absurd hread.symm hne
    · rw [hresult, Option.getD_some] at hread
      rw [hread]
  · have hlost := hpart cuts hprefix hshort e
    rwa [read, hmore cuts hprefix hshort, Option.getD_none] at hlost

/-- Reading a part of a delimited message gives the message or nothing. -/
theorem Delimits.read_eq (h : R.Delimits P message r lost) {cuts : List κ}
    (hpart : P.stream cuts <+: message) (e : EndOfStream) :
    (P.stream cuts = message ∧ R.read cuts e = r) ∨ R.read cuts e = lost := by
  by_cases hwhole : P.stream cuts = message
  · exact Or.inl ⟨hwhole, by rw [read, h.whole cuts hwhole, Option.getD_some]⟩
  · exact Or.inr (by rw [read, h.part cuts hpart hwhole, Option.getD_none, h.cut cuts hpart hwhole])

end Reader

/-! ### The parties -/

/-- Where the client stands. -/
inductive ClientPhase
  /-- It writes its request. -/
  | writing
  /-- It reads the reply. -/
  | reading
  /-- It has returned, and closed its side. -/
  | returned
  deriving DecidableEq

/-- Where the server stands. -/
inductive ServerPhase
  /-- It reads a request. -/
  | reading
  /-- It writes its reply. -/
  | writing
  /-- It has closed its side. -/
  | closed
  deriving DecidableEq

/-- How many steps a client may still take besides its writes and reads. -/
def ClientPhase.weight : ClientPhase → ℕ
  | .writing => 2
  | .reading => 1
  | .returned => 0

/-- How many steps a server may still take, given the length of its reply. -/
def ServerPhase.weight (n : ℕ) : ServerPhase → ℕ
  | .reading => 2 * n + 2
  | .writing => 1
  | .closed => 0

/-- What two parties do. -/
structure Exchange (α κ σ τ A B : Type*) where
  /-- How streams are cut. -/
  pieces : Pieces α κ
  /-- What the client writes. -/
  request : List α
  /-- How the server reads. -/
  server : Reader κ σ A
  /-- What the server writes, given what it read. -/
  reply : A → List α
  /-- How the client reads. -/
  client : Reader κ τ B
  /-- What the client returns when it cannot write its request. -/
  unsent : B
  /-- How much may be in flight in one direction. -/
  room : ℕ
  /-- Something may be in flight. -/
  room_pos : 0 < room

/-- An exchange under way. -/
structure ExchangeState (α κ A B : Type*) where
  /-- Where the client stands. -/
  client : ClientPhase
  /-- What the client returned. -/
  result : Option B
  /-- What the client has yet to write. -/
  toWrite : List α
  /-- What is in flight to the server. -/
  toServer : List α
  /-- The pieces the server has read. -/
  taken : List κ
  /-- Where the server stands. -/
  server : ServerPhase
  /-- What the server has read and replied to. -/
  handled : List A
  /-- What the server has yet to write. -/
  toReply : List α
  /-- What is in flight to the client. -/
  toClient : List α
  /-- The pieces the client has read. -/
  received : List κ
  /-- Whether the connection has failed. -/
  broken : Bool

/-- A step of one of the parties, or of the connection. -/
inductive ExchangeAction (κ : Type*)
  /-- The client writes some of what is left. -/
  | clientWrite (n : ℕ)
  /-- The client has written everything. -/
  | clientTurn
  /-- The client reads a piece. -/
  | clientRead (k : κ)
  /-- The client finds that the server has closed. -/
  | clientEof
  /-- A write or a read of the client fails. -/
  | clientFail
  /-- The server reads a piece. -/
  | serverRead (k : κ)
  /-- The server finds that the client has closed. -/
  | serverEof
  /-- A read or a write of the server fails. -/
  | serverFail
  /-- The server writes some of what is left. -/
  | serverWrite (n : ℕ)
  /-- The server has written everything, and closes. -/
  | serverClose
  /-- The connection fails. -/
  | breakOff

/-- Whether a step is one of the parties'. -/
def ExchangeAction.ofParty {κ : Type*} : ExchangeAction κ → Bool
  | .breakOff => false
  | _ => true

/-- Whether a step is one of the server's. -/
def ExchangeAction.ofServer {κ : Type*} : ExchangeAction κ → Bool
  | .serverRead _ => true
  | .serverEof => true
  | .serverFail => true
  | .serverWrite _ => true
  | .serverClose => true
  | _ => false

namespace Exchange

variable {α κ σ τ A B : Type*} (E : Exchange α κ σ τ A B)

/-- The state in which the connection has just been made. -/
def init : ExchangeState α κ A B where
  client := .writing
  result := none
  toWrite := E.request
  toServer := []
  taken := []
  server := .reading
  handled := []
  toReply := []
  toClient := []
  received := []
  broken := false

/-- The client returns what it read, if its reader has a result. -/
def settleClient (s : ExchangeState α κ A B) : ExchangeState α κ A B :=
  match E.client.result? (E.client.feedAll s.received) with
  | none => s
  | some b => { s with client := .returned, result := some b }

/-- The server replies to what it read. -/
def replyTo (a : A) (s : ExchangeState α κ A B) : ExchangeState α κ A B :=
  { s with server := .writing, handled := s.handled ++ [a], toReply := E.reply a }

/-- The server replies to what it read, if its reader has a result. -/
def settleServer (s : ExchangeState α κ A B) : ExchangeState α κ A B :=
  match E.server.result? (E.server.feedAll s.taken) with
  | none => s
  | some a => E.replyTo a s

/-- What an action needs. -/
def Enabled (s : ExchangeState α κ A B) : ExchangeAction κ → Prop
  | .clientWrite n => s.client = .writing ∧ 0 < n ∧ n ≤ s.toWrite.length ∧
      s.toServer.length + n ≤ E.room
  | .clientTurn => s.client = .writing ∧ s.toWrite = []
  | .clientRead k => s.client = .reading ∧ E.pieces.content k <+: s.toClient
  | .clientEof => s.client = .reading ∧ s.toClient = [] ∧ s.server = .closed
  | .clientFail => s.client ≠ .returned ∧ s.broken = true
  | .serverRead k => s.server = .reading ∧ E.pieces.content k <+: s.toServer
  | .serverEof => s.server = .reading ∧ s.toServer = [] ∧ s.client = .returned
  | .serverFail => s.server ≠ .closed ∧ s.broken = true
  | .serverWrite n => s.server = .writing ∧ 0 < n ∧ n ≤ s.toReply.length ∧
      s.toClient.length + n ≤ E.room
  | .serverClose => s.server = .writing ∧ s.toReply = []
  | .breakOff => s.broken = false

/-- What an action does. -/
def next (s : ExchangeState α κ A B) : ExchangeAction κ → ExchangeState α κ A B
  | .clientWrite n => { s with
      toWrite := s.toWrite.drop n, toServer := s.toServer ++ s.toWrite.take n }
  | .clientTurn => { s with client := .reading }
  | .clientRead k => E.settleClient { s with
      toClient := s.toClient.drop (E.pieces.content k).length, received := s.received ++ [k] }
  | .clientEof => { s with
      client := .returned
      result := some (E.client.finish (E.client.feedAll s.received) .closed) }
  | .clientFail => { s with
      client := .returned
      result := some (if s.client = .writing then E.unsent
        else E.client.finish (E.client.feedAll s.received) .failed) }
  | .serverRead k => E.settleServer { s with
      toServer := s.toServer.drop (E.pieces.content k).length, taken := s.taken ++ [k] }
  | .serverEof => E.replyTo (E.server.finish (E.server.feedAll s.taken) .closed) s
  | .serverFail =>
      if s.server = .reading then
        E.replyTo (E.server.finish (E.server.feedAll s.taken) .failed) s
      else { s with server := .closed }
  | .serverWrite n => { s with
      toReply := s.toReply.drop n, toClient := s.toClient ++ s.toReply.take n }
  | .serverClose => { s with server := .closed }
  | .breakOff => { s with broken := true }

instance [DecidableEq α] (s : ExchangeState α κ A B) (a : ExchangeAction κ) :
    Decidable (E.Enabled s a) := by
  cases a <;> dsimp only [Enabled] <;> infer_instance

/-- All orders of the steps. -/
def system [DecidableEq α] : TransitionSystem (ExchangeState α κ A B) (ExchangeAction κ) where
  init := E.init
  step s a := if E.Enabled s a then some (E.next s a) else none

variable {E} {s s' : ExchangeState α κ A B} {a : ExchangeAction κ} {as : List (ExchangeAction κ)}

theorem step_eq_some_iff [DecidableEq α] :
    E.system.step s a = some s' ↔ E.Enabled s a ∧ s' = E.next s a := by
  show (if E.Enabled s a then some (E.next s a) else none) = some s' ↔ _
  split
  · rename_i henabled
    simp [henabled, eq_comm]
  · rename_i henabled
    simp [henabled]

/-- The client goes on reading, or returns. -/
theorem settleClient_cases (s : ExchangeState α κ A B) :
    (E.client.result? (E.client.feedAll s.received) = none ∧ E.settleClient s = s) ∨
    ∃ b, E.client.result? (E.client.feedAll s.received) = some b ∧
      E.settleClient s = { s with client := .returned, result := some b } := by
  rw [settleClient]
  rcases E.client.result? (E.client.feedAll s.received) with - | b
  · exact Or.inl ⟨rfl, rfl⟩
  · exact Or.inr ⟨b, rfl, rfl⟩

/-- The server goes on reading, or replies. -/
theorem settleServer_cases (s : ExchangeState α κ A B) :
    (E.server.result? (E.server.feedAll s.taken) = none ∧ E.settleServer s = s) ∨
    ∃ r, E.server.result? (E.server.feedAll s.taken) = some r ∧
      E.settleServer s = E.replyTo r s := by
  rw [settleServer]
  rcases E.server.result? (E.server.feedAll s.taken) with - | r
  · exact Or.inl ⟨rfl, rfl⟩
  · exact Or.inr ⟨r, rfl, rfl⟩

/-! ### The invariant -/

variable (E) in
/-- The server has read `r` and replied to it. -/
structure Handled (s : ExchangeState α κ A B) (r : A) : Prop where
  /-- It has handled this and nothing else. -/
  handled_eq : s.handled = [r]
  /-- It is what the pieces that were taken hold. -/
  read : ∃ e, r = E.server.read s.taken e
  /-- The reply is what the client has read, what is in flight and what is left. -/
  reply_eq : E.pieces.stream s.received ++ s.toClient ++ s.toReply = E.reply r
  /-- Only a broken connection ends the request early. -/
  complete : s.broken = false → E.server.result? (E.server.feedAll s.taken) = some r

variable (E) in
/-- The client has returned `b`. -/
structure Returned (s : ExchangeState α κ A B) (b : B) : Prop where
  /-- It has returned this. -/
  result_eq : s.result = some b
  /-- It is what the pieces received hold, or the client could not write its request. -/
  read : (s.toWrite = [] ∧ ∃ e, b = E.client.read s.received e) ∨
    (b = E.unsent ∧ s.received = [] ∧ s.broken = true)
  /-- Only a broken connection ends the reply before the server has closed. -/
  complete : s.broken = false → E.client.result? (E.client.feedAll s.received) = some b ∨
    (s.server = .closed ∧ s.toClient = [])

variable (E) in
/-- What holds of the client in every state of every run. -/
structure ClientInv (s : ExchangeState α κ A B) : Prop where
  /-- A client that writes has not read. -/
  writing : s.client = .writing → s.result = none ∧ s.received = []
  /-- A client that reads has written everything. -/
  reading : s.client = .reading → s.result = none ∧ s.toWrite = [] ∧
    E.client.result? (E.client.feedAll s.received) = none
  /-- A client that has returned. -/
  returned : s.client = .returned → ∃ b, E.Returned s b

variable (E) in
/-- What holds of the server in every state of every run. -/
structure ServerInv (s : ExchangeState α κ A B) : Prop where
  /-- A server that reads has not written. -/
  reading : s.server = .reading → s.handled = [] ∧ s.received = [] ∧ s.toClient = [] ∧
    s.toReply = [] ∧ E.server.result? (E.server.feedAll s.taken) = none
  /-- A server that writes has handled one request. -/
  writing : s.server = .writing → ∃ r, E.Handled s r
  /-- A server that has closed has written everything, unless the connection broke. -/
  closed : s.server = .closed → ∃ r, E.Handled s r ∧ (s.broken = false → s.toReply = [])

variable (E) in
/-- What holds in every state of every run. -/
structure Inv (s : ExchangeState α κ A B) : Prop where
  /-- The request is what the server has read, what is in flight and what is left. -/
  request_eq : E.pieces.stream s.taken ++ s.toServer ++ s.toWrite = E.request
  /-- The client. -/
  client : E.ClientInv s
  /-- The server. -/
  server : E.ServerInv s

theorem inv_init : E.Inv E.init where
  request_eq := rfl
  client := ⟨fun _ ↦ ⟨rfl, rfl⟩, ClientPhase.noConfusion, ClientPhase.noConfusion⟩
  server := ⟨fun _ ↦ ⟨rfl, rfl, rfl, rfl, E.server.result?_start⟩, ServerPhase.noConfusion,
    ServerPhase.noConfusion⟩

/-! ### What a step leaves alone -/

/-- What has been handled, where nothing is lost between the server and the client. -/
theorem Handled.congr {r : A} (h : E.Handled s r) (hhandled : s'.handled = s.handled)
    (htaken : s'.taken = s.taken) (hbroken : s'.broken = false → s.broken = false)
    (hstream : E.pieces.stream s'.received ++ s'.toClient ++ s'.toReply =
      E.pieces.stream s.received ++ s.toClient ++ s.toReply) : E.Handled s' r where
  handled_eq := hhandled.trans h.handled_eq
  read := htaken ▸ h.read
  reply_eq := hstream.trans h.reply_eq
  complete hunbroken := htaken ▸ h.complete (hbroken hunbroken)

/-- The server's part of the invariant under steps of the client. -/
theorem ServerInv.congr (h : E.ServerInv s) (hserver : s'.server = s.server)
    (hhandled : s'.handled = s.handled) (htaken : s'.taken = s.taken)
    (hreply : s'.toReply = s.toReply) (hbroken : s'.broken = false → s.broken = false)
    (hstream : E.pieces.stream s'.received ++ s'.toClient =
      E.pieces.stream s.received ++ s.toClient) : E.ServerInv s' where
  reading hreading := by
    obtain ⟨hnone, hreceived, hempty, hleft, hmore⟩ := h.reading (hserver ▸ hreading)
    rw [hreceived, hempty] at hstream
    obtain ⟨hreceived', hempty'⟩ := List.append_eq_nil_iff.1 hstream
    exact ⟨hhandled.trans hnone, E.pieces.eq_nil_of_stream_eq_nil hreceived', hempty',
      hreply.trans hleft, htaken ▸ hmore⟩
  writing hwriting := by
    obtain ⟨r, hr⟩ := h.writing (hserver ▸ hwriting)
    exact ⟨r, hr.congr hhandled htaken hbroken (by rw [hstream, hreply])⟩
  closed hclosed := by
    obtain ⟨r, hr, hleft⟩ := h.closed (hserver ▸ hclosed)
    exact ⟨r, hr.congr hhandled htaken hbroken (by rw [hstream, hreply]),
      fun hunbroken ↦ hreply.trans (hleft (hbroken hunbroken))⟩

/-- The client's part of the invariant under steps of the server. -/
theorem ClientInv.congr (h : E.ClientInv s) (hclient : s'.client = s.client)
    (hresult : s'.result = s.result) (hwrite : s'.toWrite = s.toWrite)
    (hreceived : s'.received = s.received) (hbroken : s.broken = true → s'.broken = true)
    (hclosed : s'.broken = false → s.server = .closed → s.toClient = [] →
      s'.server = .closed ∧ s'.toClient = []) : E.ClientInv s' where
  writing hwriting := by
    rw [hresult, hreceived]
    exact h.writing (hclient ▸ hwriting)
  reading hreading := by
    rw [hresult, hwrite, hreceived]
    exact h.reading (hclient ▸ hreading)
  returned hreturned := by
    obtain ⟨b, hb⟩ := h.returned (hclient ▸ hreturned)
    refine ⟨b, hresult.trans hb.result_eq, ?_, fun hunbroken ↦ ?_⟩
    · rw [hwrite, hreceived]
      exact hb.read.imp_right fun ⟨hunsent, hnone, hbreak⟩ ↦ ⟨hunsent, hnone, hbroken hbreak⟩
    · have hbefore : s.broken = false := by
        rcases hb : s.broken with - | -
        · rfl
        · exact absurd (hbroken hb) (by simp [hunbroken])
      rw [hreceived]
      exact (hb.complete hbefore).imp_right fun hend ↦ hclosed hunbroken hend.1 hend.2

/-! ### The steps keep the invariant -/

theorem inv_clientWrite (h : E.Inv s) {n : ℕ} (ha : E.Enabled s (.clientWrite n)) :
    E.Inv (E.next s (.clientWrite n)) := by
  obtain ⟨hclient, -, -, -⟩ := ha
  refine ⟨?_, ⟨h.client.writing, fun hreading ↦ ?_, fun hreturned ↦ ?_⟩,
    h.server.congr rfl rfl rfl rfl id rfl⟩
  · show E.pieces.stream s.taken ++ (s.toServer ++ s.toWrite.take n) ++ s.toWrite.drop n = _
    rw [← h.request_eq]
    simp
  · exact absurd (hclient.symm.trans hreading) (by simp)
  · exact absurd (hclient.symm.trans hreturned) (by simp)

theorem inv_clientTurn (h : E.Inv s) (ha : E.Enabled s .clientTurn) :
    E.Inv (E.next s .clientTurn) := by
  obtain ⟨hclient, hwritten⟩ := ha
  obtain ⟨hresult, hreceived⟩ := h.client.writing hclient
  have hmore : E.client.result? (E.client.feedAll s.received) = none := by
    rw [hreceived]
    exact E.client.result?_start
  exact ⟨h.request_eq, ⟨ClientPhase.noConfusion, fun _ ↦ ⟨hresult, hwritten, hmore⟩,
    ClientPhase.noConfusion⟩, h.server.congr rfl rfl rfl rfl id rfl⟩

theorem inv_clientRead (h : E.Inv s) {k : κ} (ha : E.Enabled s (.clientRead k)) :
    E.Inv (E.next s (.clientRead k)) := by
  obtain ⟨hclient, rest, hrest⟩ := ha
  obtain ⟨hresult, hwritten, -⟩ := h.client.reading hclient
  have hdrop : s.toClient.drop (E.pieces.content k).length = rest := by
    rw [← hrest, List.drop_left]
  have hstream : E.pieces.stream (s.received ++ [k]) ++ rest =
      E.pieces.stream s.received ++ s.toClient := by
    rw [E.pieces.stream_concat, List.append_assoc, hrest]
  show E.Inv (E.settleClient { s with toClient := _, received := s.received ++ [k] })
  rw [hdrop]
  rcases E.settleClient_cases { s with toClient := rest, received := s.received ++ [k] } with
    ⟨hmore, hsettle⟩ | ⟨b, hdone, hsettle⟩
  · rw [hsettle]
    refine ⟨h.request_eq, ⟨fun hwriting ↦ ?_, fun _ ↦ ⟨hresult, hwritten, hmore⟩,
      fun hreturned ↦ ?_⟩, h.server.congr rfl rfl rfl rfl id hstream⟩
    · exact absurd (hclient.symm.trans hwriting) (by simp)
    · exact absurd (hclient.symm.trans hreturned) (by simp)
  · rw [hsettle]
    have hread : b = E.client.read (s.received ++ [k]) .closed := by
      rw [Reader.read, hdone, Option.getD_some]
    exact ⟨h.request_eq, ⟨ClientPhase.noConfusion, ClientPhase.noConfusion,
      fun _ ↦ ⟨b, rfl, Or.inl ⟨hwritten, .closed, hread⟩, fun _ ↦ Or.inl hdone⟩⟩,
      h.server.congr rfl rfl rfl rfl id hstream⟩

theorem inv_clientEof (h : E.Inv s) (ha : E.Enabled s .clientEof) :
    E.Inv (E.next s .clientEof) := by
  obtain ⟨hclient, hempty, hclosed⟩ := ha
  obtain ⟨-, hwritten, hmore⟩ := h.client.reading hclient
  have hread : E.client.finish (E.client.feedAll s.received) .closed =
      E.client.read s.received .closed := by
    rw [Reader.read, hmore, Option.getD_none]
  exact ⟨h.request_eq, ⟨ClientPhase.noConfusion, ClientPhase.noConfusion,
    fun _ ↦ ⟨_, rfl, Or.inl ⟨hwritten, .closed, hread⟩, fun _ ↦ Or.inr ⟨hclosed, hempty⟩⟩⟩,
    h.server.congr rfl rfl rfl rfl id rfl⟩

theorem inv_clientFail (h : E.Inv s) (ha : E.Enabled s .clientFail) :
    E.Inv (E.next s .clientFail) := by
  obtain ⟨hclient, hbroken⟩ := ha
  refine ⟨h.request_eq, ⟨ClientPhase.noConfusion, ClientPhase.noConfusion, fun _ ↦ ⟨_, rfl, ?_,
    fun hunbroken ↦ absurd (hbroken.symm.trans hunbroken) (by simp)⟩⟩,
    h.server.congr rfl rfl rfl rfl id rfl⟩
  rcases hphase : s.client with - | - | -
  · exact Or.inr ⟨if_pos rfl, (h.client.writing hphase).2, hbroken⟩
  · obtain ⟨-, hwritten, hmore⟩ := h.client.reading hphase
    refine Or.inl ⟨hwritten, .failed, ?_⟩
    show _ = E.client.read s.received .failed
    rw [if_neg (by simp), Reader.read, hmore, Option.getD_none]
  · exact absurd hphase hclient

/-- The server has read something and replies to it. -/
theorem inv_replyTo (taken : List κ) (toServer : List α) (h : E.Inv s)
    (hserver : s.server = .reading) (hstream : E.pieces.stream taken ++ toServer =
      E.pieces.stream s.taken ++ s.toServer) {r : A} {e : EndOfStream}
    (hread : r = E.server.read taken e)
    (hcomplete : s.broken = false → E.server.result? (E.server.feedAll taken) = some r) :
    E.Inv (E.replyTo r { s with taken := taken, toServer := toServer }) := by
  obtain ⟨hnone, hreceived, hempty, -, -⟩ := h.server.reading hserver
  refine ⟨?_, h.client.congr rfl rfl rfl rfl id fun _ hclosed ↦ ?_, ServerPhase.noConfusion,
    fun _ ↦ ⟨r, ?_, ⟨e, hread⟩, ?_, hcomplete⟩, ServerPhase.noConfusion⟩
  · show E.pieces.stream taken ++ toServer ++ s.toWrite = _
    rw [hstream, h.request_eq]
  · exact absurd (hserver.symm.trans hclosed) (by simp)
  · show s.handled ++ [r] = [r]
    rw [hnone, List.nil_append]
  · show E.pieces.stream s.received ++ s.toClient ++ E.reply r = _
    rw [hreceived, hempty]
    rfl

theorem inv_serverRead (h : E.Inv s) {k : κ} (ha : E.Enabled s (.serverRead k)) :
    E.Inv (E.next s (.serverRead k)) := by
  obtain ⟨hserver, rest, hrest⟩ := ha
  have hdrop : s.toServer.drop (E.pieces.content k).length = rest := by
    rw [← hrest, List.drop_left]
  have hstream : E.pieces.stream (s.taken ++ [k]) ++ rest =
      E.pieces.stream s.taken ++ s.toServer := by
    rw [E.pieces.stream_concat, List.append_assoc, hrest]
  show E.Inv (E.settleServer { s with toServer := _, taken := s.taken ++ [k] })
  rw [hdrop]
  rcases E.settleServer_cases { s with toServer := rest, taken := s.taken ++ [k] } with
    ⟨hmore, hsettle⟩ | ⟨r, hdone, hsettle⟩
  · rw [hsettle]
    obtain ⟨hnone, hreceived, hempty, hleft, -⟩ := h.server.reading hserver
    refine ⟨?_, h.client.congr rfl rfl rfl rfl id fun _ hclosed ↦ ?_,
      ⟨fun _ ↦ ⟨hnone, hreceived, hempty, hleft, hmore⟩, fun hwriting ↦ ?_, fun hclosed ↦ ?_⟩⟩
    · show E.pieces.stream (s.taken ++ [k]) ++ rest ++ s.toWrite = _
      rw [hstream, h.request_eq]
    · exact absurd (hserver.symm.trans hclosed) (by simp)
    · exact absurd (hserver.symm.trans hwriting) (by simp)
    · exact absurd (hserver.symm.trans hclosed) (by simp)
  · rw [hsettle]
    refine inv_replyTo _ rest h hserver hstream (e := .closed) ?_ fun _ ↦ hdone
    rw [Reader.read, hdone, Option.getD_some]

/-- A client cannot have returned before the server wrote, unless the connection broke. -/
theorem broken_of_returned (h : E.Inv s) (hserver : s.server = .reading)
    (hclient : s.client = .returned) : s.broken = true := by
  obtain ⟨b, hb⟩ := h.client.returned hclient
  obtain ⟨-, hreceived, -⟩ := h.server.reading hserver
  by_contra hbroken
  rcases hb.complete (by simpa using hbroken) with hdone | ⟨hclosed, -⟩
  · rw [hreceived, Reader.feedAll_nil, E.client.result?_start] at hdone
    exact absurd hdone (by simp)
  · exact absurd (hserver.symm.trans hclosed) (by simp)

/-- What a server reads from a request that ends early. -/
theorem inv_replyTo_finish (h : E.Inv s) (hserver : s.server = .reading) (hbroken : s.broken = true)
    (e : EndOfStream) : E.Inv (E.replyTo (E.server.finish (E.server.feedAll s.taken) e) s) := by
  obtain ⟨-, -, -, -, hmore⟩ := h.server.reading hserver
  refine inv_replyTo s.taken s.toServer h hserver rfl (e := e) ?_
    fun hunbroken ↦ absurd (hbroken.symm.trans hunbroken) (by simp)
  rw [Reader.read, hmore, Option.getD_none]

theorem inv_serverEof (h : E.Inv s) (ha : E.Enabled s .serverEof) :
    E.Inv (E.next s .serverEof) := by
  obtain ⟨hserver, -, hclient⟩ := ha
  exact inv_replyTo_finish h hserver (broken_of_returned h hserver hclient) .closed

theorem inv_serverFail (h : E.Inv s) (ha : E.Enabled s .serverFail) :
    E.Inv (E.next s .serverFail) := by
  obtain ⟨hserver, hbroken⟩ := ha
  rcases hphase : s.server with - | - | -
  · rw [next, if_pos hphase]
    exact inv_replyTo_finish h hphase hbroken .failed
  · rw [next, if_neg (by simp [hphase])]
    obtain ⟨r, hr⟩ := h.server.writing hphase
    have hunbroken : s.broken = false → s.toReply = [] := fun hfalse ↦
      absurd (hbroken.symm.trans hfalse) (by simp)
    exact ⟨h.request_eq, h.client.congr rfl rfl rfl rfl id fun _ _ hempty ↦ ⟨rfl, hempty⟩,
      ⟨ServerPhase.noConfusion, ServerPhase.noConfusion,
        fun _ ↦ ⟨r, hr.congr rfl rfl id rfl, hunbroken⟩⟩⟩
  · exact absurd hphase hserver

theorem inv_serverWrite (h : E.Inv s) {n : ℕ} (ha : E.Enabled s (.serverWrite n)) :
    E.Inv (E.next s (.serverWrite n)) := by
  obtain ⟨hserver, -, -, -⟩ := ha
  obtain ⟨r, hr⟩ := h.server.writing hserver
  have hstream : E.pieces.stream s.received ++ (s.toClient ++ s.toReply.take n) ++
      s.toReply.drop n = E.pieces.stream s.received ++ s.toClient ++ s.toReply := by
    simp
  refine ⟨h.request_eq, h.client.congr rfl rfl rfl rfl id fun _ hclosed ↦ ?_,
    ⟨fun hreading ↦ ?_, fun _ ↦ ⟨r, hr.congr rfl rfl id hstream⟩, fun hclosed ↦ ?_⟩⟩
  · exact absurd (hserver.symm.trans hclosed) (by simp)
  · exact absurd (hserver.symm.trans hreading) (by simp)
  · exact absurd (hserver.symm.trans hclosed) (by simp)

theorem inv_serverClose (h : E.Inv s) (ha : E.Enabled s .serverClose) :
    E.Inv (E.next s .serverClose) := by
  obtain ⟨hserver, hleft⟩ := ha
  obtain ⟨r, hr⟩ := h.server.writing hserver
  exact ⟨h.request_eq, h.client.congr rfl rfl rfl rfl id fun _ _ hempty ↦ ⟨rfl, hempty⟩,
    ⟨ServerPhase.noConfusion, ServerPhase.noConfusion,
      fun _ ↦ ⟨r, hr.congr rfl rfl id rfl, fun _ ↦ hleft⟩⟩⟩

theorem inv_breakOff (h : E.Inv s) : E.Inv (E.next s .breakOff) where
  request_eq := h.request_eq
  client := h.client.congr rfl rfl rfl rfl (fun _ ↦ rfl) fun hunbroken ↦ Bool.noConfusion hunbroken
  server := h.server.congr rfl rfl rfl rfl (fun hunbroken ↦ Bool.noConfusion hunbroken) rfl

/-- **Every step keeps the invariant.** -/
theorem Inv.next (h : E.Inv s) (ha : E.Enabled s a) : E.Inv (E.next s a) := by
  cases a with
  | clientWrite n => exact inv_clientWrite h ha
  | clientTurn => exact inv_clientTurn h ha
  | clientRead k => exact inv_clientRead h ha
  | clientEof => exact inv_clientEof h ha
  | clientFail => exact inv_clientFail h ha
  | serverRead k => exact inv_serverRead h ha
  | serverEof => exact inv_serverEof h ha
  | serverFail => exact inv_serverFail h ha
  | serverWrite n => exact inv_serverWrite h ha
  | serverClose => exact inv_serverClose h ha
  | breakOff => exact inv_breakOff h

/-- **The invariant holds in every run.** -/
theorem inv_of_run [DecidableEq α] (h : E.system.run as = some s) : E.Inv s := by
  refine TransitionSystem.run_induction (T := E.system) (P := fun _ s ↦ E.Inv s) inv_init ?_ h
  intro as s a s' _ hs hstep
  obtain ⟨ha, rfl⟩ := step_eq_some_iff.1 hstep
  exact hs.next ha

/-- What the server has read is a part of the request. -/
theorem Inv.stream_taken_prefix (h : E.Inv s) : E.pieces.stream s.taken <+: E.request :=
  ⟨s.toServer ++ s.toWrite, by rw [← List.append_assoc, h.request_eq]⟩

/-- A server that does not read has handled something. -/
theorem Inv.handled (h : E.Inv s) (hserver : s.server ≠ .reading) : ∃ r, E.Handled s r := by
  rcases hphase : s.server with - | - | -
  · exact absurd hphase hserver
  · exact h.server.writing hphase
  · obtain ⟨r, hr, -⟩ := h.server.closed hphase
    exact ⟨r, hr⟩

/-! ### Delimited messages -/

variable (E) in
/-- The readers delimit the messages: the request is read as `r` and its reply as `b`, and a request
that is not read gets no reply. -/
structure Delimited (r lost : A) (b : B) : Prop where
  /-- The request. -/
  request : E.server.Delimits E.pieces E.request r lost
  /-- The reply to it. -/
  reply : E.client.Delimits E.pieces (E.reply r) b E.unsent
  /-- There is a reply. -/
  reply_ne_nil : E.reply r ≠ []
  /-- There is none to a request that was cut off. -/
  reply_lost : E.reply lost = []

section Delimited

variable {r lost : A} {b : B}

/-- The server reads the request or nothing. -/
theorem Handled.eq_or (hE : E.Delimited r lost b) (h : E.Inv s) {r' : A} (hr : E.Handled s r') :
    (r' = r ∧ E.pieces.stream s.taken = E.request) ∨ r' = lost := by
  obtain ⟨e, rfl⟩ := hr.read
  exact (hE.request.read_eq h.stream_taken_prefix e).imp_left fun hwhole ↦ ⟨hwhole.2, hwhole.1⟩

/-- What the client reads is the reply, or nothing. -/
theorem Inv.read_eq (hE : E.Delimited r lost b) (h : E.Inv s) (e : EndOfStream) :
    (E.client.read s.received e = b ∧ E.Handled s r ∧
      E.pieces.stream s.received = E.reply r) ∨ E.client.read s.received e = E.unsent := by
  have hnothing : s.received = [] → E.client.read s.received e = E.unsent := by
    intro hreceived
    have hpart : E.pieces.stream s.received <+: E.reply r := by simp [hreceived]
    rcases hE.reply.read_eq hpart e with ⟨hwhole, -⟩ | hlost
    · rw [hreceived, E.pieces.stream_nil] at hwhole
      exact absurd hwhole.symm hE.reply_ne_nil
    · exact hlost
  by_cases hserver : s.server = .reading
  · exact Or.inr (hnothing (h.server.reading hserver).2.1)
  obtain ⟨r', hr⟩ := h.handled hserver
  rcases hr.eq_or hE h with ⟨rfl, -⟩ | rfl
  · have hpart : E.pieces.stream s.received <+: E.reply r' :=
      ⟨s.toClient ++ s.toReply, by rw [← List.append_assoc, hr.reply_eq]⟩
    exact (hE.reply.read_eq hpart e).imp_left fun hwhole ↦ ⟨hwhole.2, hr, hwhole.1⟩
  · have hempty := hr.reply_eq
    rw [hE.reply_lost] at hempty
    exact Or.inr (hnothing (E.pieces.eq_nil_of_stream_eq_nil
      (List.append_eq_nil_iff.1 (List.append_eq_nil_iff.1 hempty).1).1))

/-- **Safety.** In every run, on a connection that may break at any point: the server has handled
the request at most once, and nothing else; and a client that has returned has the reply to its
request, which the server has handled, or it has given up. -/
theorem safe_of_run [DecidableEq α] (hE : E.Delimited r lost b) (h : E.system.run as = some s) :
    (s.handled = [] ∨ s.handled = [r] ∨ s.handled = [lost]) ∧
      ∀ b', s.result = some b' → (b' = b ∧ s.handled = [r]) ∨ b' = E.unsent := by
  have hinv := inv_of_run h
  refine ⟨?_, fun b' hresult ↦ ?_⟩
  · by_cases hserver : s.server = .reading
    · exact Or.inl (hinv.server.reading hserver).1
    · obtain ⟨r', hr⟩ := hinv.handled hserver
      rcases hr.eq_or hE hinv with ⟨rfl, -⟩ | rfl
      · exact Or.inr (Or.inl hr.handled_eq)
      · exact Or.inr (Or.inr hr.handled_eq)
  · rcases hclient : s.client with - | - | -
    · exact absurd ((hinv.client.writing hclient).1.symm.trans hresult) (by simp)
    · exact absurd ((hinv.client.reading hclient).1.symm.trans hresult) (by simp)
    · obtain ⟨b'', hb⟩ := hinv.client.returned hclient
      obtain rfl := Option.some.inj (hresult.symm.trans hb.result_eq)
      rcases hb.read with ⟨-, e, rfl⟩ | ⟨rfl, -⟩
      · rcases hinv.read_eq hE e with ⟨hread, hr, -⟩ | hlost
        · exact Or.inl ⟨hread, hr.handled_eq⟩
        · exact Or.inr hlost
      · exact Or.inr rfl

/-- On an unbroken connection, a server that does not read has read the request. -/
theorem Inv.handled_of_unbroken (hE : E.Delimited r lost b) (h : E.Inv s)
    (hbroken : s.broken = false) (hserver : s.server ≠ .reading) :
    E.Handled s r ∧ s.toServer = [] ∧ s.toWrite = [] := by
  obtain ⟨r', hr⟩ := h.handled hserver
  have hwhole : E.pieces.stream s.taken = E.request := by
    by_contra hnot
    have hmore := hE.request.part s.taken h.stream_taken_prefix hnot
    exact absurd (hmore.symm.trans (hr.complete hbroken)) (by simp)
  obtain rfl : r = r' :=
    Option.some.inj ((hE.request.whole s.taken hwhole).symm.trans (hr.complete hbroken))
  have hrest := h.request_eq
  rw [hwhole, List.append_assoc, List.append_right_eq_self] at hrest
  exact ⟨hr, List.append_eq_nil_iff.1 hrest⟩

/-- On an unbroken connection, a client that has returned has read the whole reply. -/
theorem Inv.returned_of_unbroken (hE : E.Delimited r lost b) (h : E.Inv s)
    (hbroken : s.broken = false) (hclient : s.client = .returned) :
    s.result = some b ∧ s.server ≠ .reading ∧ E.pieces.stream s.received = E.reply r := by
  have hserver : s.server ≠ .reading := fun hserver ↦
    absurd ((broken_of_returned h hserver hclient).symm.trans hbroken) (by simp)
  obtain ⟨hr, -, -⟩ := h.handled_of_unbroken hE hbroken hserver
  obtain ⟨b', hb⟩ := h.client.returned hclient
  have hpart : E.pieces.stream s.received <+: E.reply r :=
    ⟨s.toClient ++ s.toReply, by rw [← List.append_assoc, hr.reply_eq]⟩
  have hwhole : E.pieces.stream s.received = E.reply r := by
    rcases hb.complete hbroken with hdone | ⟨hclosed, hempty⟩
    · by_contra hnot
      exact absurd ((hE.reply.part s.received hpart hnot).symm.trans hdone) (by simp)
    · obtain ⟨-, -, hleft⟩ := h.server.closed hclosed
      have hreply := hr.reply_eq
      rwa [hempty, hleft hbroken, List.append_nil, List.append_nil] at hreply
  have hdone := hE.reply.whole s.received hwhole
  refine ⟨?_, hserver, hwhole⟩
  rcases hb.read with ⟨-, e, rfl⟩ | ⟨-, -, hbreak⟩
  · rw [hb.result_eq, Reader.read, hdone, Option.getD_some]
  · exact absurd (hbreak.symm.trans hbroken) (by simp)

end Delimited

/-! ### How long a run can be -/

variable (E) in
/-- No reply that the server comes to is longer than `n`. -/
def RepliesWithin (n : ℕ) : Prop :=
  ∀ s, E.Inv s → ∀ r, E.Handled s r → (E.reply r).length ≤ n

/-- How many steps may still be taken, if replies are not longer than `n`: an element is written
once and read once. -/
def budget (n : ℕ) (s : ExchangeState α κ A B) : ℕ :=
  2 * s.toWrite.length + s.toServer.length + 2 * s.toReply.length + s.toClient.length +
    s.client.weight + s.server.weight n + (!s.broken).toNat

section Budget

variable {n : ℕ}

/-- What is left of a reply is not longer than the reply. -/
theorem Inv.length_toReply_le (hn : E.RepliesWithin n) (h : E.Inv s)
    (hserver : s.server ≠ .reading) : s.toReply.length ≤ n := by
  obtain ⟨r, hr⟩ := h.handled hserver
  have hlength := congrArg List.length hr.reply_eq
  rw [List.length_append] at hlength
  have hle := hn s h r hr
  omega

theorem length_drop_content {k : κ} {l : List α} (h : E.pieces.content k <+: l) :
    (l.drop (E.pieces.content k).length).length < l.length := by
  have hpos := List.length_pos_iff.2 (E.pieces.content_ne_nil k)
  have hle := h.length_le
  rw [List.length_drop]
  omega

/-- A reply takes less than the wait for it. -/
theorem budget_replyTo_lt (taken : List κ) (toServer : List α) (hn : E.RepliesWithin n)
    (hserver : s.server = .reading) {r : A} (hlen : toServer.length ≤ s.toServer.length)
    (hinv : E.Inv (E.replyTo r { s with taken := taken, toServer := toServer })) :
    budget n (E.replyTo r { s with taken := taken, toServer := toServer }) < budget n s := by
  have hreply : (E.reply r).length ≤ n := hinv.length_toReply_le hn ServerPhase.noConfusion
  simp only [budget, replyTo, hserver, ServerPhase.weight]
  omega

/-- **Every step uses up some of the budget.** -/
theorem budget_next_lt (hn : E.RepliesWithin n) (h : E.Inv s) (ha : E.Enabled s a) :
    budget n (E.next s a) < budget n s := by
  have hinv := h.next ha
  cases a with
  | clientWrite k =>
    obtain ⟨-, hpos, hle, -⟩ := ha
    simp only [budget, next, List.length_drop, List.length_append, List.length_take]
    omega
  | clientTurn =>
    simp only [budget, next, ha.1, ClientPhase.weight]
    omega
  | clientRead k =>
    have hlt := length_drop_content ha.2
    show budget n (E.settleClient _) < _
    rcases E.settleClient_cases { s with
      toClient := s.toClient.drop (E.pieces.content k).length, received := s.received ++ [k] } with
      ⟨-, hsettle⟩ | ⟨b, -, hsettle⟩
    · rw [hsettle]
      simp only [budget]
      omega
    · rw [hsettle]
      simp only [budget, ha.1, ClientPhase.weight]
      omega
  | clientEof =>
    simp only [budget, next, ha.1, ClientPhase.weight]
    omega
  | clientFail =>
    have hpos : 0 < s.client.weight := by
      rcases hphase : s.client with - | - | -
      · exact Nat.succ_pos _
      · exact Nat.succ_pos _
      · exact absurd hphase ha.1
    have hzero : ClientPhase.returned.weight = 0 := rfl
    simp only [budget, next, hzero]
    omega
  | serverRead k =>
    have hlt := length_drop_content ha.2
    revert hinv
    show E.Inv (E.settleServer _) → budget n (E.settleServer _) < _
    rcases E.settleServer_cases { s with
      toServer := s.toServer.drop (E.pieces.content k).length, taken := s.taken ++ [k] } with
      ⟨-, hsettle⟩ | ⟨r, -, hsettle⟩
    · rw [hsettle]
      intro _
      simp only [budget]
      omega
    · rw [hsettle]
      exact budget_replyTo_lt _ _ hn ha.1 (Nat.le_of_lt hlt)
  | serverEof =>
    exact budget_replyTo_lt s.taken s.toServer hn ha.1 (Nat.le_refl _) hinv
  | serverFail =>
    rcases hphase : s.server with - | - | -
    · rw [next, if_pos hphase] at hinv ⊢
      exact budget_replyTo_lt s.taken s.toServer hn hphase (Nat.le_refl _) hinv
    · rw [next, if_neg (by simp [hphase])]
      simp only [budget, hphase, ServerPhase.weight]
      omega
    · exact absurd hphase ha.1
  | serverWrite k =>
    obtain ⟨-, hpos, hle, -⟩ := ha
    simp only [budget, next, List.length_drop, List.length_append, List.length_take]
    omega
  | serverClose =>
    simp only [budget, next, ha.1, ServerPhase.weight]
    omega
  | breakOff =>
    have hunbroken : s.broken = false := ha
    simp [budget, next, hunbroken]

/-- **Every run is bounded**, whatever fails in it. -/
theorem length_le_of_repliesWithin [DecidableEq α] (hn : E.RepliesWithin n)
    (h : E.system.run as = some s) : as.length ≤ 2 * E.request.length + 2 * n + 5 := by
  have hmeets : E.system.Meets (fun _ _ ↦ True) ([] ++ (as ++ [])) :=
    fun _ _ _ _ _ _ ↦ trivial
  have hle := (TransitionSystem.countP_le_of_meets (I := E.Inv) (fun _ ↦ true) (budget n)
    (fun s a s' hs _ hstep ↦ ?_) hmeets rfl inv_init h).2
  · rw [List.countP_true] at hle
    have hinit : budget n E.system.init = 2 * E.request.length + 2 * n + 5 := by
      show budget n E.init = _
      simp only [budget, init, ClientPhase.weight, ServerPhase.weight, List.length_nil,
        Bool.not_false, Bool.toNat_true]
      omega
    omega
  · obtain ⟨ha, rfl⟩ := step_eq_some_iff.1 hstep
    have hlt := budget_next_lt hn hs ha
    exact ⟨hs.next ha, by simp only [if_true]; omega⟩

end Budget

section Delimited

variable {r lost : A} {b : B}

/-- The server replies to the request, or not at all. -/
theorem Delimited.repliesWithin (hE : E.Delimited r lost b) :
    E.RepliesWithin (E.reply r).length := by
  intro s h r' hr
  rcases hr.eq_or hE h with ⟨rfl, -⟩ | rfl
  · exact Nat.le_refl _
  · rw [hE.reply_lost]
    exact Nat.zero_le _

/-- The length of a run in which the messages are delimited. -/
theorem length_le_of_run [DecidableEq α] (hE : E.Delimited r lost b)
    (h : E.system.run as = some s) :
    as.length ≤ 2 * E.request.length + 2 * (E.reply r).length + 5 :=
  length_le_of_repliesWithin hE.repliesWithin h

/-! ### No run gets stuck -/

variable (E) in
/-- Both parties are done. -/
def Final (s : ExchangeState α κ A B) : Prop :=
  s.client = .returned ∧ s.server = .closed

/-- A server that has closed takes no step. -/
theorem step_of_closed [DecidableEq α] (hserver : s.server = .closed) (hparty : a.ofServer) :
    E.system.step s a = none := by
  refine if_neg fun ha ↦ ?_
  cases a with
  | serverRead k => exact ServerPhase.noConfusion (ha.1.symm.trans hserver)
  | serverEof => exact ServerPhase.noConfusion (ha.1.symm.trans hserver)
  | serverFail => exact ha.1 hserver
  | serverWrite n => exact ServerPhase.noConfusion (ha.1.symm.trans hserver)
  | serverClose => exact ServerPhase.noConfusion (ha.1.symm.trans hserver)
  | _ => exact Bool.noConfusion hparty

/-- Only its own steps change where the server stands. -/
theorem server_next (hnot : a.ofServer = false) : (E.next s a).server = s.server := by
  cases a with
  | clientRead k =>
    show (E.settleClient { s with
      toClient := s.toClient.drop (E.pieces.content k).length
      received := s.received ++ [k] }).server = s.server
    rcases E.settleClient_cases { s with
      toClient := s.toClient.drop (E.pieces.content k).length, received := s.received ++ [k] } with
      ⟨-, hsettle⟩ | ⟨b, -, hsettle⟩
    · rw [hsettle]
    · rw [hsettle]
  | clientWrite n => rfl
  | clientTurn => rfl
  | clientEof => rfl
  | clientFail => rfl
  | breakOff => rfl
  | _ => exact Bool.noConfusion hnot

/-- A server that has closed stays so. -/
theorem closed_of_step [DecidableEq α] (hserver : s.server = .closed)
    (h : E.system.step s a = some s') : s'.server = .closed := by
  have hnot : a.ofServer = false := by
    rcases hparty : a.ofServer with - | -
    · rfl
    · exact absurd ((step_of_closed hserver hparty).symm.trans h) (by simp)
  obtain ⟨-, rfl⟩ := step_eq_some_iff.1 h
  exact (server_next hnot).trans hserver

/-- Parties that are done take no step. -/
theorem step_of_final [DecidableEq α] (hfinal : Final s) (hparty : a.ofParty) :
    E.system.step s a = none := by
  refine if_neg fun ha ↦ ?_
  obtain ⟨hclient, hserver⟩ := hfinal
  have hnone : ∀ b : ExchangeAction κ, b.ofServer → ¬ E.Enabled s b := fun b hb henabled ↦
    absurd ((step_of_closed hserver hb).symm.trans (step_eq_some_iff.2 ⟨henabled, rfl⟩)) (by simp)
  cases a with
  | clientWrite n => exact ClientPhase.noConfusion (ha.1.symm.trans hclient)
  | clientTurn => exact ClientPhase.noConfusion (ha.1.symm.trans hclient)
  | clientRead k => exact ClientPhase.noConfusion (ha.1.symm.trans hclient)
  | clientEof => exact ClientPhase.noConfusion (ha.1.symm.trans hclient)
  | clientFail => exact ha.1 hclient
  | breakOff => exact Bool.noConfusion hparty
  | _ => exact hnone _ rfl ha

/-- A party that is not done can give up on a broken connection. -/
theorem exists_enabled_of_broken (hbroken : s.broken = true) (hfinal : ¬ Final s) :
    ∃ a, a.ofParty ∧ E.Enabled s a := by
  by_cases hclient : s.client = .returned
  · exact ⟨.serverFail, rfl, fun hserver ↦ hfinal ⟨hclient, hserver⟩, hbroken⟩
  · exact ⟨.clientFail, rfl, hclient, hbroken⟩

/-- What is in flight can be read. -/
theorem exists_content_prefix {l : List α} (h : l ≠ []) : ∃ k, E.pieces.content k <+: l := by
  obtain ⟨x, l, rfl⟩ := List.exists_cons_of_ne_nil h
  exact ⟨E.pieces.single x, l, by rw [E.pieces.content_single]; rfl⟩

/-- On an unbroken connection, one of the parties can go on until both are done. -/
theorem exists_enabled_of_unbroken (hE : E.Delimited r lost b) (h : E.Inv s)
    (hbroken : s.broken = false) (hfinal : ¬ Final s) : ∃ a, a.ofParty ∧ E.Enabled s a := by
  have hroom := E.room_pos
  -- what is in flight to a client that does not write is read
  have hread : s.toClient ≠ [] → s.client = .reading → ∃ a, a.ofParty ∧ E.Enabled s a := by
    intro hne hclient
    obtain ⟨k, hk⟩ := E.exists_content_prefix hne
    exact ⟨.clientRead k, rfl, hclient, hk⟩
  rcases hserver : s.server with - | - | -
  · by_cases hempty : s.toServer = []
    · rcases hclient : s.client with - | - | -
      · by_cases hleft : s.toWrite = []
        · exact ⟨.clientTurn, rfl, hclient, hleft⟩
        · exact ⟨.clientWrite 1, rfl, hclient, Nat.one_pos, List.length_pos_iff.2 hleft,
            by rw [hempty, List.length_nil]; omega⟩
      · -- everything has been written and read, so the server would have its result
        have hwhole := h.request_eq
        rw [hempty, (h.client.reading hclient).2.1, List.append_nil, List.append_nil] at hwhole
        obtain ⟨-, -, -, -, hmore⟩ := h.server.reading hserver
        exact absurd ((hE.request.whole s.taken hwhole).symm.trans hmore) (by simp)
      · exact absurd ((broken_of_returned h hserver hclient).symm.trans hbroken) (by simp)
    · obtain ⟨k, hk⟩ := E.exists_content_prefix hempty
      exact ⟨.serverRead k, rfl, hserver, hk⟩
  · obtain ⟨hr, -, hwritten⟩ := h.handled_of_unbroken hE hbroken (by simp [hserver])
    by_cases hleft : s.toReply = []
    · exact ⟨.serverClose, rfl, hserver, hleft⟩
    by_cases hempty : s.toClient = []
    · exact ⟨.serverWrite 1, rfl, hserver, Nat.one_pos, List.length_pos_iff.2 hleft,
        by rw [hempty, List.length_nil]; omega⟩
    rcases hclient : s.client with - | - | -
    · exact ⟨.clientTurn, rfl, hclient, hwritten⟩
    · exact hread hempty hclient
    · obtain ⟨-, -, hwhole⟩ := h.returned_of_unbroken hE hbroken hclient
      have hreply := hr.reply_eq
      rw [hwhole, List.append_assoc, List.append_right_eq_self] at hreply
      exact absurd (List.append_eq_nil_iff.1 hreply).2 hleft
  · obtain ⟨-, -, hwritten⟩ := h.handled_of_unbroken hE hbroken (by simp [hserver])
    rcases hclient : s.client with - | - | -
    · exact ⟨.clientTurn, rfl, hclient, hwritten⟩
    · by_cases hempty : s.toClient = []
      · exact ⟨.clientEof, rfl, hclient, hempty, hserver⟩
      · exact hread hempty hclient
    · exact absurd ⟨hclient, hserver⟩ hfinal

/-- **No run gets stuck** before both parties are done. -/
theorem exists_step [DecidableEq α] (hE : E.Delimited r lost b) (h : E.system.run as = some s)
    (hfinal : ¬ Final s) : ∃ a s', a.ofParty ∧ E.system.step s a = some s' := by
  obtain ⟨a, hparty, ha⟩ : ∃ a, a.ofParty ∧ E.Enabled s a := by
    rcases hbroken : s.broken with - | -
    · exact exists_enabled_of_unbroken hE (inv_of_run h) hbroken hfinal
    · exact exists_enabled_of_broken hbroken hfinal
  exact ⟨a, _, hparty, step_eq_some_iff.2 ⟨ha, rfl⟩⟩

/-- **A run in which no party can go on** has ended, and if the connection did not break, it has
brought the reply to the client. -/
theorem final_of_stuck [DecidableEq α] (hE : E.Delimited r lost b) (h : E.system.run as = some s)
    (hstuck : ∀ a, a.ofParty → E.system.step s a = none) :
    Final s ∧ (s.broken = false → s.handled = [r] ∧ s.result = some b) := by
  have hfinal : Final s := by
    by_contra hnot
    obtain ⟨a, s', hparty, hstep⟩ := exists_step hE h hnot
    exact absurd ((hstuck a hparty).symm.trans hstep) (by simp)
  refine ⟨hfinal, fun hbroken ↦ ?_⟩
  have hinv := inv_of_run h
  obtain ⟨hresult, hserver, -⟩ := hinv.returned_of_unbroken hE hbroken hfinal.1
  exact ⟨(hinv.handled_of_unbroken hE hbroken hserver).1.handled_eq, hresult⟩

end Delimited

/-! ### Many exchanges and few workers -/

section Pool

variable {ι : Type*}

/-- Exchanges with one server, whose side each of a number of workers takes, one exchange after the
other. -/
def pooled [DecidableEq α] (F : ι → Exchange α κ σ τ A B) (workers : ℕ)
    (workers_pos : 0 < workers) : WorkerPool ι (ExchangeState α κ A B) (ExchangeAction κ) where
  system i := (F i).system
  usesWorker := ExchangeAction.ofServer
  isOver s := s.server = .closed
  workers := workers
  workers_pos := workers_pos

variable {F : ι → Exchange α κ σ τ A B} {workers : ℕ} {workers_pos : 0 < workers}

/-- **A delimited exchange can be served by a pool.** -/
theorem pooled_serves [DecidableEq α] {i : ι} {r lost : A} {b : B}
    (hF : (F i).Delimited r lost b) :
    (pooled F workers workers_pos).Serves ExchangeAction.ofParty i where
  over_of_stuck _ _ hrun hstuck := decide_eq_true (final_of_stuck hF hrun hstuck).1.2
  over_of_step _ _ _ hover hstep :=
    decide_eq_true (closed_of_step (of_decide_eq_true hover) hstep)
  none_of_over _ _ hover huses := step_of_closed (of_decide_eq_true hover) huses

end Pool

end Exchange
