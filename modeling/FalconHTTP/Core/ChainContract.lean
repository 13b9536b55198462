import FalconHTTP.Core.Chain

/-!
# What one level of the chain reports

Each level of the chain keeps a flag of its own: every returning call of `next` overwrites it, and a
throwing one leaves it alone. This module says when that flag is right, level by level.

A `ChainContract` is what is known of a chain on an open connection: which calls it serves, what it
may answer to them when it leaves the connection alone, and what when it takes it. A contract may
depend on the values that the counter of streams will still show. `Describes` says that a chain
keeps to a contract, and that it returns `true` exactly when it took the connection.

`Fulfils` is the condition on a middleware in front of such a chain. It looks at the program of the
middleware alone, answer by answer of its calls. As long as the connection is there the middleware
calls `next` as the inner contract serves it, and ends as the outer one says (`Keeps`). After a call
that took the connection and returned, it may return as well, but not once a later call has returned
(`Settles`). After a call that took the connection and threw, it throws (`Rethrows`).

The condition is enough (`Fulfils.describes`). Where the inner contract serves every call it is also
necessary, for a middleware that may be put in front of any chain that keeps to the inner contract
(`fulfils_iff`).
-/

namespace FalconHTTP

variable {M : Type} [FiniteMap M Bytes Bytes]

/-- An open connection, with the endpoint of its socket. -/
structure OpenWire where
  /-- The connection. -/
  connection : Connection
  /-- The endpoint. -/
  endpoint : Endpoint
  /-- The connection is open. -/
  isOpen : connection.isOpen = true

/-- The connection is still the given one, and nothing was sent on it. -/
def ChainState.On (s : ChainState) (wire : OpenWire) : Prop :=
  s.connection = wire.connection ∧ s.endpoint = wire.endpoint

/-- The connection of a state in which it is open. -/
def ChainState.wire (s : ChainState) (hopen : s.connection.isOpen = true) : OpenWire :=
  ⟨s.connection, s.endpoint, hopen⟩

/-- A state is on its own connection. -/
theorem ChainState.on_wire (s : ChainState) (hopen : s.connection.isOpen = true) :
    s.On (s.wire hopen) :=
  ⟨rfl, rfl⟩

/-- The connection is open. -/
theorem ChainState.On.isOpen {s : ChainState} {wire : OpenWire} (h : s.On wire) :
    s.connection.isOpen = true := by
  rw [h.1]
  exact wire.isOpen

/-- What is known of a chain from one level on, called while the counter of streams is still to show
the given values. -/
structure ChainContract (M : Type) [FiniteMap M Bytes Bytes] where
  /-- The calls it is made for. -/
  serves : NextCall M → List ℕ → Prop
  /-- What it may answer to a call when it leaves the connection alone, and the values it leaves. -/
  leaves : NextCall M → List ℕ → NextResult M → List ℕ → Prop
  /-- What it may answer to a call when it takes the connection. -/
  takes : NextCall M → List ℕ → NextResult M → Prop

/-- A chain, or the rest of one: what `runChain` is on the middlewares that are left. -/
abbrev ChainRun (M : Type) [FiniteMap M Bytes Bytes] :=
  HttpRequest M → HttpResponse M → ChainState → ChainEnd M

/-- What a chain answers to the middleware that called it. -/
def ChainEnd.answer (ended : ChainEnd M) : NextResult M :=
  (ended.result.map fun _ ↦ (), ended.request, ended.response)

namespace ChainContract

/-! ### Conditions on a program -/

section Programs

variable (inner outer : ChainContract M) (served : NextCall M) (first : List ℕ)

/-- Whatever its calls answer, the program throws, as it may after taking the connection. -/
def Rethrows (p : MiddlewareProgram M) : Prop :=
  p.Ensures (fun _ _ ↦ True) fun r ↦ r.1 ≠ .ok () ∧ outer.takes served first r

/-- What may come after a call that took the connection and returned: the program ends as it may
then, and it throws once another call has returned, which overwrites the flag. -/
def Settles : MiddlewareProgram M → Prop
  | .done r => outer.takes served first r
  | .call _ next => ∀ r,
    (r.1 = .ok () → outer.Rethrows served first (next r)) ∧ (r.1 ≠ .ok () → Settles (next r))

/-- The program makes calls that are served. As long as they leave the connection alone, it ends as
it may; after a call that took it, the program reports that, or throws. -/
def Keeps : MiddlewareProgram M → List ℕ → Prop
  | .done r, values => outer.leaves served first r values
  | .call call next, values => inner.serves call values ∧ ∀ r,
    (∀ left, inner.leaves call values r left → Keeps (next r) left) ∧
    (inner.takes call values r →
      (r.1 = .ok () → outer.Settles served first (next r)) ∧
      (r.1 ≠ .ok () → outer.Rethrows served first (next r)))

end Programs

/-- A middleware that makes a chain with the contract `outer` of one with the contract `inner`. -/
def Fulfils (inner outer : ChainContract M) (m : MiddlewareFn M) : Prop :=
  ∀ served values, outer.serves served values →
    inner.Keeps outer served values (m served.1 served.2) values

/-! ### What a chain does -/

/-- How a chain may end that was called on an open connection. -/
structure Ends (contract : ChainContract M) (wire : OpenWire) (call : NextCall M)
    (values : List ℕ) (ended : ChainEnd M) : Prop where
  /-- What is returned tells whether the connection was taken. -/
  returned : ∀ streamed, ended.result = .ok streamed → streamed = !ended.state.connection.isOpen
  /-- The answer when the connection was left alone. -/
  left : ended.state.connection.isOpen = true →
    ended.state.On wire ∧ contract.leaves call values ended.answer ended.state.fetched
  /-- The answer when it was taken. -/
  taken : ended.state.connection.isOpen = false → contract.takes call values ended.answer

/-- How a chain that keeps to the contract may end, called in a state. -/
structure Allows (contract : ChainContract M) (wire : OpenWire) (call : NextCall M)
    (s : ChainState) (ended : ChainEnd M) : Prop where
  /-- A connection that is gone stays gone. -/
  gone : s.connection.isOpen = false → ended.state.connection.isOpen = false
  /-- A call that is served, on the open connection, ends as the contract says. -/
  ends : s.On wire → contract.serves call s.fetched → contract.Ends wire call s.fetched ended

/-- The chain keeps to the contract. -/
def Describes (contract : ChainContract M) (wire : OpenWire) (run : ChainRun M) : Prop :=
  ∀ call s, contract.Allows wire call s (run call.1 call.2 s)

/-- How a level ends whose middleware still has the program `p` to run. -/
def finish (rest : ChainRun M) (p : MiddlewareProgram M) (streamed : Bool) (s : ChainState) :
    ChainEnd M :=
  let t := p.run (Server.nextCall rest) (streamed, s)
  ⟨t.1.1.map fun _ ↦ t.2.1, t.1.2.1, t.1.2.2, t.2.2⟩

/-- One level in front of a chain. -/
def level (rest : ChainRun M) (m : MiddlewareFn M) : ChainRun M := fun request response s ↦
  finish rest (m request response) false s

section Finish

variable {contract : ChainContract M} {wire : OpenWire} {rest : ChainRun M} {s₀ s : ChainState}
  {streamed : Bool} {call : NextCall M} {values : List ℕ} {r : NextResult M}

@[simp] theorem finish_done (r : NextResult M) :
    finish rest (.done r) streamed s = ⟨r.1.map fun _ ↦ streamed, r.2.1, r.2.2, s⟩ := rfl

@[simp] theorem finish_call (call : NextCall M) (next : NextResult M → MiddlewareProgram M) :
    finish rest (.call call next) streamed s =
      finish rest (next (Server.nextCall rest call (streamed, s)).1)
        (Server.nextCall rest call (streamed, s)).2.1
        (Server.nextCall rest call (streamed, s)).2.2 := rfl

/-- How a middleware may end, by its flag and the state it leaves. -/
theorem ends_map_iff :
    contract.Ends wire call values ⟨r.1.map fun _ ↦ streamed, r.2.1, r.2.2, s⟩ ↔
      (r.1 = .ok () → streamed = !s.connection.isOpen) ∧
      (s.connection.isOpen = true → s.On wire ∧ contract.leaves call values r s.fetched) ∧
      (s.connection.isOpen = false → contract.takes call values r) := by
  obtain ⟨e | ⟨⟩, left⟩ := r
  · constructor
    · exact fun h ↦ ⟨fun hok ↦ absurd hok (by simp), h.left, h.taken⟩
    · exact fun h ↦ ⟨fun b hb ↦ absurd hb (by simp [Except.map]), h.2.1, h.2.2⟩
  · constructor
    · exact fun h ↦ ⟨fun _ ↦ h.returned streamed rfl, h.left, h.taken⟩
    · refine fun h ↦ ⟨fun b hb ↦ ?_, h.2.1, h.2.2⟩
      obtain rfl := Except.ok.inj hb
      exact h.1 rfl

/-- Ending with a clear flag on the open connection. -/
theorem ends_of_leaves (h : contract.leaves call values r s.fetched) (hs : s.On wire) :
    contract.Ends wire call values ⟨r.1.map fun _ ↦ false, r.2.1, r.2.2, s⟩ :=
  ends_map_iff.2 ⟨fun _ ↦ by simp [hs.isOpen], fun _ ↦ ⟨hs, h⟩,
    fun hgone ↦ absurd (hs.isOpen.symm.trans hgone) (by decide)⟩

/-- Ending with the flag set once the connection is gone. -/
theorem ends_of_takes (h : contract.takes call values r) (hs : s.connection.isOpen = false) :
    contract.Ends wire call values ⟨r.1.map fun _ ↦ true, r.2.1, r.2.2, s⟩ :=
  ends_map_iff.2 ⟨fun _ ↦ by simp [hs],
    fun hopen ↦ absurd (hs.symm.trans hopen) (by decide), fun _ ↦ h⟩

/-- A call that leaves the connection as it is. -/
theorem allows_of_leaves
    (h : contract.serves call s₀.fetched → contract.leaves call s₀.fetched r s.fetched)
    (hconnection : s.connection = s₀.connection) (hendpoint : s.endpoint = s₀.endpoint) :
    contract.Allows wire call s₀ ⟨r.1.map fun _ ↦ false, r.2.1, r.2.2, s⟩ where
  gone hgone := (congrArg Connection.isOpen hconnection).trans hgone
  ends hs₀ hserves :=
    ends_of_leaves (h hserves) ⟨hconnection.trans hs₀.1, hendpoint.trans hs₀.2⟩

/-- A call that takes it. -/
theorem allows_of_takes
    (h : s₀.On wire → contract.serves call s₀.fetched → contract.takes call s₀.fetched r)
    (hgone : s.connection.isOpen = false) :
    contract.Allows wire call s₀ ⟨r.1.map fun _ ↦ true, r.2.1, r.2.2, s⟩ where
  gone _ := hgone
  ends hs₀ hserves := ends_of_takes (h hs₀ hserves) hgone

/-- A call of `next` gives the middleware the answer of the rest of the chain. -/
theorem nextCall_answer (streamed : Bool) :
    (Server.nextCall rest call (streamed, s)).1 = (rest call.1 call.2 s).answer := by
  rw [Server.nextCall, ChainEnd.answer]
  rcases (rest call.1 call.2 s).result with e | b <;> rfl

/-- A call of `next` that throws keeps the flag. -/
theorem nextCall_flag_of_throws {t : Bool × ChainState}
    (hthrows : (Server.nextCall rest call t).1.1 ≠ .ok ()) :
    (Server.nextCall rest call t).2.1 = t.1 := by
  rw [Server.nextCall_result] at hthrows
  rw [Server.nextCall_flag]
  rcases hresult : (rest call.1 call.2 t.2).result with e | b
  · rfl
  · exact absurd (by rw [hresult]; rfl) hthrows

/-- A call of `next` that returns sets the flag to what the rest of the chain returned. -/
theorem nextCall_flag_of_returns {t : Bool × ChainState}
    (hreturns : (Server.nextCall rest call t).1.1 = .ok ()) :
    (rest call.1 call.2 t.2).result = .ok (Server.nextCall rest call t).2.1 := by
  rw [Server.nextCall_result] at hreturns
  rw [Server.nextCall_flag]
  rcases hresult : (rest call.1 call.2 t.2).result with e | b
  · rw [hresult] at hreturns
    exact absurd hreturns (by simp [Except.map])
  · rfl

end Finish

/-! ### The condition is enough -/

section Sound

variable {inner outer : ChainContract M} {wire : OpenWire} {rest : ChainRun M}
  {p : MiddlewareProgram M} {m : MiddlewareFn M} {s : ChainState} {streamed : Bool}
  {served : NextCall M} {first values : List ℕ}

/-- A connection that is gone stays gone. -/
theorem Describes.finish_gone (h : inner.Describes wire rest) (hs : s.connection.isOpen = false) :
    (finish rest p streamed s).state.connection.isOpen = false := by
  refine Interaction.run_invariant (I := fun t : Bool × ChainState ↦ t.2.connection.isOpen = false)
    (fun call t ht ↦ ?_) hs
  rw [Server.nextCall_state]
  exact (h call t.2).gone ht

/-- A program that throws ends as it may, whatever its flag is. -/
theorem Rethrows.ends (h : inner.Describes wire rest) (hp : outer.Rethrows served first p)
    (hs : s.connection.isOpen = false) :
    outer.Ends wire served first (finish rest p streamed s) := by
  have hgone : (finish rest p streamed s).state.connection.isOpen = false := h.finish_gone hs
  obtain ⟨hthrows, htakes⟩ := Interaction.Ensures.run (h := Server.nextCall rest)
    (s := (streamed, s)) hp fun _ _ ↦ trivial
  refine ends_map_iff.2 ⟨fun hok ↦ absurd hok hthrows, fun hopen ↦ ?_, fun _ ↦ htakes⟩
  exact absurd (hgone.symm.trans hopen) (by decide)

/-- After a call that took the connection and returned, the flag is set. -/
theorem Settles.ends (h : inner.Describes wire rest) (hp : outer.Settles served first p)
    (hs : s.connection.isOpen = false) : outer.Ends wire served first (finish rest p true s) := by
  induction p generalizing s with
  | done r => exact ends_of_takes hp hs
  | call call next ih =>
    obtain ⟨hreturned, hthrown⟩ := hp (Server.nextCall rest call (true, s)).1
    have hgone : (Server.nextCall rest call (true, s)).2.2.connection.isOpen = false := by
      rw [Server.nextCall_state]
      exact (h call s).gone hs
    rw [finish_call]
    by_cases hok : (Server.nextCall rest call (true, s)).1.1 = .ok ()
    · exact (hreturned hok).ends h hgone
    · rw [nextCall_flag_of_throws hok]
      exact ih _ (hthrown hok) hgone

/-- **A program that keeps to the contract tells what was done to the connection.** -/
theorem Keeps.ends (h : inner.Describes wire rest) (hp : inner.Keeps outer served first p s.fetched)
    (hs : s.On wire) : outer.Ends wire served first (finish rest p false s) := by
  induction p generalizing s with
  | done r => exact ends_of_leaves hp hs
  | call call next ih =>
    obtain ⟨hserves, hnext⟩ := hp
    obtain ⟨hleft, htaken⟩ := hnext (Server.nextCall rest call (false, s)).1
    have hends := (h call s).ends hs hserves
    rw [finish_call]
    rcases hopen : (rest call.1 call.2 s).state.connection.isOpen with - | -
    · obtain ⟨hreturned, hthrown⟩ := htaken (by rw [nextCall_answer]; exact hends.taken hopen)
      have hgone : (Server.nextCall rest call (false, s)).2.2.connection.isOpen = false := by
        rw [Server.nextCall_state]
        exact hopen
      by_cases hok : (Server.nextCall rest call (false, s)).1.1 = .ok ()
      · have hflag := hends.returned _ (nextCall_flag_of_returns hok)
        rw [hopen] at hflag
        rw [hflag]
        exact (hreturned hok).ends h hgone
      · exact (hthrown hok).ends h hgone
    · -- nothing has happened, and the flag is still clear
      have hclear : (Server.nextCall rest call (false, s)).2.1 = false := by
        by_cases hok : (Server.nextCall rest call (false, s)).1.1 = .ok ()
        · rw [hends.returned _ (nextCall_flag_of_returns hok), hopen]
          rfl
        · exact nextCall_flag_of_throws hok
      obtain ⟨hon, hleaves⟩ := hends.left hopen
      rw [← nextCall_answer false] at hleaves
      rw [hclear]
      refine ih _ ?_ ?_
      · rw [Server.nextCall_state]
        exact hleft _ hleaves
      · rw [Server.nextCall_state]
        exact hon

/-- **The rule of a level**: a middleware that fulfils the condition makes a chain that keeps to the
outer contract of one that keeps to the inner. -/
theorem Fulfils.describes (hm : inner.Fulfils outer m) (h : inner.Describes wire rest) :
    outer.Describes wire (level rest m) := fun call s ↦
  { gone := h.finish_gone
    ends := fun hs hserves ↦ (hm call s.fetched hserves).ends h hs }

end Sound

/-! ### The condition is necessary -/

/-- A contract that serves every call, and may leave the connection alone. -/
structure Total (contract : ChainContract M) : Prop where
  /-- Every call is served. -/
  serves : ∀ call values, contract.serves call values
  /-- No call need take the connection. -/
  leaves : ∀ call values, ∃ r : NextResult M × List ℕ, contract.leaves call values r.1 r.2

section Complete

variable {inner outer : ChainContract M} {wire : OpenWire} {p : MiddlewareProgram M}
  {m : MiddlewareFn M} {served call : NextCall M} {first values : List ℕ} {r : NextResult M}
  {streamed : Bool} {s₀ s : ChainState} {rest idle : ChainRun M}

/-- Once it is gone, everything may be answered. -/
theorem allows_of_gone (hs₀ : s₀.connection.isOpen = false) (hs : s.connection.isOpen = false)
    (call : NextCall M) (result : Except Exn Bool) (left : NextCall M) :
    inner.Allows wire call s₀ ⟨result, left.1, left.2, s⟩ :=
  ⟨fun _ ↦ hs, fun hopen ↦ absurd (hs₀.symm.trans hopen.isOpen) (by decide)⟩

/-- There is a chain that never touches the connection and keeps to a total contract. -/
theorem Total.exists_idle (h : inner.Total) (wire : OpenWire) :
    ∃ idle : ChainRun M, inner.Describes wire idle := by
  choose r hr using h.leaves
  exact ⟨fun request response s ↦ ⟨(r (request, response) s.fetched).1.1.map fun _ ↦ false,
    (r (request, response) s.fetched).1.2.1, (r (request, response) s.fetched).1.2.2,
    { s with fetched := (r (request, response) s.fetched).2 }⟩,
    fun call s ↦ allows_of_leaves (fun _ ↦ hr call s.fetched) rfl rfl⟩

/-- A state in which one more operation was counted. -/
def counted (s : ChainState) : ChainState :=
  { s with counterOps := .fetchSub :: s.counterOps }

open Classical in
/-- A chain that answers one call, made in a state `s₀` in which nothing was counted, as it is told,
and leaves the state `s` behind; and is `rest` from then on. -/
noncomputable def answering (idle : ChainRun M) (call : NextCall M) (s₀ : ChainState)
    (r : NextResult M) (streamed : Bool) (s : ChainState) (rest : ChainRun M) : ChainRun M :=
  fun request response t ↦
    match t.counterOps with
    | [] =>
      if (request, response) = call ∧ t = s₀ then
        ⟨r.1.map fun _ ↦ streamed, r.2.1, r.2.2, counted s⟩
      else idle request response t
    | _ :: ops =>
      let e := rest request response { t with counterOps := ops }
      { e with state := counted e.state }

/-- It keeps to a contract if the answer does. -/
theorem Describes.answering (hidle : inner.Describes wire idle) (h : inner.Describes wire rest)
    (hanswer : inner.Allows wire call s₀ ⟨r.1.map fun _ ↦ streamed, r.2.1, r.2.2, s⟩) :
    inner.Describes wire (answering idle call s₀ r streamed s rest) := by
  intro c t
  rw [ChainContract.answering]
  split
  · split
    · rename_i hfirst
      obtain ⟨rfl, rfl⟩ := hfirst
      exact ⟨hanswer.gone, fun ht hserves ↦ ⟨(hanswer.ends ht hserves).returned,
        (hanswer.ends ht hserves).left, (hanswer.ends ht hserves).taken⟩⟩
    · exact hidle c t
  · rename_i ops _
    have hrest := h c { t with counterOps := ops }
    exact ⟨hrest.gone, fun ht hserves ↦ ⟨(hrest.ends ht hserves).returned,
      (hrest.ends ht hserves).left, (hrest.ends ht hserves).taken⟩⟩

/-- The call is answered as told. -/
theorem nextCall_answering (hs₀ : s₀.counterOps = []) (b : Bool) :
    Server.nextCall (answering idle call s₀ r streamed s rest) call (b, s₀) =
      (r, if r.1 = .ok () then streamed else b, counted s) := by
  obtain ⟨result, left⟩ := r
  rw [Server.nextCall, answering, hs₀]
  simp only [and_self, if_true]
  rcases result with e | ⟨⟩
  · rfl
  · rfl

/-- From then on a program ends as it does under `rest`. -/
theorem finish_answering (b : Bool) (t : ChainState) :
    finish (answering idle call s₀ r streamed s rest) p b (counted t) =
      { finish rest p b t with state := counted (finish rest p b t).state } := by
  -- the two runs are always in states that differ by one counted operation
  have hcall : ∀ c (u u' : Bool × ChainState), u = (u'.1, counted u'.2) →
      (Server.nextCall (answering idle call s₀ r streamed s rest) c u).1 =
        (Server.nextCall rest c u').1 ∧
      (Server.nextCall (answering idle call s₀ r streamed s rest) c u).2 =
        ((Server.nextCall rest c u').2.1, counted (Server.nextCall rest c u').2.2) := by
    rintro c _ ⟨b, u⟩ rfl
    have hsame : answering idle call s₀ r streamed s rest c.1 c.2 (counted u) =
        { rest c.1 c.2 u with state := counted (rest c.1 c.2 u).state } := rfl
    rw [Server.nextCall, Server.nextCall]
    simp only [hsame]
    rcases (rest c.1 c.2 u).result with e | b'
    · exact ⟨rfl, rfl⟩
    · exact ⟨rfl, rfl⟩
  have hrun : (p.run (Server.nextCall (answering idle call s₀ r streamed s rest))
        (b, counted t)).1 = (p.run (Server.nextCall rest) (b, t)).1 ∧
      (p.run (Server.nextCall (answering idle call s₀ r streamed s rest)) (b, counted t)).2 =
        ((p.run (Server.nextCall rest) (b, t)).2.1,
          counted (p.run (Server.nextCall rest) (b, t)).2.2) :=
    Interaction.run_simulation (fun u u' : Bool × ChainState ↦ u = (u'.1, counted u'.2)) hcall rfl
  rw [finish, finish, hrun.1, hrun.2]

/-- **The first answer is open**: if a program that begins with a call ends as it may in front of
every chain that keeps to the contract, then so does what it goes on with, after any answer that the
contract allows. -/
theorem Describes.ends_next (hidle : inner.Describes wire idle)
    {next : NextResult M → MiddlewareProgram M} {b : Bool} (hs₀ : s₀.counterOps = [])
    (hp : ∀ rest : ChainRun M, inner.Describes wire rest →
      outer.Ends wire served first (finish rest (.call call next) b s₀))
    (h : inner.Describes wire rest)
    (hanswer : inner.Allows wire call s₀ ⟨r.1.map fun _ ↦ streamed, r.2.1, r.2.2, s⟩) :
    outer.Ends wire served first
      (finish rest (next r) (if r.1 = .ok () then streamed else b) s) := by
  have hends := hp _ (hidle.answering h hanswer)
  rw [finish_call, nextCall_answering hs₀, finish_answering] at hends
  exact ⟨hends.returned, hends.left, hends.taken⟩

/-- A state on the open connection in which nothing was counted. -/
def opened (wire : OpenWire) (values : List ℕ) : ChainState where
  connection := wire.connection
  endpoint := wire.endpoint
  fetched := values
  counterOps := []

/-- A state in which the connection is gone and nothing was counted. -/
def moved (wire : OpenWire) : ChainState where
  connection := .movedFrom
  endpoint := wire.endpoint
  fetched := []
  counterOps := []

/-- A program that ends as it may with a clear flag, once the connection is gone, throws. -/
theorem rethrows_of_ends (hidle : inner.Describes wire idle)
    (hp : ∀ rest : ChainRun M, inner.Describes wire rest → ∀ s : ChainState,
      s.connection.isOpen = false → outer.Ends wire served first (finish rest p false s)) :
    outer.Rethrows served first p := by
  induction p with
  | done r =>
    obtain ⟨hflag, -, htakes⟩ := ends_map_iff.1 (hp idle hidle (moved wire) rfl)
    exact ⟨fun hok ↦ Bool.noConfusion (hflag hok : false = true), htakes rfl⟩
  | call call next ih =>
    intro r _
    refine ih r fun rest h s hs ↦ ?_
    have hallows : inner.Allows wire call (moved wire) ⟨r.1.map fun _ ↦ false, r.2.1, r.2.2, s⟩ :=
      allows_of_gone rfl hs call _ r.2
    have hends := hidle.ends_next rfl (fun rest h ↦ hp rest h (moved wire) rfl) h hallows
    rwa [ite_self] at hends

/-- A program that ends as it may with the flag set, once the connection is gone, settles. -/
theorem settles_of_ends (hidle : inner.Describes wire idle)
    (hp : ∀ rest : ChainRun M, inner.Describes wire rest → ∀ s : ChainState,
      s.connection.isOpen = false → outer.Ends wire served first (finish rest p true s)) :
    outer.Settles served first p := by
  induction p with
  | done r =>
    obtain ⟨-, -, htakes⟩ := ends_map_iff.1 (hp idle hidle (moved wire) rfl)
    exact htakes rfl
  | call call next ih =>
    intro r
    -- the call clears the flag if it returns
    have hnext : ∀ rest : ChainRun M, inner.Describes wire rest → ∀ s : ChainState,
        s.connection.isOpen = false → outer.Ends wire served first
          (finish rest (next r) (if r.1 = .ok () then false else true) s) := by
      intro rest h s hs
      have hallows :
          inner.Allows wire call (moved wire) ⟨r.1.map fun _ ↦ false, r.2.1, r.2.2, s⟩ :=
        allows_of_gone rfl hs call _ r.2
      exact hidle.ends_next rfl (fun rest h ↦ hp rest h (moved wire) rfl) h hallows
    constructor
    · intro hok
      rw [if_pos hok] at hnext
      exact rethrows_of_ends hidle hnext
    · intro hthrows
      rw [if_neg hthrows] at hnext
      exact ih r hnext

/-- A program that ends as it may on the open connection keeps to the contract. -/
theorem keeps_of_ends (htotal : inner.Total) (wire : OpenWire)
    (hp : ∀ rest : ChainRun M, inner.Describes wire rest → ∀ s : ChainState, s.On wire →
      s.fetched = values → outer.Ends wire served first (finish rest p false s)) :
    inner.Keeps outer served first p values := by
  obtain ⟨idle, hidle⟩ := htotal.exists_idle wire
  induction p generalizing values with
  | done r =>
    have hends := hp idle hidle (opened wire values) ⟨rfl, rfl⟩ rfl
    obtain ⟨-, hleaves, -⟩ := ends_map_iff.1 hends
    exact (hleaves wire.isOpen).2
  | call call next ih =>
    have hopened : ∀ rest : ChainRun M, inner.Describes wire rest →
        outer.Ends wire served first (finish rest (.call call next) false (opened wire values)) :=
      fun rest h ↦ hp rest h (opened wire values) ⟨rfl, rfl⟩ rfl
    refine ⟨htotal.serves call values, fun r ↦ ⟨fun left hleaves ↦ ?_, fun htakes ↦ ?_⟩⟩
    · refine ih r fun rest h s hs hfetched ↦ ?_
      have hallows : inner.Allows wire call (opened wire values)
          ⟨r.1.map fun _ ↦ false, r.2.1, r.2.2, s⟩ :=
        allows_of_leaves (fun _ ↦ by rw [hfetched]; exact hleaves) hs.1 hs.2
      have hends := hidle.ends_next rfl hopened h hallows
      rwa [ite_self] at hends
    · have htaken : ∀ rest : ChainRun M, inner.Describes wire rest → ∀ s : ChainState,
          s.connection.isOpen = false → outer.Ends wire served first
            (finish rest (next r) (if r.1 = .ok () then true else false) s) :=
        fun rest h s hs ↦ hidle.ends_next rfl hopened h (allows_of_takes (fun _ _ ↦ htakes) hs)
      constructor
      · intro hok
        rw [if_pos hok] at htaken
        exact settles_of_ends hidle htaken
      · intro hthrows
        rw [if_neg hthrows] at htaken
        exact rethrows_of_ends hidle htaken

/-- **The condition on a level is exact**: a middleware fulfils it if and only if every chain that
keeps to the inner contract, with the middleware in front, keeps to the outer. -/
theorem fulfils_iff (htotal : inner.Total) (wire : OpenWire) :
    inner.Fulfils outer m ↔
      ∀ rest : ChainRun M, inner.Describes wire rest → outer.Describes wire (level rest m) := by
  constructor
  · exact fun hm rest h ↦ hm.describes h
  · intro hlevel served values hserves
    refine keeps_of_ends htotal wire fun rest h s hs hfetched ↦ ?_
    rw [← hfetched] at hserves ⊢
    exact (hlevel rest h served s).ends hs hserves

end Complete

end ChainContract

end FalconHTTP
