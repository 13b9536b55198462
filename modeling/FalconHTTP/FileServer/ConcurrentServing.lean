import FalconHTTP.FileServer.StaticFileServer
import FalconHTTP.Foundation.TransitionSystem
import Mathlib.Logic.Function.Basic

/-!
# Concurrent calls of the static file server

The handlers of a server share one `StaticFileServer`, whose cache is behind a mutex. So a call of
`serve` is a sequence of atomic steps: the two operations on the cache, and between them one look at
the filesystem after another. Any number of calls take these steps in any order, and the filesystem
may change between any two of them. That a file is opened and read is one step.

A call that runs by itself does what `serve` does (`runFrom_next`). `serving_answers` is about all
of them: as long as paths lead where they led, and no directory or special file takes the place of a
regular one, every call reports what the disk answered at one moment, and serves files under the
root directory only. Nothing is said about which moment, since a cache entry is never invalidated
and the thread that read first may store last.

Both conditions are needed, since `serve` looks at a path several times: a link that is changed
after the check and before the file is opened leads out of the root directory
(`exists_run_secret`).
-/

namespace FalconHTTP

open EvictingCache

variable {M : Type} [FiniteMap M Bytes Bytes]

/-! ### One call -/

/-- What a call of `serve` does next. -/
inductive ServePoint (M : Type) [FiniteMap M Bytes Bytes]
  /-- It asks the cache. -/
  | asking
  /-- It checks that the path leads under the root directory. -/
  | checking
  /-- It asks whether there is anything. -/
  | existing
  /-- It asks whether that is a regular file. -/
  | regular
  /-- It opens the file, and reads it. -/
  | opening
  /-- It stores what it has read in the cache. -/
  | storing (contents : Bytes)
  /-- It has returned, or thrown. -/
  | returned (result : Except Exn Bool) (response : HttpResponse M)

/-- A call of `serve` under way. -/
structure ActiveCall (M : Type) [FiniteMap M Bytes Bytes] where
  /-- The request path. -/
  requestPath : Bytes
  /-- The response that was passed in. -/
  response : HttpResponse M
  /-- What it does next. -/
  point : ServePoint M

/-- What opening a path for reading gives, where `opens` says what it gives for what is neither a
regular file nor missing. -/
def FileSystem.openForReading (opens : Node → Option Bytes) (fs : FileSystem) (p : Path) :
    Option Bytes :=
  match fs.reach p with
  | .regularFile contents readable => if readable then some contents else none
  | .missing => none
  | .directory => opens .directory
  | .other => opens .other
  | .failure what => opens (.failure what)

namespace StaticFileServer

/-- The next step of a call: where it takes the call, and the server. -/
def next (opens : Node → Option Bytes) (server : StaticFileServer) (fs : FileSystem)
    (call : ActiveCall M) : Option (ServePoint M × StaticFileServer) :=
  let fullPath := fullPath server.rootDirectory call.requestPath
  match call.point with
  | .asking =>
    match server.cache.get call.requestPath with
    | (some cached, cache) =>
      let response := call.response.setStatus .ok
      let response := response.setHeader (ascii "Content-Type") cached.contentType
      some (.returned (.ok true) (response.setBody cached.content), { server with cache := cache })
    | (none, cache) => some (.checking, { server with cache := cache })
  | .checking =>
    if ¬ isPathSafe server.rootDirectory fs fullPath then
      some (.returned (.ok false) call.response, server)
    else some (.existing, server)
  | .existing =>
    match fs.reach fullPath with
    | .failure what => some (.returned (.error (.std what)) call.response, server)
    | .missing => some (.returned (.ok false) call.response, server)
    | .directory => some (.regular, server)
    | .other => some (.regular, server)
    | .regularFile _ _ => some (.regular, server)
  | .regular =>
    match fs.reach fullPath with
    | .failure what => some (.returned (.error (.std what)) call.response, server)
    | .missing => some (.returned (.ok false) call.response, server)
    | .directory => some (.returned (.ok false) call.response, server)
    | .other => some (.returned (.ok false) call.response, server)
    | .regularFile _ _ => some (.opening, server)
  | .opening =>
    match fs.openForReading opens fullPath with
    | none => some (.returned (.ok false) call.response, server)
    | some contents => some (.storing contents, server)
  | .storing contents =>
    let contentType := mimeTypeFromExtension (Path.extension fullPath)
    let cache := server.cache.put call.requestPath ⟨contents, contentType⟩
    let response := call.response.setStatus .ok
    let response := response.setHeader (ascii "Content-Type")
      (mimeTypeFromExtension (Path.extension fullPath))
    some (.returned (.ok true) (response.setBody contents), { server with cache := cache })
  | .returned _ _ => none

end StaticFileServer

/-! ### All calls -/

/-- The server, the filesystem, and the call of each thread. -/
structure ServingState (ι : Type*) (M : Type) [FiniteMap M Bytes Bytes] where
  /-- The server that is shared. -/
  server : StaticFileServer
  /-- The filesystem. -/
  fs : FileSystem
  /-- The calls. -/
  call : ι → Option (ActiveCall M)

/-- What can happen. -/
inductive ServingAction (ι : Type*) (M : Type) [FiniteMap M Bytes Bytes]
  /-- A thread calls `serve`. -/
  | enter (i : ι) (requestPath : Bytes) (response : HttpResponse M)
  /-- A thread takes the next step of its call. -/
  | next (i : ι)
  /-- A thread leaves a call that has returned or thrown. -/
  | leave (i : ι)
  /-- The filesystem changes. -/
  | change (fs : FileSystem)

variable {ι : Type*} [DecidableEq ι]

namespace ServingState

/-- One step. -/
def step (opens : Node → Option Bytes) (s : ServingState ι M) :
    ServingAction ι M → Option (ServingState ι M)
  | .enter i requestPath response =>
    match s.call i with
    | none => some { s with
        call := Function.update s.call i (some ⟨requestPath, response, .asking⟩) }
    | some _ => none
  | .next i =>
    match s.call i with
    | none => none
    | some call => (s.server.next opens s.fs call).map fun r ↦
        { s with
          server := r.2
          call := Function.update s.call i (some { call with point := r.1 }) }
  | .leave i =>
    match s.call i with
    | some ⟨_, _, .returned _ _⟩ => some { s with call := Function.update s.call i none }
    | _ => none
  | .change fs => some { s with fs := fs }

end ServingState

/-- Threads that share a server which has not served yet. -/
def serving (ι : Type*) [DecidableEq ι] (opens : Node → Option Bytes) (rootDirectory : Path)
    (policy : EvictionPolicy) (cacheCapacity : ℕ) (fs : FileSystem) :
    TransitionSystem (ServingState ι M) (ServingAction ι M) where
  init := ⟨.fresh rootDirectory policy cacheCapacity, fs, fun _ ↦ none⟩
  step := fun s ↦ s.step opens

/-! ### A call by itself -/

section Alone

variable {opens : Node → Option Bytes} {s : ServingState ι M} {i : ι}

/-- The state after a call has moved on. -/
def ServingState.moved (s : ServingState ι M) (i : ι) (call : ActiveCall M)
    (r : ServePoint M × StaticFileServer) : ServingState ι M :=
  { s with
    server := r.2
    call := Function.update s.call i (some { call with point := r.1 }) }

/-- What a step of a thread does. -/
theorem step_next_eq_some_iff {s' : ServingState ι M} :
    s.step opens (.next i) = some s' ↔ ∃ call r, s.call i = some call ∧
      s.server.next opens s.fs call = some r ∧ s' = s.moved i call r := by
  rw [ServingState.step]
  rcases hcall : s.call i with - | call
  · simp
  · rw [Option.map_eq_some_iff]
    constructor
    · rintro ⟨r, hr, rfl⟩
      exact ⟨call, r, rfl, hr, rfl⟩
    · rintro ⟨call', r, hcall', hr, rfl⟩
      obtain rfl := Option.some.inj hcall'
      exact ⟨r, hr, rfl⟩

/-- So does a run that goes on with it. -/
theorem runFrom_next {rootDirectory : Path} {policy : EvictionPolicy} {cacheCapacity : ℕ}
    {fs : FileSystem} {call : ActiveCall M} {r : ServePoint M × StaticFileServer}
    (hcall : s.call i = some call) (hnext : s.server.next opens s.fs call = some r)
    (as : List (ServingAction ι M)) :
    (serving ι opens rootDirectory policy cacheCapacity fs).runFrom s (.next i :: as) =
      (serving ι opens rootDirectory policy cacheCapacity fs).runFrom (s.moved i call r) as := by
  rw [TransitionSystem.runFrom]
  show (s.step opens (.next i)).bind _ = _
  rw [step_next_eq_some_iff.2 ⟨call, r, hcall, hnext, rfl⟩, Option.bind_some]

/-- Where the steps of a call take it when nothing else happens. -/
def StaticFileServer.steps (opens : Node → Option Bytes) (fs : FileSystem) (requestPath : Bytes)
    (response : HttpResponse M) :
    ℕ → ServePoint M × StaticFileServer → Option (ServePoint M × StaticFileServer)
  | 0, r => some r
  | n + 1, r => (r.2.next opens fs ⟨requestPath, response, r.1⟩).bind
      (steps opens fs requestPath response n)

/-- **A call by itself is a call of `serve`.** -/
theorem StaticFileServer.steps_asking (opens : Node → Option Bytes) (server : StaticFileServer)
    (fs : FileSystem) (requestPath : Bytes) (response : HttpResponse M) :
    ∃ n, steps opens fs requestPath response n (.asking, server) =
      some (.returned (server.serve fs requestPath response).1
          (server.serve fs requestPath response).2.1,
        (server.serve fs requestPath response).2.2) := by
  rw [serve]
  rcases hget : server.cache.get requestPath with ⟨- | entry, cache⟩
  · rcases hsafe : isPathSafe server.rootDirectory fs (fullPath server.rootDirectory requestPath)
      with - | -
    · exact ⟨2, by simp [steps, next, hget, hsafe]⟩
    · rcases hreach : fs.reach (fullPath server.rootDirectory requestPath) with
        - | - | ⟨contents, - | -⟩ | - | what
      · exact ⟨3, by simp [steps, next, hget, hsafe, hreach]⟩
      · exact ⟨4, by simp [steps, next, hget, hsafe, hreach]⟩
      · exact ⟨5, by simp [steps, next, hget, hsafe, hreach, FileSystem.openForReading]⟩
      · exact ⟨6, by simp [steps, next, hget, hsafe, hreach, FileSystem.openForReading]⟩
      · exact ⟨4, by simp [steps, next, hget, hsafe, hreach]⟩
      · exact ⟨3, by simp [steps, next, hget, hsafe, hreach]⟩
  · exact ⟨1, by simp [steps, next, hget]⟩

/-- The steps of a thread, one after the other, are those of its call. -/
theorem runFrom_replicate_next {rootDirectory : Path} {policy : EvictionPolicy}
    {cacheCapacity n : ℕ} {fs : FileSystem} {requestPath : Bytes} {response : HttpResponse M}
    {point : ServePoint M} {r : ServePoint M × StaticFileServer}
    (hcall : s.call i = some ⟨requestPath, response, point⟩)
    (hsteps : StaticFileServer.steps opens s.fs requestPath response n (point, s.server) = some r) :
    (serving ι opens rootDirectory policy cacheCapacity fs).runFrom s
        (List.replicate n (.next i)) =
      some (s.moved i ⟨requestPath, response, point⟩ r) := by
  induction n generalizing s point with
  | zero =>
    obtain rfl := Option.some.inj hsteps
    have hself : Function.update s.call i (some ⟨requestPath, response, point⟩) = s.call := by
      rw [← hcall, Function.update_eq_self]
    show some s = some { s with call := Function.update s.call i _ }
    rw [hself]
  | succ n ih =>
    obtain ⟨r', hnext, hrest⟩ := Option.bind_eq_some_iff.1 hsteps
    have hmoved : (s.moved i ⟨requestPath, response, point⟩ r').call i =
        some ⟨requestPath, response, r'.1⟩ := Function.update_self _ _ _
    rw [List.replicate_succ, runFrom_next hcall hnext, ih hmoved hrest]
    simp [ServingState.moved]

/-- **So a thread whose steps nothing comes between does what `serve` does.** -/
theorem exists_runFrom_next {rootDirectory : Path} {policy : EvictionPolicy} {cacheCapacity : ℕ}
    {fs : FileSystem} {requestPath : Bytes} {response : HttpResponse M}
    (hcall : s.call i = some ⟨requestPath, response, .asking⟩) :
    ∃ n, (serving ι opens rootDirectory policy cacheCapacity fs).runFrom s
        (List.replicate n (.next i)) =
      some (s.moved i ⟨requestPath, response, .asking⟩
        (.returned (s.server.serve s.fs requestPath response).1
          (s.server.serve s.fs requestPath response).2.1,
          (s.server.serve s.fs requestPath response).2.2)) := by
  obtain ⟨n, hsteps⟩ := s.server.steps_asking opens s.fs requestPath response
  exact ⟨n, runFrom_replicate_next hcall hsteps⟩

end Alone

/-! ### What a call knows -/

namespace StaticFileServer

variable {rootDirectory : Path} {seen : List FileSystem}

/-- One of the filesystems gives this answer. -/
def Answered (rootDirectory : Path) (seen : List FileSystem) (requestPath : Bytes)
    (answer : Except Exn (Option Entry)) : Prop :=
  ∃ fs ∈ seen, lookup rootDirectory fs requestPath = answer

/-- Filesystems in which paths lead to the same locations, and where a location that holds a regular
file in one of them holds nothing else in another. -/
structure Steady (seen : List FileSystem) : Prop where
  /-- Paths lead to the same locations. -/
  canonical : ∀ fs ∈ seen, ∀ fs' ∈ seen, fs.weaklyCanonical = fs'.weaklyCanonical
  /-- Regular files take turns with regular files only. -/
  regular : ∀ fs ∈ seen, ∀ fs' ∈ seen, ∀ location contents readable,
    fs.node location = .regularFile contents readable →
      fs'.node location = .missing ∨
        ∃ contents readable, fs'.node location = .regularFile contents readable

/-- What the disk answers once the check has passed. -/
def ofNode (contentType : Bytes) : Node → Except Exn (Option Entry)
  | .failure what => .error (.std what)
  | .missing => .ok none
  | .directory => .ok none
  | .other => .ok none
  | .regularFile contents readable =>
    if ¬ readable then .ok none else .ok (some ⟨contents, contentType⟩)

/-- The answer of the disk is decided by the check, and by what the path leads to. -/
theorem lookup_eq (rootDirectory : Path) (fs : FileSystem) (requestPath : Bytes) :
    lookup rootDirectory fs requestPath =
      if isPathSafe rootDirectory fs (fullPath rootDirectory requestPath) then
        ofNode (mimeTypeFromExtension (Path.extension (fullPath rootDirectory requestPath)))
          (fs.reach (fullPath rootDirectory requestPath))
      else .ok none := by
  rw [lookup]
  rcases isPathSafe rootDirectory fs (fullPath rootDirectory requestPath) with - | -
  · rfl
  · rcases fs.reach (fullPath rootDirectory requestPath) with
      - | - | ⟨contents, readable⟩ | - | what
    all_goals rfl

/-- The check passes in all of the filesystems, or in none. -/
theorem Steady.isPathSafe_eq (h : Steady seen) {fs fs' : FileSystem} (hfs : fs ∈ seen)
    (hfs' : fs' ∈ seen) (p : Path) :
    isPathSafe rootDirectory fs p = isPathSafe rootDirectory fs' p := by
  rw [isPathSafe, isPathSafe, h.canonical fs hfs fs' hfs']

/-- What leads to a regular file leads to one, or to nothing. -/
theorem Steady.reach (h : Steady seen) {fs fs' : FileSystem} (hfs : fs ∈ seen) (hfs' : fs' ∈ seen)
    {p : Path} {contents : Bytes} {readable : Bool}
    (hreach : fs.reach p = .regularFile contents readable) :
    fs'.reach p = .missing ∨
      ∃ contents readable, fs'.reach p = .regularFile contents readable := by
  rw [FileSystem.reach] at hreach ⊢
  rw [← h.canonical fs hfs fs' hfs']
  rcases hcanonical : fs.weaklyCanonical p with - | location
  · exact Or.inl rfl
  · rw [hcanonical] at hreach
    exact h.regular fs hfs fs' hfs' location contents readable hreach

/-- The check has passed in one of the filesystems. -/
def Checked (rootDirectory : Path) (seen : List FileSystem) (requestPath : Bytes) : Prop :=
  ∃ fs ∈ seen, isPathSafe rootDirectory fs (fullPath rootDirectory requestPath) = true

/-- What a call has found out by the time it comes to a point. -/
def Knows (rootDirectory : Path) (seen : List FileSystem) (call : ActiveCall M) : Prop :=
  match call.point with
  | .asking => True
  | .checking => True
  | .existing => Checked rootDirectory seen call.requestPath
  | .regular => Checked rootDirectory seen call.requestPath
  | .opening => Checked rootDirectory seen call.requestPath ∧
      ∃ fs ∈ seen, ∃ contents readable,
        fs.reach (fullPath rootDirectory call.requestPath) = .regularFile contents readable
  | .storing contents => Answered rootDirectory seen call.requestPath (.ok (some ⟨contents,
      mimeTypeFromExtension (Path.extension (fullPath rootDirectory call.requestPath))⟩))
  | .returned result response => ∃ answer, Answered rootDirectory seen call.requestPath answer ∧
      (result, response) = report call.response answer

/-- The cache holds answers. -/
def CacheAnswers (rootDirectory : Path) (seen : List FileSystem) (server : StaticFileServer) :
    Prop :=
  server.rootDirectory = rootDirectory ∧
    server.cache.Keeps fun requestPath entry ↦
      Answered rootDirectory seen requestPath (.ok (some entry))

/-- What the disk answers after the check. -/
theorem Checked.lookup_eq (hsteady : Steady seen) {fs : FileSystem} (hfs : fs ∈ seen)
    {requestPath : Bytes} (h : Checked rootDirectory seen requestPath) :
    lookup rootDirectory fs requestPath =
      ofNode (mimeTypeFromExtension (Path.extension (fullPath rootDirectory requestPath)))
        (fs.reach (fullPath rootDirectory requestPath)) := by
  obtain ⟨fs', hfs', hsafe⟩ := h
  rw [StaticFileServer.lookup_eq, hsteady.isPathSafe_eq hfs hfs', if_pos hsafe]

/-- A call that returns what the disk answers now. -/
theorem knows_of_report {fs : FileSystem} (hfs : fs ∈ seen) {call : ActiveCall M}
    (answer : Except Exn (Option Entry))
    (h : lookup rootDirectory fs call.requestPath = answer) :
    Knows rootDirectory seen { call with
      point := .returned (report call.response answer).1 (report call.response answer).2 } :=
  ⟨answer, ⟨fs, hfs, h⟩, rfl⟩

/-- **Each step of a call** keeps the cache filled with answers, and leaves the call with what it
has to know. -/
theorem knows_next {opens : Node → Option Bytes} {server : StaticFileServer} {fs : FileSystem}
    {call : ActiveCall M} {r : ServePoint M × StaticFileServer} (hsteady : Steady seen)
    (hfs : fs ∈ seen) (hserver : CacheAnswers rootDirectory seen server)
    (hcall : Knows rootDirectory seen call) (hnext : server.next opens fs call = some r) :
    CacheAnswers rootDirectory seen r.2 ∧
      Knows rootDirectory seen { call with point := r.1 } := by
  obtain ⟨rfl, hkeeps⟩ := hserver
  obtain ⟨requestPath, response, point⟩ := call
  rw [next.eq_def] at hnext
  cases point with
  | asking =>
    obtain ⟨hentry, hkept⟩ := hkeeps.get requestPath
    simp only at hnext
    rcases hget : server.cache.get requestPath with ⟨- | entry, cache⟩
    · rw [hget] at hnext hkept
      obtain rfl := Option.some.inj hnext
      exact ⟨⟨rfl, hkept⟩, trivial⟩
    · rw [hget] at hnext hkept hentry
      obtain rfl := Option.some.inj hnext
      exact ⟨⟨rfl, hkept⟩, _, hentry entry rfl, rfl⟩
  | checking =>
    simp only at hnext
    split at hnext
    · rename_i hunsafe
      obtain rfl := Option.some.inj hnext
      have hlookup : lookup server.rootDirectory fs requestPath = .ok none := by
        rw [lookup_eq, if_neg hunsafe]
      exact ⟨⟨rfl, hkeeps⟩, knows_of_report hfs (.ok none) hlookup⟩
    · rename_i hsafe
      obtain rfl := Option.some.inj hnext
      exact ⟨⟨rfl, hkeeps⟩, fs, hfs, not_not.1 hsafe⟩
  | existing =>
    have hlookup := Checked.lookup_eq hsteady hfs hcall
    simp only at hnext
    rcases hreach : fs.reach (fullPath server.rootDirectory requestPath) with
      - | - | ⟨contents, readable⟩ | - | what
    all_goals
      rw [hreach] at hnext hlookup
      obtain rfl := Option.some.inj hnext
    · exact ⟨⟨rfl, hkeeps⟩, knows_of_report hfs (.ok none) hlookup⟩
    · exact ⟨⟨rfl, hkeeps⟩, hcall⟩
    · exact ⟨⟨rfl, hkeeps⟩, hcall⟩
    · exact ⟨⟨rfl, hkeeps⟩, hcall⟩
    · exact ⟨⟨rfl, hkeeps⟩, knows_of_report hfs (.error (.std what)) hlookup⟩
  | regular =>
    have hlookup := Checked.lookup_eq hsteady hfs hcall
    simp only at hnext
    rcases hreach : fs.reach (fullPath server.rootDirectory requestPath) with
      - | - | ⟨contents, readable⟩ | - | what
    all_goals
      rw [hreach] at hnext hlookup
      obtain rfl := Option.some.inj hnext
    · exact ⟨⟨rfl, hkeeps⟩, knows_of_report hfs (.ok none) hlookup⟩
    · exact ⟨⟨rfl, hkeeps⟩, knows_of_report hfs (.ok none) hlookup⟩
    · exact ⟨⟨rfl, hkeeps⟩, hcall, fs, hfs, contents, readable, hreach⟩
    · exact ⟨⟨rfl, hkeeps⟩, knows_of_report hfs (.ok none) hlookup⟩
    · exact ⟨⟨rfl, hkeeps⟩, knows_of_report hfs (.error (.std what)) hlookup⟩
  | opening =>
    obtain ⟨hchecked, fs', hfs', contents', readable', hregular⟩ := hcall
    have hlookup := Checked.lookup_eq hsteady hfs hchecked
    simp only [FileSystem.openForReading] at hnext
    -- what was a regular file still is one, or is gone
    rcases hsteady.reach hfs' hfs hregular with hreach | ⟨contents, - | -, hreach⟩
    all_goals
      rw [hreach] at hnext hlookup
      obtain rfl := Option.some.inj hnext
    · exact ⟨⟨rfl, hkeeps⟩, knows_of_report hfs (.ok none) hlookup⟩
    · exact ⟨⟨rfl, hkeeps⟩, knows_of_report hfs (.ok none) hlookup⟩
    · exact ⟨⟨rfl, hkeeps⟩, fs, hfs, hlookup⟩
  | storing contents =>
    obtain rfl := Option.some.inj hnext
    exact ⟨⟨rfl, hkeeps.put hcall⟩, _, hcall, rfl⟩
  | returned result response' => cases hnext

/-- Knowing stays true when the filesystem changes. -/
theorem Knows.mono {seen' : List FileSystem} (hsub : seen ⊆ seen') {call : ActiveCall M}
    (h : Knows rootDirectory seen call) : Knows rootDirectory seen' call := by
  have hanswered : ∀ {requestPath answer}, Answered rootDirectory seen requestPath answer →
      Answered rootDirectory seen' requestPath answer :=
    fun ⟨fs, hfs, hlookup⟩ ↦ ⟨fs, hsub hfs, hlookup⟩
  have hchecked : ∀ {requestPath}, Checked rootDirectory seen requestPath →
      Checked rootDirectory seen' requestPath :=
    fun ⟨fs, hfs, hsafe⟩ ↦ ⟨fs, hsub hfs, hsafe⟩
  obtain ⟨requestPath, response, point⟩ := call
  cases point with
  | asking => trivial
  | checking => trivial
  | existing => exact hchecked h
  | regular => exact hchecked h
  | opening =>
    obtain ⟨hsafe, fs, hfs, hregular⟩ := h
    exact ⟨hchecked hsafe, fs, hsub hfs, hregular⟩
  | storing contents => exact hanswered h
  | returned result response' =>
    obtain ⟨answer, h, hreport⟩ := h
    exact ⟨answer, hanswered h, hreport⟩

theorem CacheAnswers.mono {seen' : List FileSystem} (hsub : seen ⊆ seen')
    {server : StaticFileServer} (h : CacheAnswers rootDirectory seen server) :
    CacheAnswers rootDirectory seen' server :=
  ⟨h.1, h.2.mono fun _ _ ⟨fs, hfs, hlookup⟩ ↦ ⟨fs, hsub hfs, hlookup⟩⟩

end StaticFileServer

/-! ### Every interleaving -/

/-- The filesystem an action changes to. -/
def ServingAction.changesTo : ServingAction ι M → Option FileSystem
  | change fs => some fs
  | enter _ _ _ => none
  | next _ => none
  | leave _ => none

/-- The filesystems of a run. -/
def filesystems (fs : FileSystem) (as : List (ServingAction ι M)) : List FileSystem :=
  fs :: as.filterMap ServingAction.changesTo

section Runs

open StaticFileServer

variable {opens : Node → Option Bytes} {rootDirectory : Path} {policy : EvictionPolicy}
  {cacheCapacity : ℕ} {fs : FileSystem} {as : List (ServingAction ι M)} {s : ServingState ι M}

/-- What holds after every run. -/
structure ServingInv (rootDirectory : Path) (seen : List FileSystem) (s : ServingState ι M) :
    Prop where
  /-- The filesystem is one of those of the run. -/
  fs_mem : s.fs ∈ seen
  /-- The cache holds answers. -/
  server : CacheAnswers rootDirectory seen s.server
  /-- The calls know what they have to. -/
  call : ∀ i call, s.call i = some call → Knows rootDirectory seen call

/-- **Every step** keeps the invariant. -/
theorem ServingInv.step {seen : List FileSystem} (hsteady : Steady seen)
    (h : ServingInv rootDirectory seen s) {a : ServingAction ι M} {s' : ServingState ι M}
    (hchange : ∀ fs, a.changesTo = some fs → fs ∈ seen) (hstep : s.step opens a = some s') :
    ServingInv rootDirectory seen s' := by
  -- a call that has changed is that of the thread that took the step
  have hupdate : ∀ {i call'}, (∀ call, call' = some call → Knows rootDirectory seen call) →
      ∀ j call, Function.update s.call i call' j = some call → Knows rootDirectory seen call := by
    intro i call' hnew j call hcall
    rcases eq_or_ne j i with rfl | hj
    · rw [Function.update_self] at hcall
      exact hnew call hcall
    · rw [Function.update_of_ne hj] at hcall
      exact h.call j call hcall
  cases a with
  | enter i requestPath response =>
    rw [ServingState.step] at hstep
    split at hstep
    · obtain rfl := Option.some.inj hstep
      refine ⟨h.fs_mem, h.server, hupdate fun call hcall ↦ ?_⟩
      obtain rfl := Option.some.inj hcall
      trivial
    · cases hstep
  | next i =>
    obtain ⟨call, r, hcall, hnext, rfl⟩ := step_next_eq_some_iff.1 hstep
    obtain ⟨hserver, hknows⟩ := knows_next hsteady h.fs_mem h.server (h.call i call hcall) hnext
    refine ⟨h.fs_mem, hserver, hupdate fun call' hcall' ↦ ?_⟩
    obtain rfl := Option.some.inj hcall'
    exact hknows
  | leave i =>
    rw [ServingState.step] at hstep
    split at hstep
    · obtain rfl := Option.some.inj hstep
      exact ⟨h.fs_mem, h.server, hupdate fun call hcall ↦ absurd hcall (by simp)⟩
    · cases hstep
  | change fs =>
    obtain rfl := Option.some.inj hstep
    exact ⟨hchange fs rfl, h.server, h.call⟩

/-- **Every run** of steady filesystems ends with the invariant. -/
theorem servingInv_of_run
    (h : (serving ι opens rootDirectory policy cacheCapacity fs).run as = some s)
    (hsteady : Steady (filesystems fs as)) :
    ServingInv rootDirectory (filesystems fs as) s := by
  have hsub : ∀ (as : List (ServingAction ι M)) a,
      filesystems fs as ⊆ filesystems fs (as ++ [a]) := by
    intro as a
    rw [filesystems, filesystems, List.filterMap_append]
    exact List.cons_subset_cons fs (List.subset_append_left _ _)
  refine TransitionSystem.run_induction (P := fun as s ↦ Steady (filesystems fs as) →
    ServingInv rootDirectory (filesystems fs as) s) ?_ ?_ h hsteady
  · intro _
    exact ⟨List.mem_cons_self, ⟨rfl, Cache.keeps_empty _ _⟩, fun i call hcall ↦
      absurd hcall (by simp [serving])⟩
  · intro as s a s' _ ih hstep hsteady
    have hearlier : Steady (filesystems fs as) :=
      ⟨fun f hf f' hf' ↦ hsteady.canonical f (hsub as a hf) f' (hsub as a hf'),
        fun f hf f' hf' ↦ hsteady.regular f (hsub as a hf) f' (hsub as a hf')⟩
    have hinv := ih hearlier
    have hwider : ServingInv rootDirectory (filesystems fs (as ++ [a])) s :=
      ⟨hsub as a hinv.fs_mem, hinv.server.mono (hsub as a), fun i call hcall ↦
        (hinv.call i call hcall).mono (hsub as a)⟩
    refine hwider.step hsteady (fun f hf ↦ ?_) hstep
    rw [filesystems, List.filterMap_append]
    refine List.mem_cons_of_mem _ (List.mem_append_right _ ?_)
    rw [List.filterMap_cons_some hf]
    exact List.mem_cons_self

/-- **Concurrent calls answer as the disk did.** In every interleaving of any number of calls with
changes of the filesystem, under every eviction policy: as long as paths lead where they led, and
regular files take turns with regular files only, a call that has ended reports what the disk
answered to its request path at one moment of the run, and leaves in the response what a call of
`serve` does; and a body that is served is the content that a regular file under the root directory
had at that moment. -/
theorem serving_answers (opens : Node → Option Bytes) (rootDirectory : Path)
    (policy : EvictionPolicy) (cacheCapacity : ℕ) (fs : FileSystem)
    (h : (serving ι opens rootDirectory policy cacheCapacity fs).run as = some s)
    (hsteady : Steady (filesystems fs as)) {i : ι} {requestPath : Bytes}
    {response response' : HttpResponse M} {result : Except Exn Bool}
    (hcall : s.call i = some ⟨requestPath, response, .returned result response'⟩) :
    ∃ f ∈ filesystems fs as,
      (result, response') = report response (lookup rootDirectory f requestPath) ∧
        (result = .ok true → ServesFile rootDirectory f requestPath response'.body) := by
  obtain ⟨answer, ⟨f, hf, hlookup⟩, hreport⟩ := (servingInv_of_run h hsteady).call i _ hcall
  have hreport' : (result, response') = report response answer := hreport
  refine ⟨f, hf, hlookup ▸ hreport', fun hserved ↦ ?_⟩
  rcases answer with e | - | entry
  · rw [hserved] at hreport'
    exact absurd (congrArg Prod.fst hreport') (by simp [report])
  · rw [hserved] at hreport'
    exact absurd (congrArg Prod.fst hreport') (by simp [report])
  · obtain ⟨-, rfl⟩ := Prod.mk.inj hreport'
    exact servesFile_of_lookup hlookup

/-- The body of a call that has served a file. -/
def ServePoint.served? : ServePoint M → Option Bytes
  | .returned (.ok true) response => some response.body
  | _ => none

theorem ServePoint.served?_eq_some_iff {point : ServePoint M} {body : Bytes} :
    point.served? = some body ↔
      ∃ response, point = .returned (.ok true) response ∧ response.body = body := by
  constructor
  · intro h
    rw [served?.eq_def] at h
    split at h
    · exact ⟨_, rfl, Option.some.inj h⟩
    · cases h
  · rintro ⟨response, rfl, rfl⟩
    rfl

/-- A filesystem with one file under `/srv`. -/
def oneFile (contents : Bytes) : FileSystem where
  weaklyCanonical := some
  node p := if p = ascii "/srv/index.html" then .regularFile contents true else .missing

/-- A run in which one call reads the file before it changes, and stores it after another call has
stored what it has changed to. -/
def staleRun : List (ServingAction Bool BytesMap) :=
  [.enter false (ascii "/index.html") (.new .ok), .enter true (ascii "/index.html") (.new .ok),
    .next false, .next false] ++ List.replicate 5 (.next true) ++
    [.change (oneFile (ascii "new"))] ++ List.replicate 4 (.next false) ++ [.next true]

theorem steady_oneFile (contents contents' : Bytes) :
    Steady [oneFile contents, oneFile contents'] := by
  have hnode : ∀ f ∈ [oneFile contents, oneFile contents'], ∃ c, f = oneFile c := by
    intro f hf
    rcases List.mem_pair.1 hf with rfl | rfl
    · exact ⟨contents, rfl⟩
    · exact ⟨contents', rfl⟩
  constructor
  · intro f hf f' hf'
    obtain ⟨c, rfl⟩ := hnode f hf
    obtain ⟨c', rfl⟩ := hnode f' hf'
    rfl
  · intro f hf f' hf' location read readable hregular
    obtain ⟨c, rfl⟩ := hnode f hf
    obtain ⟨c', rfl⟩ := hnode f' hf'
    rcases hlocation : decide (location = ascii "/srv/index.html") with - | -
    · exact Or.inl (if_neg (of_decide_eq_false hlocation))
    · exact Or.inr ⟨c', true, if_pos (of_decide_eq_true hlocation)⟩

theorem serving_answers_staleRun : ∃ s : ServingState Bool BytesMap,
    (serving Bool (fun _ ↦ none) (ascii "/srv") (fun _ _ _ ↦ true) 16
      (oneFile (ascii "old"))).run staleRun = some s ∧
    ∀ i, ∃ body f, f ∈ [oneFile (ascii "old"), oneFile (ascii "new")] ∧
      (s.call i).bind (fun call ↦ call.point.served?) = some body ∧
      ServesFile (ascii "/srv") f (ascii "/index.html") body := by
  have hrun : ((serving Bool (fun _ ↦ none) (ascii "/srv") (fun _ _ _ ↦ true) 16
      (oneFile (ascii "old"))).run staleRun).map (fun s ↦ [false, true].map fun i ↦
        (s.call i).map fun call ↦ (call.requestPath, call.point.served?)) =
      some [some (ascii "/index.html", some (ascii "new")),
        some (ascii "/index.html", some (ascii "old"))] := by decide +kernel
  obtain ⟨s, hs, hcalls⟩ := Option.map_eq_some_iff.1 hrun
  refine ⟨s, hs, fun i ↦ ?_⟩
  obtain ⟨body, hbody⟩ : ∃ body, (s.call i).map (fun call ↦
      (call.requestPath, call.point.served?)) = some (ascii "/index.html", some body) := by
    obtain ⟨hfalse, htrue⟩ := List.cons.inj hcalls
    cases i with
    | false => exact ⟨_, hfalse⟩
    | true => exact ⟨_, (List.cons.inj htrue).1⟩
  obtain ⟨⟨requestPath, response, point⟩, hcall, hparts⟩ := Option.map_eq_some_iff.1 hbody
  obtain ⟨rfl, hserved⟩ := Prod.mk.inj hparts
  obtain ⟨response', rfl, rfl⟩ := ServePoint.served?_eq_some_iff.1 hserved
  obtain ⟨f, hf, -, hfile⟩ := serving_answers _ _ _ _ _ hs (steady_oneFile _ _) hcall
  refine ⟨response'.body, f, hf, ?_, hfile rfl⟩
  rw [hcall]
  rfl

/-- The same names, with a link in the place of the file. -/
def oneLink : FileSystem where
  weaklyCanonical p := some (if p = ascii "/srv/index.html" then ascii "/etc/passwd" else p)
  node p := if p = ascii "/etc/passwd" then .regularFile (ascii "secret") true else .missing

/-- A run in which the link takes the place of the file after the check. -/
def linkRun : List (ServingAction Unit BytesMap) :=
  [.enter () (ascii "/index.html") (.new .ok), .next (), .next (), .change oneLink] ++
    List.replicate 4 (.next ())

/-- **The check and the reading are two looks at the filesystem**: what is served here was never in
a file under the root directory. -/
theorem exists_run_secret :
    ((serving Unit (fun _ ↦ none) (ascii "/srv") (fun _ _ _ ↦ true) 16
        (oneFile (ascii "hello"))).run linkRun).bind (fun s ↦
          (s.call ()).bind fun call ↦ call.point.served?) = some (ascii "secret") ∧
      ∀ f ∈ filesystems (oneFile (ascii "hello")) linkRun,
        ¬ ServesFile (ascii "/srv") f (ascii "/index.html") (ascii "secret") := by
  refine ⟨by decide +kernel, ?_⟩
  rintro f hf ⟨location, hcanonical, hprefix, hnode⟩
  rcases List.mem_pair.1 (show f ∈ [oneFile (ascii "hello"), oneLink] from hf) with rfl | rfl
  · obtain rfl := Option.some.inj hcanonical
    have hcontent : (oneFile (ascii "hello")).node
        (fullPath (ascii "/srv") (ascii "/index.html")) = .regularFile (ascii "hello") true := by
      decide +kernel
    rw [hcontent] at hnode
    exact absurd (Node.regularFile.inj hnode).1 (by decide)
  · obtain rfl := Option.some.inj hcanonical
    exact absurd hprefix (by decide +kernel)

end Runs

end FalconHTTP
