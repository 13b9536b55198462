import FalconHTTP.Foundation.EvictingCache
import FalconHTTP.HTTP.Message
import Mathlib.Data.List.Induction

/-!
# The static file server

`StaticFileServer::serve` answers a request path from a cache, and otherwise from the file that the
path names under a root directory.

The filesystem is a parameter. What the code sees of it is `weakly_canonical`, which follows every
symbolic link and may fail, and what is found at the location this gives (`FileSystem`): the
functions that look a path up, or open it, follow the links in the same way. Nothing else is assumed
about either, so links may lead anywhere, and each call may meet another filesystem.

The cache is `EvictingCache`, which may forget anything at any time, and nothing else. The code asks
it before it looks at the path at all, under the request path as it came.

`serve_cases` is the description both theorems rest on, with the disk's answer as one function
(`lookup`) of the root directory, the filesystem and the request path:

* `serve_within_root`: what is served was found, by this call or an earlier one with the same
  request path, in a regular file under the root directory;
* `serve_transparent`: over one filesystem, the cache makes no difference.
-/

namespace FalconHTTP

open EvictingCache

/-! ### MIME types -/

/-- The MIME type of an extension, which comes with its dot; matching is exact-case. -/
def mimeTypeFromExtension (extension : Bytes) : Bytes :=
  if extension = ascii ".html" ∨ extension = ascii ".htm" then ascii "text/html"
  else if extension = ascii ".css" then ascii "text/css"
  else if extension = ascii ".js" then ascii "application/javascript"
  else if extension = ascii ".json" then ascii "application/json"
  else if extension = ascii ".png" then ascii "image/png"
  else if extension = ascii ".jpg" ∨ extension = ascii ".jpeg" then ascii "image/jpeg"
  else if extension = ascii ".gif" then ascii "image/gif"
  else if extension = ascii ".svg" then ascii "image/svg+xml"
  else if extension = ascii ".ico" then ascii "image/x-icon"
  else if extension = ascii ".txt" then ascii "text/plain"
  else if extension = ascii ".pdf" then ascii "application/pdf"
  else ascii "application/octet-stream"

/-! ### Paths -/

/-- A `std::filesystem::path` as it is spelled on a POSIX system. -/
abbrev Path := Bytes

namespace Path

/-- `relative_path()`: the path without its root directory. -/
def relativePath (p : Path) : Path :=
  p.dropWhile (· == 47)

/-- `operator/`: an absolute path replaces, another one is appended after one separator. -/
def append (p q : Path) : Path :=
  if q.head? = some 47 then q
  else if p = [] ∨ p.getLast? = some 47 then p ++ q
  else p ++ 47 :: q

/-- The names in a relative path; one that ends in a separator has an empty last name. -/
def names (p : Path) : List Bytes :=
  (p.splitOn 47).filter (· ≠ []) ++ if p.getLast? = some 47 then [[]] else []

/-- What iteration over a path yields: the root directory, and the names after it. -/
def components (p : Path) : List Bytes :=
  (if p.head? = some 47 then [[47]] else []) ++ names (relativePath p)

/-- `filename()`: the last name, empty when there is none. -/
def filename (p : Path) : Bytes :=
  (names (relativePath p)).getLastD []

/-- `extension()`: the file name from its last dot on, unless that is its first byte. -/
def extension (p : Path) : Bytes :=
  let name := filename p
  if name = ascii "." ∨ name = ascii ".." then []
  else
    let afterDot := (name.reverse.takeWhile (· ≠ 46)).reverse
    if afterDot.length + 1 < name.length then 46 :: afterDot else []

end Path

/-! ### The filesystem -/

/-- What is found at a location. -/
inductive Node
  /-- Nothing. -/
  | missing
  /-- A directory. -/
  | directory
  /-- A regular file, and whether it can be opened for reading. -/
  | regularFile (content : Bytes) (readable : Bool)
  /-- Something else that exists. -/
  | other
  /-- The question itself fails, which throws a `std::filesystem_error`. -/
  | failure (what : Bytes)
  deriving DecidableEq

/-- A filesystem. -/
structure FileSystem where
  /-- `weakly_canonical`: the location that a path leads to, past all symbolic links. -/
  weaklyCanonical : Path → Option Path
  /-- What is at a location. -/
  node : Path → Node

/-- What looking up or opening a path finds. -/
def FileSystem.reach (fs : FileSystem) (p : Path) : Node :=
  match fs.weaklyCanonical p with
  | some location => fs.node location
  | none => .missing

/-! ### The cache -/

/-- `FileCache::Entry`. -/
structure Entry where
  /-- The content of the file. -/
  content : Bytes
  /-- The `Content-Type` it was served with. -/
  contentType : Bytes
  deriving DecidableEq

/-- The cache, keyed by request paths. -/
abbrev FileCache := Cache Bytes Entry

/-- What decides what a cache of some capacity still holds after a history. -/
abbrev EvictionPolicy := ℕ → List (Op Bytes Entry) → Bytes → Bool

/-! ### The server -/

/-- A static file server. -/
structure StaticFileServer where
  /-- The root directory, as `weakly_canonical` gave it. -/
  rootDirectory : Path
  /-- The cache. -/
  cache : FileCache

namespace StaticFileServer

/-- A server that has not served yet. -/
def fresh (rootDirectory : Path) (policy : EvictionPolicy) (cacheCapacity : ℕ) :
    StaticFileServer where
  rootDirectory := rootDirectory
  cache := .empty (policy cacheCapacity)

/-- The constructor; `none` when it throws. -/
def new (fs : FileSystem) (rootDirectory : Path) (policy : EvictionPolicy) (cacheCapacity : ℕ) :
    Option StaticFileServer :=
  (fs.weaklyCanonical rootDirectory).map fun root ↦ fresh root policy cacheCapacity

/-- The loop of `isPathSafe` over the components of the root directory and of a location. -/
def withinRoot : List Bytes → List Bytes → Bool
  | [], _ => true
  | _ :: _, [] => false
  | rootIt :: root, pathIt :: path => if rootIt ≠ pathIt then false else withinRoot root path

/-- Whether a path leads to a location under the root directory. -/
def isPathSafe (rootDirectory : Path) (fs : FileSystem) (resolvedPath : Path) : Bool :=
  match fs.weaklyCanonical resolvedPath with
  | none => false
  | some canonicalPath => withinRoot (Path.components rootDirectory) (Path.components canonicalPath)

/-- The path that a request path stands for. -/
def fullPath (rootDirectory requestPath : Path) : Path :=
  let relative := if requestPath.isEmpty then ascii "/" else requestPath
  Path.append rootDirectory (Path.relativePath relative)

variable {M : Type} [FiniteMap M Bytes Bytes]

/-- Serve a request path: whether a file was served, what is left in the response, and the server
afterwards. -/
def serve (server : StaticFileServer) (fs : FileSystem) (requestPath : Bytes)
    (response : HttpResponse M) : Except Exn Bool × HttpResponse M × StaticFileServer :=
  match server.cache.get requestPath with
  | (some cached, cache) =>
    let response := response.setStatus .ok
    let response := response.setHeader (ascii "Content-Type") cached.contentType
    (.ok true, response.setBody cached.content, { server with cache := cache })
  | (none, cache) =>
    let server := { server with cache := cache }
    let fullPath := fullPath server.rootDirectory requestPath
    if ¬ isPathSafe server.rootDirectory fs fullPath then (.ok false, response, server)
    else
      match fs.reach fullPath with
      | .failure what => (.error (.std what), response, server)
      | .missing => (.ok false, response, server)
      | .directory => (.ok false, response, server)
      | .other => (.ok false, response, server)
      | .regularFile contents readable =>
        if ¬ readable then (.ok false, response, server)
        else
          let contentType := mimeTypeFromExtension (Path.extension fullPath)
          let cache := server.cache.put requestPath ⟨contents, contentType⟩
          let response := response.setStatus .ok
          let response := response.setHeader (ascii "Content-Type")
            (mimeTypeFromExtension (Path.extension fullPath))
          (.ok true, response.setBody contents, { server with cache := cache })

/-! ### What the disk answers -/

/-- The answer of the disk to a request path: nothing, an entry, or an exception. -/
def lookup (rootDirectory : Path) (fs : FileSystem) (requestPath : Bytes) :
    Except Exn (Option Entry) :=
  let fullPath := fullPath rootDirectory requestPath
  if ¬ isPathSafe rootDirectory fs fullPath then .ok none
  else
    match fs.reach fullPath with
    | .failure what => .error (.std what)
    | .missing => .ok none
    | .directory => .ok none
    | .other => .ok none
    | .regularFile contents readable =>
      if ¬ readable then .ok none
      else .ok (some ⟨contents, mimeTypeFromExtension (Path.extension fullPath)⟩)

/-- A response with an entry in it. -/
def populate (response : HttpResponse M) (entry : Entry) : HttpResponse M :=
  let response := response.setStatus .ok
  let response := response.setHeader (ascii "Content-Type") entry.contentType
  response.setBody entry.content

/-- What a call reports, and leaves in the response, on an answer of the disk. -/
def report (response : HttpResponse M) :
    Except Exn (Option Entry) → Except Exn Bool × HttpResponse M
  | .error e => (.error e, response)
  | .ok none => (.ok false, response)
  | .ok (some entry) => (.ok true, populate response entry)

/-- The server after an answer of the disk: a file is put in the cache. -/
def remember (server : StaticFileServer) (requestPath : Bytes) :
    Except Exn (Option Entry) → StaticFileServer
  | .error _ => server
  | .ok none => server
  | .ok (some entry) => { server with cache := server.cache.put requestPath entry }

/-- **What a call does**: it answers from the cache, or it asks the disk and remembers the
answer. -/
theorem serve_cases (server : StaticFileServer) (fs : FileSystem) (requestPath : Bytes)
    (response : HttpResponse M) :
    (∃ entry cache, server.cache.get requestPath = (some entry, cache) ∧
      server.serve fs requestPath response =
        (.ok true, populate response entry, { server with cache := cache })) ∨
    (server.cache.get requestPath = (none, server.cache) ∧
      server.serve fs requestPath response =
        ((report response (lookup server.rootDirectory fs requestPath)).1,
          (report response (lookup server.rootDirectory fs requestPath)).2,
          server.remember requestPath (lookup server.rootDirectory fs requestPath))) := by
  rw [serve]
  rcases Cache.get_cases server.cache requestPath with hget | ⟨entry, -, hget⟩
  · refine Or.inr ⟨hget, ?_⟩
    rw [hget, lookup]
    by_cases hsafe : isPathSafe server.rootDirectory fs (fullPath server.rootDirectory requestPath)
    · simp only [hsafe, not_true_eq_false, if_false]
      rcases fs.reach (fullPath server.rootDirectory requestPath) with
        - | - | ⟨contents, - | -⟩ | - | what <;> rfl
    · simp only [hsafe]
      rfl
  · exact Or.inl ⟨entry, _, hget, by rw [hget]; rfl⟩

/-- A call changes the root directory in no way. -/
@[simp] theorem rootDirectory_serve (server : StaticFileServer) (fs : FileSystem)
    (requestPath : Bytes) (response : HttpResponse M) :
    (server.serve fs requestPath response).2.2.rootDirectory = server.rootDirectory := by
  rcases serve_cases server fs requestPath response with ⟨entry, cache, -, hserve⟩ | ⟨-, hserve⟩
  · rw [hserve]
  · rw [hserve]
    rcases lookup server.rootDirectory fs requestPath with e | - | entry <;> rfl

/-- A call that reports no file changes nothing. -/
theorem serve_of_ne_true {server : StaticFileServer} {fs : FileSystem} {requestPath : Bytes}
    {response : HttpResponse M} (h : (server.serve fs requestPath response).1 ≠ .ok true) :
    (server.serve fs requestPath response).2 = (response, server) := by
  rcases serve_cases server fs requestPath response with ⟨entry, cache, -, hserve⟩ | ⟨-, hserve⟩
  · exact absurd (congrArg Prod.fst hserve) h
  · rw [hserve] at h ⊢
    generalize lookup server.rootDirectory fs requestPath = answer at h ⊢
    rcases answer with e | - | entry
    · rfl
    · rfl
    · exact absurd rfl h

/-- **A cache that keeps what the disk answers makes no difference**: a call reports what the disk
answers. -/
theorem serve_of_keeps {server : StaticFileServer} {fs : FileSystem}
    (h : server.cache.Keeps fun requestPath entry ↦
      lookup server.rootDirectory fs requestPath = .ok (some entry))
    (requestPath : Bytes) (response : HttpResponse M) :
    (server.serve fs requestPath response).1 =
        (report response (lookup server.rootDirectory fs requestPath)).1 ∧
      (server.serve fs requestPath response).2.1 =
        (report response (lookup server.rootDirectory fs requestPath)).2 := by
  rcases serve_cases server fs requestPath response with
    ⟨entry, cache, hget, hserve⟩ | ⟨-, hserve⟩
  · have hlookup := (h.get requestPath).1 entry (congrArg Prod.fst hget)
    rw [hserve, hlookup]
    exact ⟨rfl, rfl⟩
  · rw [hserve]
    exact ⟨rfl, rfl⟩

/-! ### The guard -/

/-- **The loop compares component by component.** -/
theorem withinRoot_iff {root path : List Bytes} : withinRoot root path = true ↔ root <+: path := by
  induction root generalizing path with
  | nil => exact iff_of_true rfl List.nil_prefix
  | cons r root ih =>
    cases path with
    | nil => exact iff_of_false (by simp [withinRoot]) (by simp)
    | cons c path =>
      rw [withinRoot, List.cons_prefix_cons, ← ih]
      by_cases h : r = c
      · simp [h]
      · simp [h]

/-- A regular file with some content under a root directory, where a request path leads. -/
def ServesFile (rootDirectory : Path) (fs : FileSystem) (requestPath content : Bytes) : Prop :=
  ∃ location, fs.weaklyCanonical (fullPath rootDirectory requestPath) = some location ∧
    Path.components rootDirectory <+: Path.components location ∧
    fs.node location = .regularFile content true

/-- **The disk answers with files under the root directory only.** -/
theorem servesFile_of_lookup {rootDirectory : Path} {fs : FileSystem} {requestPath : Bytes}
    {entry : Entry} (h : lookup rootDirectory fs requestPath = .ok (some entry)) :
    ServesFile rootDirectory fs requestPath entry.content := by
  rw [lookup] at h
  by_cases hsafe : isPathSafe rootDirectory fs (fullPath rootDirectory requestPath)
  · simp only [hsafe, not_true_eq_false, if_false] at h
    rw [isPathSafe] at hsafe
    rw [FileSystem.reach] at h
    rcases hcanon : fs.weaklyCanonical (fullPath rootDirectory requestPath) with - | location
    · rw [hcanon] at hsafe
      exact absurd hsafe (by simp)
    · rw [hcanon] at hsafe h
      refine ⟨location, hcanon, withinRoot_iff.1 hsafe, ?_⟩
      rcases hnode : fs.node location with - | - | ⟨contents, - | -⟩ | - | what
      · exact absurd h (by simp [hnode])
      · exact absurd h (by simp [hnode])
      · exact absurd h (by simp [hnode])
      · obtain rfl : _ = entry := by simpa [hnode] using h
        rfl
      · exact absurd h (by simp [hnode])
      · exact absurd h (by simp [hnode])
  · simp only [hsafe] at h
    exact absurd h (by simp)

/-! ### Histories -/

/-- One call of `serve`, with the filesystem it meets. -/
structure ServeCall (M : Type) [FiniteMap M Bytes Bytes] where
  /-- The filesystem during the call. -/
  fs : FileSystem
  /-- The request path. -/
  requestPath : Bytes
  /-- The response that is passed in. -/
  response : HttpResponse M

/-- The server after a call. -/
def afterCall (server : StaticFileServer) (call : ServeCall M) : StaticFileServer :=
  (server.serve call.fs call.requestPath call.response).2.2

/-- The server after a sequence of calls. -/
def afterCalls (server : StaticFileServer) (calls : List (ServeCall M)) : StaticFileServer :=
  calls.foldl afterCall server

/-- One of the calls found this entry on the disk under this request path. -/
def FoundBy (rootDirectory : Path) (calls : List (ServeCall M)) (requestPath : Bytes)
    (entry : Entry) : Prop :=
  ∃ c ∈ calls, c.requestPath = requestPath ∧
    lookup rootDirectory c.fs requestPath = .ok (some entry)

/-- **One call** keeps the cache filled with what calls have found, and serves what one has
found. -/
theorem serve_foundBy {server : StaticFileServer} {rootDirectory : Path}
    {earlier : List (ServeCall M)} (hroot : server.rootDirectory = rootDirectory)
    (h : server.cache.Keeps (FoundBy rootDirectory earlier)) (call : ServeCall M) :
    (server.afterCall call).cache.Keeps (FoundBy rootDirectory (earlier ++ [call])) ∧
      ((server.serve call.fs call.requestPath call.response).1 = .ok true →
        ∃ entry, FoundBy rootDirectory (earlier ++ [call]) call.requestPath entry ∧
          (server.serve call.fs call.requestPath call.response).2.1 =
            populate call.response entry) := by
  subst hroot
  have hmono : ∀ k e, FoundBy server.rootDirectory earlier k e →
      FoundBy server.rootDirectory (earlier ++ [call]) k e := by
    rintro k e ⟨c, hc, hpath, hlookup⟩
    exact ⟨c, List.mem_append_left _ hc, hpath, hlookup⟩
  obtain ⟨hentry, hkeeps⟩ := (h.mono hmono).get call.requestPath
  rw [afterCall]
  rcases serve_cases server call.fs call.requestPath call.response with
    ⟨entry, cache, hget, hserve⟩ | ⟨hget, hserve⟩
  · rw [hget] at hentry hkeeps
    rw [hserve]
    exact ⟨hkeeps, fun _ ↦ ⟨entry, hentry entry rfl, rfl⟩⟩
  · rw [hserve]
    rcases hlookup : lookup server.rootDirectory call.fs call.requestPath with e | - | entry
    · exact ⟨h.mono hmono, fun htrue ↦ absurd htrue (by simp [report])⟩
    · exact ⟨h.mono hmono, fun htrue ↦ absurd htrue (by simp [report])⟩
    · have hfound : FoundBy server.rootDirectory (earlier ++ [call]) call.requestPath entry :=
        ⟨call, List.mem_append_right _ List.mem_cons_self, rfl, hlookup⟩
      exact ⟨(h.mono hmono).put hfound, fun _ ↦ ⟨entry, hfound, rfl⟩⟩

/-- **Every history** leaves the cache filled with what its calls have found. -/
theorem keeps_afterCalls (rootDirectory : Path) (policy : EvictionPolicy) (cacheCapacity : ℕ)
    (calls : List (ServeCall M)) :
    ((fresh rootDirectory policy cacheCapacity).afterCalls calls).rootDirectory = rootDirectory ∧
      ((fresh rootDirectory policy cacheCapacity).afterCalls calls).cache.Keeps
        (FoundBy rootDirectory calls) := by
  induction calls using List.reverseRecOn with
  | nil => exact ⟨rfl, Cache.keeps_empty _ _⟩
  | append_singleton calls call ih =>
    obtain ⟨hroot, hkeeps⟩ := ih
    rw [afterCalls, List.foldl_append]
    show (afterCall (afterCalls _ calls) call).rootDirectory = _ ∧
      (afterCall (afterCalls _ calls) call).cache.Keeps _
    exact ⟨(rootDirectory_serve _ _ _ _).trans hroot, (serve_foundBy hroot hkeeps call).1⟩

/-- **Static serving never leaves the root**: over any sequence of calls, a body that is served is
the content that a regular file under the root directory had, at this call or at an earlier one with
the same request path; a call that serves nothing changes neither the response nor the cache. -/
theorem serve_within_root (rootDirectory : Path) (policy : EvictionPolicy) (cacheCapacity : ℕ)
    (earlier : List (ServeCall M)) (call : ServeCall M) :
    let server := (fresh rootDirectory policy cacheCapacity).afterCalls earlier
    let served := server.serve call.fs call.requestPath call.response
    (served.1 = .ok true → ∃ c ∈ earlier ++ [call], c.requestPath = call.requestPath ∧
      ServesFile rootDirectory c.fs call.requestPath served.2.1.body) ∧
    (served.1 ≠ .ok true → served.2 = (call.response, server)) := by
  intro server served
  obtain ⟨hroot, hkeeps⟩ := keeps_afterCalls rootDirectory policy cacheCapacity earlier
  refine ⟨fun htrue ↦ ?_, serve_of_ne_true⟩
  obtain ⟨entry, ⟨c, hc, hpath, hlookup⟩, hresponse⟩ :=
    (serve_foundBy hroot hkeeps call).2 htrue
  refine ⟨c, hc, hpath, ?_⟩
  show ServesFile rootDirectory c.fs call.requestPath
    (server.serve call.fs call.requestPath call.response).2.1.body
  rw [hresponse]
  exact servesFile_of_lookup hlookup

/-- A filesystem with a file under `/srv`, and a link there that leads out of it. -/
def linkedOut : FileSystem where
  weaklyCanonical p := some (if p = ascii "/srv/out" then ascii "/etc/passwd" else p)
  node p :=
    if p = ascii "/srv/index.html" then .regularFile (ascii "hello") true
    else if p = ascii "/etc/passwd" then .regularFile (ascii "secret") true
    else .missing

/-- A server for `/srv` that evicts nothing. -/
def srv : StaticFileServer :=
  fresh (ascii "/srv") (fun _ _ _ ↦ true) 16

example :
    (srv.serve linkedOut (ascii "/index.html") (.new .ok : HttpResponse BytesMap)).1 = .ok true :=
  rfl

example : (srv.serve linkedOut (ascii "/out") (.new .ok : HttpResponse BytesMap)).1 = .ok false :=
  rfl

/-- **The cache is transparent**: over one filesystem, after any sequence of calls, a call reports
and leaves in the response what it does on a server with an empty cache. -/
theorem serve_transparent (rootDirectory : Path) (policy : EvictionPolicy) (cacheCapacity : ℕ)
    (fs : FileSystem) (earlier : List (Bytes × HttpResponse M)) (requestPath : Bytes)
    (response : HttpResponse M) :
    let server := (fresh rootDirectory policy cacheCapacity).afterCalls
      (earlier.map fun c ↦ ⟨fs, c.1, c.2⟩)
    let served := server.serve fs requestPath response
    let uncached := (fresh rootDirectory policy cacheCapacity).serve fs requestPath response
    served.1 = uncached.1 ∧ served.2.1 = uncached.2.1 := by
  intro server served uncached
  obtain ⟨hroot, hkeeps⟩ := keeps_afterCalls rootDirectory policy cacheCapacity
    (earlier.map fun c ↦ (⟨fs, c.1, c.2⟩ : ServeCall M))
  have hdisk : server.cache.Keeps fun k e ↦ lookup server.rootDirectory fs k = .ok (some e) := by
    refine hkeeps.mono ?_
    rintro k e ⟨c, hc, -, hlookup⟩
    obtain ⟨c', -, rfl⟩ := List.mem_map.1 hc
    rw [show server.rootDirectory = rootDirectory from hroot]
    exact hlookup
  obtain ⟨hresult, hresponse⟩ := serve_of_keeps hdisk requestPath response
  have hempty : (fresh rootDirectory policy cacheCapacity).cache.Keeps
      fun k e ↦ lookup rootDirectory fs k = .ok (some e) := Cache.keeps_empty _ _
  obtain ⟨hresult', hresponse'⟩ := serve_of_keeps hempty requestPath response
  rw [show server.rootDirectory = rootDirectory from hroot] at hresult hresponse
  exact ⟨hresult.trans hresult'.symm, hresponse.trans hresponse'.symm⟩

end StaticFileServer

end FalconHTTP
