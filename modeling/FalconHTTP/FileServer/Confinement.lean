import FalconHTTP.FileServer.ConcurrentServing

/-!
# What a static file server sees of a filesystem

`serve_within_root` is about what is served. This is about what can be found out at all: what a call
of `serve` reports, leaves in the response and puts in the cache, and how many steps it takes. All
of this depends on which paths lead under the root directory, where they lead there, and what is
found there (`FileSystem.SameUnder`). What lies elsewhere cannot be told apart, neither by its
content nor by whether it exists, and no sequence of calls gets more out of the server than one
(`serving_confined`).

The check of a path and the open that follows it are separate steps, so one condition is needed: the
path that a call looks at after the check is not made to lead out of the root directory
(`StaysUnder`).
-/

namespace FalconHTTP

variable {M : Type} [FiniteMap M Bytes Bytes]

/-- Two filesystems that look the same from a root directory. -/
structure FileSystem.SameUnder (rootDirectory : Path) (fs fs' : FileSystem) : Prop where
  /-- The same paths lead under it, to the same locations. -/
  canonical : ∀ p location, Path.components rootDirectory <+: Path.components location →
    (fs.weaklyCanonical p = some location ↔ fs'.weaklyCanonical p = some location)
  /-- The same is found at these. -/
  node : ∀ location, Path.components rootDirectory <+: Path.components location →
    fs.node location = fs'.node location

/-- A call that looks at its path after the check. -/
def ServePoint.looks : ServePoint M → Bool
  | .asking => false
  | .checking => false
  | .existing => true
  | .regular => true
  | .opening => true
  | .storing _ => false
  | .returned _ _ => false

namespace StaticFileServer

variable {rootDirectory : Path} {fs fs' : FileSystem}

theorem isPathSafe_iff {p : Path} : isPathSafe rootDirectory fs p = true ↔
    ∃ location, fs.weaklyCanonical p = some location ∧
      Path.components rootDirectory <+: Path.components location := by
  rw [isPathSafe]
  rcases fs.weaklyCanonical p with - | location
  · simp
  · simp [withinRoot_iff]

end StaticFileServer

namespace FileSystem.SameUnder

open StaticFileServer

variable {rootDirectory : Path} {fs fs' : FileSystem}

theorem refl (rootDirectory : Path) (fs : FileSystem) : SameUnder rootDirectory fs fs where
  canonical _ _ _ := Iff.rfl
  node _ _ := rfl

/-- The check passes in both, or in none. -/
theorem isPathSafe_eq (h : SameUnder rootDirectory fs fs') (p : Path) :
    isPathSafe rootDirectory fs p = isPathSafe rootDirectory fs' p := by
  rw [Bool.eq_iff_iff, isPathSafe_iff, isPathSafe_iff]
  exact exists_congr fun location ↦ and_congr_left fun hunder ↦ h.canonical p location hunder

/-- Past the check, the path leads to the same. -/
theorem reach_eq (h : SameUnder rootDirectory fs fs') {p : Path}
    (hsafe : isPathSafe rootDirectory fs p = true) : fs.reach p = fs'.reach p := by
  obtain ⟨location, hcanonical, hunder⟩ := isPathSafe_iff.1 hsafe
  rw [FileSystem.reach, FileSystem.reach, hcanonical, (h.canonical p location hunder).1 hcanonical]
  exact h.node location hunder

end FileSystem.SameUnder

namespace StaticFileServer

variable {rootDirectory : Path} {fs fs' : FileSystem} {opens : Node → Option Bytes}
  {server : StaticFileServer} {call : ActiveCall M}

/-- A call past its check whose path leads under the root directory. -/
def LooksUnder (rootDirectory : Path) (fs : FileSystem) (call : ActiveCall M) : Prop :=
  call.point.looks = true →
    isPathSafe rootDirectory fs (fullPath rootDirectory call.requestPath) = true

/-- **One step of a call** is the same in filesystems that look the same. -/
theorem next_eq_of_sameUnder (hroot : server.rootDirectory = rootDirectory)
    (h : fs.SameUnder rootDirectory fs') (hlooks : LooksUnder rootDirectory fs call) :
    server.next opens fs call = server.next opens fs' call := by
  subst hroot
  obtain ⟨requestPath, response, point⟩ := call
  cases point with
  | asking => rfl
  | checking =>
    rw [next, next]
    simp only [h.isPathSafe_eq]
  | existing =>
    rw [next, next]
    simp only [h.reach_eq (hlooks rfl)]
  | regular =>
    rw [next, next]
    simp only [h.reach_eq (hlooks rfl)]
  | opening =>
    rw [next, next]
    simp only [FileSystem.openForReading, h.reach_eq (hlooks rfl)]
  | storing contents => rfl
  | returned result response => rfl

/-- A call that does not look is under the root directory. -/
theorem looksUnder_of_eq_false (h : call.point.looks = false) :
    LooksUnder rootDirectory fs call :=
  fun hlooks ↦ absurd (h.symm.trans hlooks) (by decide)

/-- **A step** keeps the root directory, and goes on to look only at what was checked. -/
theorem looksUnder_next (hroot : server.rootDirectory = rootDirectory)
    (hlooks : LooksUnder rootDirectory fs call) {r : ServePoint M × StaticFileServer}
    (hnext : server.next opens fs call = some r) :
    r.2.rootDirectory = rootDirectory ∧
      LooksUnder rootDirectory fs { call with point := r.1 } := by
  subst hroot
  obtain ⟨requestPath, response, point⟩ := call
  rw [next.eq_def] at hnext
  cases point with
  | asking =>
    simp only at hnext
    rcases hget : server.cache.get requestPath with ⟨- | entry, cache⟩
    all_goals
      rw [hget] at hnext
      obtain rfl := Option.some.inj hnext
      exact ⟨rfl, looksUnder_of_eq_false rfl⟩
  | checking =>
    simp only at hnext
    split at hnext
    · obtain rfl := Option.some.inj hnext
      exact ⟨rfl, looksUnder_of_eq_false rfl⟩
    · rename_i hsafe
      obtain rfl := Option.some.inj hnext
      exact ⟨rfl, fun _ ↦ not_not.1 hsafe⟩
  | existing =>
    have hsafe := hlooks rfl
    simp only at hnext
    rcases hreach : fs.reach (fullPath server.rootDirectory requestPath) with
      - | - | ⟨contents, readable⟩ | - | what
    all_goals
      rw [hreach] at hnext
      obtain rfl := Option.some.inj hnext
      exact ⟨rfl, fun _ ↦ hsafe⟩
  | regular =>
    have hsafe := hlooks rfl
    simp only at hnext
    rcases hreach : fs.reach (fullPath server.rootDirectory requestPath) with
      - | - | ⟨contents, readable⟩ | - | what
    all_goals
      rw [hreach] at hnext
      obtain rfl := Option.some.inj hnext
      exact ⟨rfl, fun _ ↦ hsafe⟩
  | opening =>
    simp only at hnext
    split at hnext
    all_goals
      obtain rfl := Option.some.inj hnext
      exact ⟨rfl, looksUnder_of_eq_false rfl⟩
  | storing contents =>
    obtain rfl := Option.some.inj hnext
    exact ⟨rfl, looksUnder_of_eq_false rfl⟩
  | returned result response => cases hnext

/-! ### All calls -/

variable {ι : Type*}

/-- The same action, where a change of the filesystem may differ outside the root directory. -/
inductive SameAction (rootDirectory : Path) : ServingAction ι M → ServingAction ι M → Prop
  /-- The same. -/
  | same (a : ServingAction ι M) : SameAction rootDirectory a a
  /-- A change to filesystems that look the same. -/
  | change {fs fs' : FileSystem} (h : fs.SameUnder rootDirectory fs') :
    SameAction rootDirectory (.change fs) (.change fs')

/-- A change of the filesystem does not make a path that a call looks at lead out of the root
directory. -/
def StaysUnder (rootDirectory : Path) (s : ServingState ι M) (a : ServingAction ι M) : Prop :=
  ∀ fs, a = .change fs → ∀ i call, s.call i = some call → LooksUnder rootDirectory fs call

/-- Two states that differ outside the root directory only. -/
structure SameState (rootDirectory : Path) (s s' : ServingState ι M) : Prop where
  /-- The server has this root directory. -/
  rootDirectory_eq : s.server.rootDirectory = rootDirectory
  /-- The calls look under it. -/
  looks : ∀ i call, s.call i = some call → LooksUnder rootDirectory s.fs call
  /-- The servers are the same. -/
  server : s.server = s'.server
  /-- So are the calls. -/
  call : s.call = s'.call
  /-- The filesystems look the same. -/
  fs : s.fs.SameUnder rootDirectory s'.fs

variable [DecidableEq ι] {s s' r : ServingState ι M} {a a' : ServingAction ι M}

/-- **Each step** of one is matched by a step of the other. -/
theorem SameState.step (h : SameState rootDirectory s s') (hsame : SameAction rootDirectory a a')
    (hstays : StaysUnder rootDirectory s a) (hstep : s.step opens a = some r) :
    ∃ r', s'.step opens a' = some r' ∧ SameState rootDirectory r r' := by
  obtain ⟨server, fs, calls⟩ := s
  obtain ⟨server', fs', calls'⟩ := s'
  obtain ⟨hroot, hlooks, rfl, rfl, hfs⟩ := h
  have hupdate : ∀ {i c}, (∀ call, c = some call → LooksUnder rootDirectory fs call) →
      ∀ j call, Function.update calls i c j = some call → LooksUnder rootDirectory fs call := by
    intro i c hc j call hcall
    by_cases hj : j = i
    · subst hj
      rw [Function.update_self] at hcall
      exact hc call hcall
    · rw [Function.update_of_ne hj] at hcall
      exact hlooks j call hcall
  cases hsame with
  | change hchange =>
    obtain rfl := Option.some.inj hstep
    exact ⟨_, rfl, hroot, hstays _ rfl, rfl, rfl, hchange⟩
  | same =>
    cases a with
    | enter i requestPath response =>
      rw [ServingState.step] at hstep ⊢
      split at hstep
      · rename_i hcall
        obtain rfl := Option.some.inj hstep
        refine ⟨⟨server, fs', Function.update calls i (some ⟨requestPath, response, .asking⟩)⟩, ?_,
          hroot, hupdate fun call hcall ↦ ?_, rfl, rfl, hfs⟩
        · rw [hcall]
        · obtain rfl := Option.some.inj hcall
          exact looksUnder_of_eq_false rfl
      · cases hstep
    | next i =>
      obtain ⟨call, r, hcall, hnext, rfl⟩ := step_next_eq_some_iff.1 hstep
      have hlook := hlooks i call hcall
      obtain ⟨hkept, hlook'⟩ := looksUnder_next hroot hlook hnext
      rw [next_eq_of_sameUnder hroot hfs hlook] at hnext
      refine ⟨_, step_next_eq_some_iff.2 ⟨call, r, hcall, hnext, rfl⟩, hkept,
        hupdate fun call' hcall' ↦ ?_, rfl, rfl, hfs⟩
      obtain rfl := Option.some.inj hcall'
      exact hlook'
    | leave i =>
      rw [ServingState.step] at hstep ⊢
      split at hstep
      · rename_i hcall
        obtain rfl := Option.some.inj hstep
        refine ⟨⟨server, fs', Function.update calls i none⟩, ?_, hroot,
          hupdate fun call hcall ↦ ?_, rfl, rfl, hfs⟩
        · rw [hcall]
        · cases hcall
      · cases hstep
    | change fs =>
      obtain rfl := Option.some.inj hstep
      exact ⟨_, rfl, hroot, hstays _ rfl, rfl, rfl, .refl _ _⟩

/-- **What lies outside the root directory cannot be observed.** In every interleaving of any number
of calls with changes of the filesystem, under every eviction policy, as long as no change makes a
path that a call looks at after its check lead out of the root directory: replace the filesystems of
the run by others that look the same from the root directory, and the same steps are taken, all
calls report the same and leave the same in the response, and the cache holds the same. -/
theorem serving_confined (opens : Node → Option Bytes) (rootDirectory : Path)
    (policy : EvictionPolicy) (cacheCapacity : ℕ) {fs fs' : FileSystem}
    {as as' : List (ServingAction ι M)} (hfs : fs.SameUnder rootDirectory fs')
    (hsame : List.Forall₂ (SameAction rootDirectory) as as')
    (hstays : (serving ι opens rootDirectory policy cacheCapacity fs).Meets
      (StaysUnder rootDirectory) as)
    (h : (serving ι opens rootDirectory policy cacheCapacity fs).run as = some s) :
    ∃ s', (serving ι opens rootDirectory policy cacheCapacity fs').run as' = some s' ∧
      s'.server = s.server ∧ s'.call = s.call := by
  have hinit : SameState rootDirectory
      (serving (M := M) ι opens rootDirectory policy cacheCapacity fs).init
      (serving (M := M) ι opens rootDirectory policy cacheCapacity fs').init :=
    ⟨rfl, fun i call hcall ↦ absurd hcall (by simp [serving]), rfl, rfl, hfs⟩
  have hstep : ∀ (s s' : ServingState ι M) a a' r, SameState rootDirectory s s' →
      SameAction rootDirectory a a' → StaysUnder rootDirectory s a → s.step opens a = some r →
        ∃ r', s'.step opens a' = some r' ∧ SameState rootDirectory r r' :=
    fun s s' a a' r hrel ha hcond hr ↦ hrel.step ha hcond hr
  obtain ⟨s', hs', hrel⟩ := TransitionSystem.exists_run_of_lockstep hinit hstep hsame hstays h
  exact ⟨s', hs', hrel.server.symm, hrel.call.symm⟩

/-- A filesystem with one file under `/srv`, and a link there to a file elsewhere. -/
def linkTo (target content : Bytes) : FileSystem where
  weaklyCanonical p := some (if p = ascii "/srv/out" then target else p)
  node p :=
    if p = ascii "/srv/index.html" then .regularFile (ascii "hello") true
    else if p = target then .regularFile content true
    else .missing

/-- Links that lead out of the root directory look the same, whatever they lead to. -/
theorem sameUnder_linkTo {target target' : Path} (content content' : Bytes)
    (h : ¬ Path.components (ascii "/srv") <+: Path.components target)
    (h' : ¬ Path.components (ascii "/srv") <+: Path.components target') :
    (linkTo target content).SameUnder (ascii "/srv") (linkTo target' content') where
  canonical p location hunder := by
    by_cases hp : p = ascii "/srv/out"
    · subst hp
      refine iff_of_false (fun heq ↦ ?_) (fun heq ↦ ?_)
      · obtain rfl := Option.some.inj heq
        exact h hunder
      · obtain rfl := Option.some.inj heq
        exact h' hunder
    · rw [linkTo, linkTo]
      simp only [if_neg hp]
  node location hunder := by
    have hne : location ≠ target := fun heq ↦ h (heq ▸ hunder)
    have hne' : location ≠ target' := fun heq ↦ h' (heq ▸ hunder)
    simp only [linkTo, if_neg hne, if_neg hne']

/-- A run in which the link is asked for, then changes, and the file is asked for. -/
def outRun (fs : FileSystem) : List (ServingAction Unit BytesMap) :=
  [.enter () (ascii "/out") (.new .ok), .next (), .next (), .leave ()] ++ [.change fs] ++
    (.enter () (ascii "/index.html") (.new .ok) :: List.replicate 6 (.next ()))

theorem serving_confined_outRun : ∃ s s' : ServingState Unit BytesMap,
    (serving Unit (fun _ ↦ none) (ascii "/srv") (fun _ _ _ ↦ true) 16
      (linkTo (ascii "/etc/passwd") (ascii "one"))).run
        (outRun (linkTo (ascii "/etc/passwd") (ascii "two"))) = some s ∧
    (serving Unit (fun _ ↦ none) (ascii "/srv") (fun _ _ _ ↦ true) 16
      (linkTo (ascii "/etc/shadow") (ascii "three"))).run
        (outRun (linkTo (ascii "/home") (ascii "four"))) = some s' ∧
    s'.call = s.call := by
  set first := serving (M := BytesMap) Unit (fun _ ↦ none) (ascii "/srv") (fun _ _ _ ↦ true) 16
    (linkTo (ascii "/etc/passwd") (ascii "one"))
  have hpre : (first.run [.enter () (ascii "/out") (.new .ok), .next (), .next (),
      .leave ()]).map (fun s ↦ (s.call ()).isNone) = some true := by decide +kernel
  have hrun : (first.run (outRun (linkTo (ascii "/etc/passwd") (ascii "two")))).isSome := by
    decide +kernel
  obtain ⟨t, ht, hnone⟩ := Option.map_eq_some_iff.1 hpre
  obtain ⟨s, hs⟩ := Option.isSome_iff_exists.1 hrun
  have hquiet : ∀ as : List (ServingAction Unit BytesMap),
      as.all (fun a ↦ a.changesTo.isNone) = true → ∀ a ∈ as, ∀ s,
        StaysUnder (ascii "/srv") s a := by
    rintro as has a ha s fs rfl
    cases List.all_eq_true.1 has _ ha
  have hmeets : first.Meets (StaysUnder (ascii "/srv"))
      (outRun (linkTo (ascii "/etc/passwd") (ascii "two"))) := by
    refine ((TransitionSystem.Meets.nil.append_of_forall (hquiet _ rfl)).concat ht
      fun fs _ i call hcall ↦ ?_).append_of_forall (hquiet _ rfl)
    rw [show t.call i = none from Option.isNone_iff_eq_none.1 hnone] at hcall
    cases hcall
  have hsame : List.Forall₂ (SameAction (ascii "/srv"))
      (outRun (linkTo (ascii "/etc/passwd") (ascii "two")))
      (outRun (linkTo (ascii "/home") (ascii "four"))) :=
    List.rel_append (List.rel_append (List.forall₂_same.2 fun a _ ↦ .same a)
      (.cons (.change (sameUnder_linkTo _ _ (by decide) (by decide))) .nil))
      (List.forall₂_same.2 fun a _ ↦ .same a)
  have hfs : (linkTo (ascii "/etc/passwd") (ascii "one")).SameUnder (ascii "/srv")
      (linkTo (ascii "/etc/shadow") (ascii "three")) :=
    sameUnder_linkTo _ _ (by decide) (by decide)
  obtain ⟨s', hs', -, hcall⟩ := serving_confined _ _ _ _ hfs hsame hmeets hs
  exact ⟨s, s', hs, hs', hcall⟩

end StaticFileServer

end FalconHTTP
