import Mathlib.Data.List.Basic

/-!
# Caches that forget

A cache of which one thing is known: a lookup answers nothing, or the value last put for exactly
that key. What it forgets and when is left open. `Cache.holds` decides it from everything that was
ever done with the cache, so that quantifying over `holds` quantifies over every capacity and every
eviction policy; a least-recently-used cache is the one that keeps the keys used last.

The state is the history itself, puts and hits, newest first (`Op`). A lookup that answers nothing
is not part of it: it leaves the cache as it was (`get_cases`).

The rule for a client is `Keeps`: a property that every put establishes of its key and value holds
of everything a lookup ever answers.
-/

namespace EvictingCache

universe u v

variable {κ : Type u} {ε : Type v} [DecidableEq κ]

/-- What can be done with a cache. -/
inductive Op (κ : Type u) (ε : Type v)
  /-- A value was put for a key. -/
  | put (key : κ) (entry : ε)
  /-- A lookup of a key was answered. -/
  | hit (key : κ)

/-- The value last put for a key, in a history with the newest operation first. -/
def lastPut : List (Op κ ε) → κ → Option ε
  | [], _ => none
  | .put key entry :: history, k => if key = k then some entry else lastPut history k
  | .hit _ :: history, k => lastPut history k

/-- A cache: what was done with it, and which keys it holds on to after that. -/
structure Cache (κ : Type u) (ε : Type v) where
  /-- Whether the value of a key has not been evicted after a history. -/
  holds : List (Op κ ε) → κ → Bool
  /-- The history. -/
  history : List (Op κ ε)

namespace Cache

/-- The empty cache. -/
def empty (holds : List (Op κ ε) → κ → Bool) : Cache κ ε where
  holds := holds
  history := []

/-- Look a key up. -/
def get (cache : Cache κ ε) (key : κ) : Option ε × Cache κ ε :=
  if cache.holds cache.history key then
    match lastPut cache.history key with
    | some entry => (some entry, { cache with history := .hit key :: cache.history })
    | none => (none, cache)
  else (none, cache)

/-- Put a value for a key. -/
def put (cache : Cache κ ε) (key : κ) (entry : ε) : Cache κ ε :=
  { cache with history := .put key entry :: cache.history }

variable {cache : Cache κ ε} {key : κ} {entry : ε}

/-- **A lookup answers nothing**, and leaves the cache as it was, **or the value last put.** -/
theorem get_cases (cache : Cache κ ε) (key : κ) :
    cache.get key = (none, cache) ∨
      ∃ entry, lastPut cache.history key = some entry ∧
        cache.get key = (some entry, { cache with history := .hit key :: cache.history }) := by
  rw [get]
  split
  · rcases hlast : lastPut cache.history key with - | entry
    · exact Or.inl rfl
    · exact Or.inr ⟨entry, rfl, rfl⟩
  · exact Or.inl rfl

/-- What was last put for a key satisfies `P`. -/
def Keeps (P : κ → ε → Prop) (cache : Cache κ ε) : Prop :=
  ∀ key entry, lastPut cache.history key = some entry → P key entry

theorem keeps_empty (P : κ → ε → Prop) (holds : List (Op κ ε) → κ → Bool) :
    (empty holds).Keeps P :=
  fun _ _ h ↦ absurd h (by simp [empty, lastPut])

theorem Keeps.mono {P Q : κ → ε → Prop} (h : cache.Keeps P) (hPQ : ∀ k e, P k e → Q k e) :
    cache.Keeps Q :=
  fun k e hlast ↦ hPQ k e (h k e hlast)

/-- A put that establishes the property keeps it. -/
theorem Keeps.put {P : κ → ε → Prop} (h : cache.Keeps P) (hnew : P key entry) :
    (cache.put key entry).Keeps P := by
  intro k e hlast
  rw [Cache.put, lastPut] at hlast
  split at hlast
  · rename_i hk
    obtain rfl := Option.some.inj hlast
    exact hk ▸ hnew
  · exact h k e hlast

/-- **The rule of the cache**: what a lookup answers satisfies the property, and the cache goes on
keeping it. -/
theorem Keeps.get {P : κ → ε → Prop} (h : cache.Keeps P) (key : κ) :
    (∀ entry, (cache.get key).1 = some entry → P key entry) ∧ (cache.get key).2.Keeps P := by
  rcases get_cases cache key with hget | ⟨entry, hlast, hget⟩
  · rw [hget]
    exact ⟨fun _ hentry ↦ absurd hentry (by simp), h⟩
  · rw [hget]
    refine ⟨fun e he ↦ ?_, fun k e hk ↦ h k e hk⟩
    obtain rfl := Option.some.inj he
    exact h key entry hlast

end Cache

end EvictingCache
