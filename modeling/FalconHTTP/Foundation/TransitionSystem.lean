import Mathlib.Data.List.Forall2
import Mathlib.Data.List.Induction

/-!
# Transition systems with executable steps

A system of parties that take atomic steps is an initial state and a partial step function: `step s
a` is the state after action `a`, or `none` where `a` is not enabled. A *run* is a list of actions
taken from the initial state, so every interleaving of the parties is a run and a concrete run can
be evaluated.

Five rules, each proved once:

* `run_induction` for facts that relate a run to the state it ends in;
* `run_induction_of_meets` for runs whose every step meets a condition on the state before it
  (`Meets`);
* `countP_le_of_meets` for how often something can still happen: a potential that pays for each
  occurrence bounds their number;
* `exists_run_of_lockstep` for two systems that take their steps together;
* `exists_stuck_run` for the end that every run comes to where runs are bounded.
-/

/-- An initial state and a partial step function. -/
structure TransitionSystem (S A : Type*) where
  /-- The initial state. -/
  init : S
  /-- The state after an action, where the action is enabled. -/
  step : S → A → Option S

namespace TransitionSystem

variable {S A : Type*} (T : TransitionSystem S A)

/-- The state a list of actions leads to. -/
def runFrom (s : S) : List A → Option S
  | [] => some s
  | a :: as => (T.step s a).bind fun s' ↦ runFrom s' as

/-- The state a run from the initial state leads to. -/
def run (as : List A) : Option S :=
  T.runFrom T.init as

/-- Every step of the run meets the condition on the state before it. -/
def Meets (cond : S → A → Prop) (as : List A) : Prop :=
  ∀ pre a post s, as = pre ++ a :: post → T.run pre = some s → cond s a

variable {T} {s s' : S} {a : A} {as : List A}

theorem runFrom_append (as bs : List A) :
    T.runFrom s (as ++ bs) = (T.runFrom s as).bind fun s' ↦ T.runFrom s' bs := by
  induction as generalizing s with
  | nil => rfl
  | cons a as ih =>
    rw [List.cons_append, runFrom, runFrom]
    rcases T.step s a with - | s'
    · rfl
    · exact ih

/-- A run extended by one action. -/
theorem run_concat (as : List A) (a : A) :
    T.run (as ++ [a]) = (T.run as).bind fun s ↦ T.step s a := by
  rw [run, runFrom_append]
  congr 1
  funext s
  rw [runFrom]
  rcases T.step s a with - | s' <;> rfl

/-- The last step of a run. -/
theorem run_concat_eq_some_iff :
    T.run (as ++ [a]) = some s' ↔ ∃ s, T.run as = some s ∧ T.step s a = some s' := by
  rw [run_concat]
  exact Option.bind_eq_some_iff

/-- Every prefix of a run is a run. -/
theorem exists_run_of_append {as bs : List A} (h : T.run (as ++ bs) = some s') :
    ∃ s, T.run as = some s ∧ T.runFrom s bs = some s' := by
  rw [run, runFrom_append] at h
  exact Option.bind_eq_some_iff.1 h

/-- Every action of a run is a step. -/
theorem exists_step_of_run {pre post : List A} (h : T.run (pre ++ a :: post) = some s')
    (hs : T.run pre = some s) : ∃ r, T.step s a = some r := by
  obtain ⟨r, hr, hpost⟩ := exists_run_of_append h
  obtain rfl := Option.some.inj (hs.symm.trans hr)
  obtain ⟨r, hstep, -⟩ := Option.bind_eq_some_iff.1 hpost
  exact ⟨r, hstep⟩

/-- **Induction over runs**: a relation between runs and states that holds of the empty run and is
kept by every step holds of every run. -/
theorem run_induction {P : List A → S → Prop} (hinit : P [] T.init)
    (hstep : ∀ as s a s', T.run as = some s → P as s → T.step s a = some s' → P (as ++ [a]) s') :
    ∀ {as s}, T.run as = some s → P as s := by
  intro as
  induction as using List.reverseRecOn with
  | nil =>
    intro s h
    obtain rfl := Option.some.inj h
    exact hinit
  | append_singleton as a ih =>
    intro s' h
    obtain ⟨s, hs, ha⟩ := run_concat_eq_some_iff.1 h
    exact hstep as s a s' hs (ih hs) ha

theorem Meets.nil {cond : S → A → Prop} : T.Meets cond [] := by
  intro pre a post s heq
  simp at heq

theorem Meets.of_append {cond : S → A → Prop} {bs : List A} (h : T.Meets cond (as ++ bs)) :
    T.Meets cond as := by
  intro pre b post s heq hs
  exact h pre b (post ++ bs) s (by rw [heq]; simp) hs

theorem Meets.concat {cond : S → A → Prop} (h : T.Meets cond as) (hs : T.run as = some s)
    (ha : cond s a) : T.Meets cond (as ++ [a]) := by
  intro pre b post r heq hr
  rcases List.eq_nil_or_concat post with rfl | ⟨post, c, rfl⟩
  · obtain ⟨rfl, hb⟩ := List.append_inj' heq rfl
    obtain rfl := List.head_eq_of_cons_eq hb
    obtain rfl := Option.some.inj (hs.symm.trans hr)
    exact ha
  · rw [List.concat_eq_append, ← List.cons_append, ← List.append_assoc] at heq
    exact h pre b post r (List.append_inj' heq rfl).1 hr

/-- Steps that meet the condition in any state. -/
theorem Meets.append_of_forall {cond : S → A → Prop} {bs : List A} (h : T.Meets cond as)
    (hbs : ∀ b ∈ bs, ∀ s, cond s b) : T.Meets cond (as ++ bs) := by
  intro pre b post s heq hs
  rcases List.append_eq_append_iff.1 heq with ⟨cs, rfl, rfl⟩ | ⟨cs, rfl, hcs⟩
  · exact hbs b (by simp) s
  · cases cs with
    | nil => exact hbs b (by rw [show bs = b :: post from hcs.symm]; simp) s
    | cons c cs =>
      obtain ⟨rfl, -⟩ := List.cons.inj hcs
      exact h pre b cs s rfl hs

theorem Meets.last {cond : S → A → Prop} (h : T.Meets cond (as ++ [a])) (hs : T.run as = some s) :
    cond s a :=
  h as a [] s rfl hs

/-- **Induction over the runs whose steps meet a condition.** -/
theorem run_induction_of_meets {cond : S → A → Prop} {P : List A → S → Prop} (hinit : P [] T.init)
    (hstep : ∀ as s a s', P as s → cond s a → T.step s a = some s' → P (as ++ [a]) s') :
    ∀ {as s}, T.Meets cond as → T.run as = some s → P as s := by
  intro as s hmeets hs
  induction as using List.reverseRecOn generalizing s with
  | nil =>
    obtain rfl := Option.some.inj hs
    exact hinit
  | append_singleton as a ih =>
    obtain ⟨r, hr, ha⟩ := run_concat_eq_some_iff.1 hs
    exact hstep as r a s (ih hmeets.of_append hr) (hmeets.last hr) ha

/-- **A potential bounds what is still to come**: where every step that meets the condition keeps
the invariant and lets the potential fall by one if it is counted, a stretch of such steps keeps the
invariant and holds at most as many counted ones as the potential says. -/
theorem countP_le_of_meets {I : S → Prop} {cond : S → A → Prop} (counted : A → Bool)
    (potential : S → ℕ)
    (hstep : ∀ s a s', I s → cond s a → T.step s a = some s' →
      I s' ∧ (if counted a then 1 else 0) + potential s' ≤ potential s)
    {pre mid post : List A} (hmeets : T.Meets cond (pre ++ (mid ++ post)))
    (hs : T.run pre = some s) (hI : I s) (hs' : T.runFrom s mid = some s') :
    I s' ∧ mid.countP counted + potential s' ≤ potential s := by
  induction mid generalizing pre s with
  | nil =>
    obtain rfl := Option.some.inj hs'
    exact ⟨hI, by simp⟩
  | cons a mid ih =>
    rw [runFrom, Option.bind_eq_some_iff] at hs'
    obtain ⟨r, hr, hs'⟩ := hs'
    obtain ⟨hIr, hle⟩ := hstep s a r hI (hmeets pre a (mid ++ post) s rfl hs) hr
    have hpre : T.run (pre ++ [a]) = some r := by rw [run_concat, hs, Option.bind_some, hr]
    obtain ⟨hIs', hrest⟩ := ih (by simpa using hmeets) hpre hIr hs'
    rw [List.countP_cons]
    exact ⟨hIs', by omega⟩

/-- **Two systems in lockstep**: where each step of the one that meets the condition is matched,
from related states and for related actions, by a step of the other, every run of such steps is
matched by every list of related actions. -/
theorem exists_run_of_lockstep {S' A' : Type*} {T' : TransitionSystem S' A'} {R : S → S' → Prop}
    {Q : A → A' → Prop} {cond : S → A → Prop} (hinit : R T.init T'.init)
    (hstep : ∀ s s' a a' r, R s s' → Q a a' → cond s a → T.step s a = some r →
      ∃ r', T'.step s' a' = some r' ∧ R r r')
    {as' : List A'} (hsame : List.Forall₂ Q as as') (hmeets : T.Meets cond as)
    (h : T.run as = some s) : ∃ s', T'.run as' = some s' ∧ R s s' := by
  refine run_induction_of_meets (P := fun as s ↦ ∀ as', List.Forall₂ Q as as' →
    ∃ s', T'.run as' = some s' ∧ R s s') ?_ ?_ hmeets h as' hsame
  · intro as' hsame
    obtain rfl := List.forall₂_nil_left_iff.1 hsame
    exact ⟨T'.init, rfl, hinit⟩
  · intro as s a r ih hcond hr as' hsame
    -- the last of the related actions is the one that is related to the last action
    have htake := List.forall₂_take_append as' as [a] hsame.flip
    have hdrop := List.forall₂_drop_append as' as [a] hsame.flip
    obtain ⟨b, bs, hb, hbs, hlast⟩ := List.forall₂_cons_right_iff.1 hdrop
    obtain rfl := List.forall₂_nil_right_iff.1 hbs
    obtain ⟨s', hs', hrel⟩ := ih _ htake.flip
    obtain ⟨r', hr', hrel'⟩ := hstep s s' a b r hrel hb hcond hr
    refine ⟨r', ?_, hrel'⟩
    rw [← List.take_append_drop as.length as', hlast]
    exact run_concat_eq_some_iff.2 ⟨s', hs', hr'⟩

/-- **Bounded runs come to an end**: where no run is longer than `n`, every run can be taken on by
steps of one kind until no step of this kind is left. -/
theorem exists_stuck_run {n : ℕ} {P : A → Prop}
    (hbound : ∀ as s, T.run as = some s → as.length ≤ n) (as : List A) (s : S)
    (h : T.run as = some s) : ∃ bs s', T.run (as ++ bs) = some s' ∧ (∀ b ∈ bs, P b) ∧
      ∀ b, P b → T.step s' b = none := by
  by_cases hstuck : ∀ b, P b → T.step s b = none
  · exact ⟨[], s, by rwa [List.append_nil], by simp, hstuck⟩
  · obtain ⟨b, hb⟩ := not_forall.1 hstuck
    obtain ⟨hP, hstep⟩ := Classical.not_imp.1 hb
    obtain ⟨r, hr⟩ := Option.ne_none_iff_exists'.1 hstep
    have hrun : T.run (as ++ [b]) = some r := run_concat_eq_some_iff.2 ⟨s, h, hr⟩
    have hlength := hbound _ _ hrun
    obtain ⟨bs, s', hs', hbs, hnone⟩ := exists_stuck_run hbound (as ++ [b]) r hrun
    refine ⟨b :: bs, s', by rwa [List.append_cons], ?_, hnone⟩
    rintro c (- | ⟨-, hc⟩)
    · exact hP
    · exact hbs c hc
termination_by n - as.length
decreasing_by
  rw [List.length_append, List.length_singleton] at hlength ⊢
  omega

end TransitionSystem
