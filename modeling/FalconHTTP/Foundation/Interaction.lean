import Mathlib.Data.List.Basic

/-!
# Interaction programs

An arbitrary program that reaches its surroundings only by calling operations is a tree: it is
finished with a value, or it calls an operation and goes on with whatever the call answers.
`Interaction Op Res α` is that tree, over operations `Op` whose answers have type `Res op`.
Quantifying over trees quantifies over every such program, whatever it computes between its calls.

`run h p s` plays a program against a handler `h` that keeps a state. `calls h p s` lists the calls
the run makes, each with the state it was made in.

The rules, one for each kind of fact a client states:

* `run_invariant`: what every call preserves, the run preserves; `CallsOnly.run_invariant` asks this
  of the operations the program is known to use only;
* `exists_rest`: what a run does after one of its calls is the run of a program;
* `Ensures.run`: a program that guarantees `G` as long as its calls answer within `A` ends in `G`
  under every handler that answers within `A`;
* `run_simulation`: handlers that answer alike, on states that stay related, are not told apart;
  `CallsOnly.run_congr`: nor are handlers that do the same on the operations the program is known to
  use only.
-/

universe u v w

/-- Programs that call operations of `Op`, answered in `Res`, and finish with a value of `α`. -/
inductive Interaction (Op : Type u) (Res : Op → Type v) (α : Type w)
  /-- The program is finished. -/
  | done (a : α)
  /-- The program calls `op` and goes on with the answer. -/
  | call (op : Op) (next : Res op → Interaction Op Res α)

namespace Interaction

variable {Op : Type u} {Res : Op → Type v} {α : Type w} {σ β : Type*}

/-- Run a program against a handler with state. -/
def run (h : (op : Op) → σ → Res op × σ) : Interaction Op Res α → σ → α × σ
  | done a, s => (a, s)
  | call op next, s => run h (next (h op s).1) (h op s).2

/-- The calls a run makes, each with the state it was made in. -/
def calls (h : (op : Op) → σ → Res op × σ) : Interaction Op Res α → σ → List (Op × σ)
  | done _, _ => []
  | call op next, s => (op, s) :: calls h (next (h op s).1) (h op s).2

/-- Every call the program can make satisfies `C`, whatever its calls answer. -/
def CallsOnly (C : Op → Prop) : Interaction Op Res α → Prop
  | done _ => True
  | call op next => C op ∧ ∀ r, (next r).CallsOnly C

/-- As long as the calls answer within `A`, the program finishes within `G`. -/
def Ensures (A : (op : Op) → Res op → Prop) (G : α → Prop) : Interaction Op Res α → Prop
  | done a => G a
  | call op next => ∀ r, A op r → (next r).Ensures A G

variable {h : (op : Op) → σ → Res op × σ} {p : Interaction Op Res α} {s : σ}

@[simp] theorem run_done (a : α) : run h (done a : Interaction Op Res α) s = (a, s) := rfl

@[simp] theorem run_call (op : Op) (next : Res op → Interaction Op Res α) :
    run h (call op next) s = run h (next (h op s).1) (h op s).2 := rfl

@[simp] theorem calls_done (a : α) : calls h (done a : Interaction Op Res α) s = [] := rfl

@[simp] theorem calls_call (op : Op) (next : Res op → Interaction Op Res α) :
    calls h (call op next) s = (op, s) :: calls h (next (h op s).1) (h op s).2 := rfl

/-- **The frame rule**: what every allowed call preserves, the run preserves. -/
theorem CallsOnly.run_invariant {C : Op → Prop} {I : σ → Prop} (hp : p.CallsOnly C)
    (hcall : ∀ op s, C op → I s → I (h op s).2) (hs : I s) : I (p.run h s).2 := by
  induction p generalizing s with
  | done a => exact hs
  | call op next ih => exact ih _ (hp.2 _) (hcall op s hp.1 hs)

/-- Every program is within the trivial allowance. -/
theorem callsOnly_true (p : Interaction Op Res α) : p.CallsOnly fun _ ↦ True := by
  induction p with
  | done a => trivial
  | call op next ih => exact ⟨trivial, ih⟩

/-- **The congruence rule**: handlers that do the same on the allowed calls are not told apart. -/
theorem CallsOnly.run_congr {C : Op → Prop} {h' : (op : Op) → σ → Res op × σ} (hp : p.CallsOnly C)
    (hcall : ∀ op s, C op → h op s = h' op s) (s : σ) : p.run h s = p.run h' s := by
  induction p generalizing s with
  | done a => rfl
  | call op next ih =>
    rw [run_call, run_call, hcall op s hp.1]
    exact ih _ (hp.2 _) _

/-- **The invariant rule**: what every call preserves, the run preserves. -/
theorem run_invariant {I : σ → Prop} (hcall : ∀ op s, I s → I (h op s).2) (hs : I s) :
    I (p.run h s).2 :=
  (callsOnly_true p).run_invariant (fun op s _ ↦ hcall op s) hs

/-- What every call preserves holds in the state of every call. -/
theorem calls_invariant {I : σ → Prop} (hcall : ∀ op s, I s → I (h op s).2) (hs : I s) :
    ∀ c ∈ p.calls h s, I c.2 := by
  induction p generalizing s with
  | done a => exact fun c hc ↦ absurd hc List.not_mem_nil
  | call op next ih =>
    exact List.forall_mem_cons.2 ⟨hs, ih (h op s).1 (hcall op s hs)⟩

/-- **The suffix rule**: after one of its calls, a program is a program. -/
theorem exists_rest {c : Op × σ} {before after : List (Op × σ)}
    (hcalls : p.calls h s = before ++ c :: after) :
    ∃ q : Interaction Op Res α, q.calls h (h c.1 c.2).2 = after ∧
      q.run h (h c.1 c.2).2 = p.run h s := by
  induction p generalizing s before with
  | done a => exact absurd hcalls (by simp)
  | call op next ih =>
    rw [calls_call] at hcalls
    cases before with
    | nil =>
      obtain ⟨rfl, hafter⟩ := List.cons.inj hcalls
      exact ⟨next (h op s).1, hafter, rfl⟩
    | cons d before => exact ih _ (List.cons.inj hcalls).2

/-- **The assume-guarantee rule**: under a handler that answers within `A`, the run ends in `G`. -/
theorem Ensures.run {A : (op : Op) → Res op → Prop} {G : α → Prop} (hp : p.Ensures A G)
    (hA : ∀ op s, A op (h op s).1) : G (p.run h s).1 := by
  induction p generalizing s with
  | done a => exact hp
  | call op next ih => exact ih _ (hp _ (hA op s))

/-- A weaker guarantee. -/
theorem Ensures.mono {A : (op : Op) → Res op → Prop} {G G' : α → Prop} (hp : p.Ensures A G)
    (hG : ∀ a, G a → G' a) : p.Ensures A G' := by
  induction p with
  | done a => exact hG a hp
  | call op next ih => exact fun r hr ↦ ih r (hp r hr)

/-- Every program guarantees what always holds. -/
theorem ensures_of_forall {A : (op : Op) → Res op → Prop} {G : α → Prop} (hG : ∀ a, G a)
    (p : Interaction Op Res α) : p.Ensures A G := by
  induction p with
  | done a => exact hG a
  | call op next ih => exact fun r _ ↦ ih r

/-- **The simulation rule**: under two handlers whose calls answer alike in related states, and keep
them related, a program ends alike. -/
theorem run_simulation {σ' : Type*} {h' : (op : Op) → σ' → Res op × σ'} (Rel : σ → σ' → Prop)
    (hcall : ∀ op s s', Rel s s' → (h op s).1 = (h' op s').1 ∧ Rel (h op s).2 (h' op s').2)
    {s' : σ'} (hs : Rel s s') :
    (p.run h s).1 = (p.run h' s').1 ∧ Rel (p.run h s).2 (p.run h' s').2 := by
  induction p generalizing s s' with
  | done a => exact ⟨rfl, hs⟩
  | call op next ih =>
    obtain ⟨hanswer, hrel⟩ := hcall op s s' hs
    rw [run_call, run_call, ← hanswer]
    exact ih _ hrel

end Interaction
