import Mathlib.Data.List.Range
import Mathlib.Data.List.TakeWhile

/-!
# Onions

A list of layers around a core. A layer performs its first effect on a payload, decides with it
whether to enter what is inside, and performs its second effect afterwards; it may catch what the
inside throws. `nest` is the evaluation as nested calls, each layer inside the one before it.

`run` says the same without nesting. It goes down the list once, turns around, and then leaves the
layers that were entered, innermost first:

* `descend`: the first effects, up to the first layer that does not go on or throws;
* `Descent.turn`: the core, if every layer went on;
* `unwind`: the second effects.

`run` keeps a record of the effects it performs, each with the payload it is given and the one it
leaves (`Step`). `nest_eq_ending_run` is the agreement, and `nest_recordLayers` says that the record
is what the nested calls write down when every effect writes itself down. The rest of the file reads
the record: effects are chained (`linked_trace`), the first ones go down in order
(`effects_descend`), and the second ones go up as `Unwinds` says, in particular past the layers that
do not catch an exception and on from the innermost one that does.
-/

namespace Onion

universe u v w z

variable {σ : Type u} {ε : Type v} {ω : Type w} {β : Type z}

/-! ### Layers -/

/-- What a layer does once its first effect is over. -/
structure Plan (σ : Type u) (ε : Type v) where
  /-- Whether the layer enters what is inside. -/
  callsNext : Bool
  /-- Which exceptions of the inside it catches. -/
  catches : ε → Bool
  /-- The second effect, which is told the exception caught. -/
  after : Option ε → σ → Except ε Unit × σ

/-- A layer: its first effect, which settles the rest. -/
abbrev Layer (σ : Type u) (ε : Type v) := σ → Except ε (Plan σ ε) × σ

/-- How an evaluation ends, and what it leaves in the payload and in the world of the core. -/
structure Ending (σ : Type u) (ε : Type v) (ω : Type w) (β : Type z) where
  /-- The value returned, or the exception. -/
  result : Except ε β
  /-- The payload. -/
  payload : σ
  /-- The world, which only the core touches. -/
  world : ω

/-- Whether an evaluation throws, and what. -/
def Ending.outcome (e : Ending σ ε ω β) : Except ε Unit :=
  e.result.map fun _ ↦ ()

theorem Ending.outcome_eq_error {e : Ending σ ε ω β} {x : ε} :
    e.outcome = .error x ↔ e.result = .error x := by
  rcases e with ⟨y | b, a, w⟩
  · exact ⟨fun h ↦ congrArg _ (Except.error.inj h), fun h ↦ congrArg _ (Except.error.inj h)⟩
  · exact ⟨fun h ↦ absurd h (by simp [outcome, Except.map]), fun h ↦ absurd h (by simp)⟩

/-- The exception that a layer is told it caught. -/
def caught : Except ε Unit → Option ε
  | .ok () => none
  | .error x => some x

namespace Plan

/-- Perform the second effect; the value is kept unless it throws. -/
def finish (plan : Plan σ ε) (exn : Option ε) (b : β) (e : Ending σ ε ω β) : Ending σ ε ω β :=
  ⟨(plan.after exn e.payload).1.map fun _ ↦ b, (plan.after exn e.payload).2, e.world⟩

/-- Leave a layer. After a caught exception the value is the default one. -/
def leave (b₀ : β) (plan : Plan σ ε) (e : Ending σ ε ω β) : Ending σ ε ω β :=
  match e.result with
  | .ok b => plan.finish none b e
  | .error x => if plan.catches x then plan.finish (some x) b₀ e else e

/-- Whether the second effect is performed when the layer is left. -/
def performs (plan : Plan σ ε) : Except ε Unit → Bool
  | .ok () => true
  | .error x => plan.catches x

@[simp] theorem outcome_finish (plan : Plan σ ε) (exn : Option ε) (b : β)
    (e : Ending σ ε ω β) : (plan.finish exn b e).outcome = (plan.after exn e.payload).1 := by
  rw [Ending.outcome, finish]
  rcases (plan.after exn e.payload).1 with x | ⟨⟩
  · rfl
  · rfl

end Plan

section Evaluation

variable (core : σ → ω → Ending σ ε ω β) (b₀ : β)

/-- The evaluation as nested calls. -/
def nest : List (Layer σ ε) → σ → ω → Ending σ ε ω β
  | [], a, w => core a w
  | layer :: rest, a, w =>
    match layer a with
    | (.error x, a) => ⟨.error x, a, w⟩
    | (.ok plan, a) =>
      plan.leave b₀ (if plan.callsNext then nest rest a w else ⟨.ok b₀, a, w⟩)

/-! ### The same without nesting -/

/-- An effect, by the layer that performs it. -/
inductive Effect
  /-- The first effect of a layer. -/
  | before (i : ℕ)
  /-- The core. -/
  | core
  /-- The second effect of a layer. -/
  | after (i : ℕ)
  deriving DecidableEq

/-- An effect that was performed. -/
structure Step (σ : Type u) (ε : Type v) where
  /-- Which effect. -/
  effect : Effect
  /-- The payload it was given. -/
  given : σ
  /-- Whether it threw, and what. -/
  result : Except ε Unit
  /-- The payload it left. -/
  left : σ

/-- Where the way down ends. -/
inductive Stop (ε : Type v)
  /-- Every layer went on. -/
  | reachedCore
  /-- A layer did not go on. -/
  | declined
  /-- A first effect threw. -/
  | threw (x : ε)

/-- The way down. -/
structure Descent (σ : Type u) (ε : Type v) where
  /-- The first effects. -/
  steps : List (Step σ ε)
  /-- The layers to be left, outermost first. -/
  plans : List (Plan σ ε)
  /-- Where it ended. -/
  stop : Stop ε
  /-- The payload there. -/
  payload : σ

/-- The first effects, from the layer of index `i` on. -/
def descend : List (Layer σ ε) → σ → ℕ → Descent σ ε
  | [], a, _ => ⟨[], [], .reachedCore, a⟩
  | layer :: rest, a, i =>
    match layer a with
    | (.error x, a') => ⟨[⟨.before i, a, .error x, a'⟩], [], .threw x, a'⟩
    | (.ok plan, a') =>
      if plan.callsNext then
        let d := descend rest a' (i + 1)
        { d with steps := ⟨.before i, a, .ok (), a'⟩ :: d.steps, plans := plan :: d.plans }
      else ⟨[⟨.before i, a, .ok (), a'⟩], [plan], .declined, a'⟩

/-- How the turn ends: the core, if it is reached. -/
def Descent.turn (d : Descent σ ε) (w : ω) : Ending σ ε ω β :=
  match d.stop with
  | .reachedCore => core d.payload w
  | .declined => ⟨.ok b₀, d.payload, w⟩
  | .threw x => ⟨.error x, d.payload, w⟩

/-- The record of the turn. -/
def Descent.turnSteps (d : Descent σ ε) (w : ω) : List (Step σ ε) :=
  match d.stop with
  | .reachedCore =>
    let e := core d.payload w
    [⟨.core, d.payload, e.outcome, e.payload⟩]
  | .declined => []
  | .threw _ => []

/-- Leave a stack of layers, innermost first. -/
def unwind : List (Plan σ ε) → Ending σ ε ω β → List (Step σ ε) × Ending σ ε ω β
  | [], e => ([], e)
  | plan :: outer, e =>
    let e' := plan.leave b₀ e
    let (steps, final) := unwind outer e'
    if plan.performs e.outcome then
      (⟨.after outer.length, e.payload, e'.outcome, e'.payload⟩ :: steps, final)
    else (steps, final)

/-- A whole evaluation: the record of its effects, and how it ends. -/
structure Run (σ : Type u) (ε : Type v) (ω : Type w) (β : Type z) where
  /-- The way down. -/
  descent : Descent σ ε
  /-- The core, if it was reached. -/
  turned : List (Step σ ε)
  /-- How the turn ended. -/
  turnEnding : Ending σ ε ω β
  /-- The second effects. -/
  unwound : List (Step σ ε)
  /-- How it ends. -/
  ending : Ending σ ε ω β

/-- Down, around and up. -/
def run (layers : List (Layer σ ε)) (a : σ) (w : ω) : Run σ ε ω β :=
  let d := descend layers a 0
  let e := d.turn core b₀ w
  ⟨d, d.turnSteps core w, e, (unwind b₀ d.plans.reverse e).1, (unwind b₀ d.plans.reverse e).2⟩

/-- All effects, in the order in which they are performed. -/
def Run.trace (r : Run σ ε ω β) : List (Step σ ε) :=
  r.descent.steps ++ r.turned ++ r.unwound

end Evaluation

/-! ### The agreement -/

section Agreement

variable {core : σ → ω → Ending σ ε ω β} {b₀ : β}

/-- The way down from a layer: its first effect throws, or it goes on, or it does not. -/
theorem descend_cases (layer : Layer σ ε) (rest : List (Layer σ ε)) (a : σ) (i : ℕ) :
    (∃ x a', layer a = (.error x, a') ∧
      descend (layer :: rest) a i = ⟨[⟨.before i, a, .error x, a'⟩], [], .threw x, a'⟩) ∨
    (∃ plan a', layer a = (.ok plan, a') ∧ plan.callsNext = true ∧
      descend (layer :: rest) a i =
        { descend rest a' (i + 1) with
          steps := ⟨.before i, a, .ok (), a'⟩ :: (descend rest a' (i + 1)).steps
          plans := plan :: (descend rest a' (i + 1)).plans }) ∨
    ∃ plan a', layer a = (.ok plan, a') ∧ plan.callsNext = false ∧
      descend (layer :: rest) a i = ⟨[⟨.before i, a, .ok (), a'⟩], [plan], .declined, a'⟩ := by
  rw [descend]
  rcases layer a with ⟨x | plan, a'⟩
  · exact Or.inl ⟨x, a', rfl, rfl⟩
  · rcases hcalls : plan.callsNext with - | -
    · exact Or.inr (Or.inr ⟨plan, a', rfl, hcalls, by simp [hcalls]⟩)
    · exact Or.inr (Or.inl ⟨plan, a', rfl, hcalls, by simp [hcalls]⟩)

theorem unwind_append (inner outer : List (Plan σ ε)) (e : Ending σ ε ω β) :
    (unwind b₀ (inner ++ outer) e).2 = (unwind b₀ outer (unwind b₀ inner e).2).2 := by
  induction inner generalizing e with
  | nil => rfl
  | cons plan inner ih =>
    simp only [List.cons_append, unwind, apply_ite Prod.snd, ite_self, ih]

theorem ending_unwind_singleton (plan : Plan σ ε) (e : Ending σ ε ω β) :
    (unwind b₀ [plan] e).2 = plan.leave b₀ e := by
  simp only [unwind, apply_ite Prod.snd, ite_self]

/-- The nested evaluation, from any layer on, is the turn unwound. -/
theorem nest_eq_unwind (layers : List (Layer σ ε)) (a : σ) (w : ω) (i : ℕ) :
    nest core b₀ layers a w =
      (unwind b₀ (descend layers a i).plans.reverse ((descend layers a i).turn core b₀ w)).2 := by
  induction layers generalizing a i with
  | nil => rfl
  | cons layer rest ih =>
    rcases descend_cases layer rest a i with ⟨x, a', hlayer, hd⟩ | ⟨plan, a', hlayer, hcalls, hd⟩ |
      ⟨plan, a', hlayer, hcalls, hd⟩
    · rw [nest, hd, hlayer]
      rfl
    · rw [nest, hd, hlayer]
      simp only [hcalls, if_true, List.reverse_cons, unwind_append, ending_unwind_singleton]
      rw [ih a' (i + 1)]
      rfl
    · rw [nest, hd, hlayer]
      simp only [hcalls]
      exact (ending_unwind_singleton plan _).symm

/-- **The agreement**: nested calls end as the evaluation without nesting does. -/
theorem nest_eq_ending_run (layers : List (Layer σ ε)) (a : σ) (w : ω) :
    nest core b₀ layers a w = (run core b₀ layers a w).ending :=
  nest_eq_unwind layers a w 0

end Agreement

/-! ### The record

The same nested calls with every effect writing itself down: what they write is the trace. -/

section Record

variable {core : σ → ω → Ending σ ε ω β} {b₀ : β}

/-- An ending with a log. -/
def Ending.record (e : Ending σ ε ω β) (log : List (Step σ ε)) :
    Ending (σ × List (Step σ ε)) ε ω β :=
  ⟨e.result, (e.payload, log), e.world⟩

/-- The core, writing itself down. -/
def recordCore (core : σ → ω → Ending σ ε ω β) (p : σ × List (Step σ ε)) (w : ω) :
    Ending (σ × List (Step σ ε)) ε ω β :=
  let e := core p.1 w
  e.record (p.2 ++ [⟨.core, p.1, e.outcome, e.payload⟩])

/-- A plan whose second effect writes itself down. -/
def Plan.record (i : ℕ) (plan : Plan σ ε) : Plan (σ × List (Step σ ε)) ε where
  callsNext := plan.callsNext
  catches := plan.catches
  after exn p :=
    let (r, a) := plan.after exn p.1
    (r, a, p.2 ++ [⟨.after i, p.1, r, a⟩])

@[simp] theorem Plan.callsNext_record (i : ℕ) (plan : Plan σ ε) :
    (plan.record i).callsNext = plan.callsNext := rfl

/-- A layer whose effects write themselves down. -/
def recordLayer (i : ℕ) (layer : Layer σ ε) : Layer (σ × List (Step σ ε)) ε := fun p ↦
  match layer p.1 with
  | (.error x, a) => (.error x, a, p.2 ++ [⟨.before i, p.1, .error x, a⟩])
  | (.ok plan, a) => (.ok (plan.record i), a, p.2 ++ [⟨.before i, p.1, .ok (), a⟩])

/-- Layers whose effects write themselves down, from the index `i` on. -/
def recordLayers : List (Layer σ ε) → ℕ → List (Layer (σ × List (Step σ ε)) ε)
  | [], _ => []
  | layer :: rest, i => recordLayer i layer :: recordLayers rest (i + 1)

/-- The plans of such layers. -/
def recordPlans : List (Plan σ ε) → ℕ → List (Plan (σ × List (Step σ ε)) ε)
  | [], _ => []
  | plan :: rest, i => plan.record i :: recordPlans rest (i + 1)

/-- The same, as a stack. -/
def recordStack : List (Plan σ ε) → List (Plan (σ × List (Step σ ε)) ε)
  | [] => []
  | plan :: outer => plan.record outer.length :: recordStack outer

theorem recordPlans_append (plans plans' : List (Plan σ ε)) (i : ℕ) :
    recordPlans (plans ++ plans') i =
      recordPlans plans i ++ recordPlans plans' (i + plans.length) := by
  induction plans generalizing i with
  | nil => rfl
  | cons plan plans ih =>
    rw [List.cons_append, recordPlans, ih, List.length_cons, ← Nat.add_right_comm]
    rfl

theorem reverse_recordPlans (plans : List (Plan σ ε)) :
    (recordPlans plans 0).reverse = recordStack plans.reverse := by
  induction plans using List.reverseRecOn with
  | nil => rfl
  | append_singleton plans plan ih =>
    rw [recordPlans_append, List.reverse_append, ih, List.reverse_append, Nat.zero_add]
    simp [recordPlans, recordStack]

/-- The way down writes down the first effects. -/
theorem descend_recordLayers (layers : List (Layer σ ε)) (a : σ) (log : List (Step σ ε))
    (i j : ℕ) :
    (descend (recordLayers layers i) (a, log) j).plans =
        recordPlans (descend layers a i).plans i ∧
      (descend (recordLayers layers i) (a, log) j).stop = (descend layers a i).stop ∧
      (descend (recordLayers layers i) (a, log) j).payload =
        ((descend layers a i).payload, log ++ (descend layers a i).steps) := by
  induction layers generalizing a log i j with
  | nil => exact ⟨rfl, rfl, by simp [recordLayers, descend]⟩
  | cons layer rest ih =>
    rw [recordLayers, descend, descend, recordLayer]
    rcases layer a with ⟨x | plan, a'⟩
    · exact ⟨rfl, rfl, rfl⟩
    · by_cases hcalls : plan.callsNext
      · obtain ⟨hplans, hstop, hpayload⟩ :=
          ih a' (log ++ [⟨.before i, a, .ok (), a'⟩]) (i + 1) (j + 1)
        simp only [Plan.callsNext_record, hcalls, if_true]
        refine ⟨?_, hstop, hpayload.trans ?_⟩
        · rw [hplans]
          rfl
        · rw [List.append_assoc]
          rfl
      · simp only [Plan.callsNext_record, hcalls]
        exact ⟨rfl, rfl, rfl⟩

/-- Leaving a layer writes down the second effect, where it is performed. -/
theorem Plan.leave_record (b₀ : β) (i : ℕ) (plan : Plan σ ε) (e : Ending σ ε ω β)
    (log : List (Step σ ε)) :
    (plan.record i).leave b₀ (e.record log) =
      (plan.leave b₀ e).record (log ++
        if plan.performs e.outcome then
          [⟨.after i, e.payload, (plan.leave b₀ e).outcome, (plan.leave b₀ e).payload⟩]
        else []) := by
  rcases e with ⟨x | b, a, w⟩
  · by_cases hcatches : plan.catches x = true
    · have hleave : plan.leave b₀ (⟨.error x, a, w⟩ : Ending σ ε ω β) =
          plan.finish (some x) b₀ ⟨.error x, a, w⟩ := if_pos hcatches
      have hperforms : plan.performs (⟨.error x, a, w⟩ : Ending σ ε ω β).outcome = true := hcatches
      rw [if_pos hperforms, hleave, outcome_finish]
      exact if_pos hcatches
    · have hleave : plan.leave b₀ (⟨.error x, a, w⟩ : Ending σ ε ω β) = ⟨.error x, a, w⟩ :=
        if_neg hcatches
      have hperforms : ¬ plan.performs (⟨.error x, a, w⟩ : Ending σ ε ω β).outcome = true :=
        hcatches
      rw [if_neg hperforms, hleave, List.append_nil]
      exact if_neg hcatches
  · have hleave : plan.leave b₀ (⟨.ok b, a, w⟩ : Ending σ ε ω β) =
        plan.finish none b ⟨.ok b, a, w⟩ := rfl
    have hperforms : plan.performs (⟨.ok b, a, w⟩ : Ending σ ε ω β).outcome = true := rfl
    rw [if_pos hperforms, hleave, outcome_finish]
    rfl

/-- The way up writes down the second effects. -/
theorem unwind_record (b₀ : β) (stack : List (Plan σ ε)) (e : Ending σ ε ω β)
    (log : List (Step σ ε)) :
    (unwind b₀ (recordStack stack) (e.record log)).2 =
      (unwind b₀ stack e).2.record (log ++ (unwind b₀ stack e).1) := by
  induction stack generalizing e log with
  | nil => simp [recordStack, unwind]
  | cons plan outer ih =>
    simp only [recordStack, unwind, apply_ite Prod.snd, ite_self, Plan.leave_record, ih]
    by_cases hperforms : plan.performs e.outcome = true
    · simp only [if_pos hperforms, List.append_assoc, List.singleton_append]
    · simp only [if_neg hperforms, List.append_nil]

/-- **The trace is what the nested calls write down** when every effect writes itself down, and
writing changes nothing else. -/
theorem nest_recordLayers (layers : List (Layer σ ε)) (a : σ) (w : ω) :
    nest (recordCore core) b₀ (recordLayers layers 0) (a, []) w =
      (run core b₀ layers a w).ending.record (run core b₀ layers a w).trace := by
  obtain ⟨hplans, hstop, hpayload⟩ := descend_recordLayers layers a [] 0 0
  have hturn : (descend (recordLayers layers 0) (a, []) 0).turn (recordCore core) b₀ w =
      ((descend layers a 0).turn core b₀ w).record
        ((descend layers a 0).steps ++ (descend layers a 0).turnSteps core w) := by
    simp only [Descent.turn, Descent.turnSteps, hstop, hpayload, List.nil_append]
    rcases (descend layers a 0).stop with - | - | x
    · rfl
    · rw [List.append_nil]
      rfl
    · rw [List.append_nil]
      rfl
  rw [nest_eq_unwind _ _ _ 0, hplans, reverse_recordPlans, hturn, unwind_record]
  rfl

end Record

/-! ### Every effect sees what the previous one left -/

/-- Each step is given what the one before it left, from the payload `a` to the payload `b`. -/
def Linked : σ → List (Step σ ε) → σ → Prop
  | a, [], b => a = b
  | a, step :: steps, b => step.given = a ∧ Linked step.left steps b

theorem Linked.append {a b c : σ} {steps steps' : List (Step σ ε)} (h : Linked a steps b)
    (h' : Linked b steps' c) : Linked a (steps ++ steps') c := by
  induction steps generalizing a with
  | nil =>
    obtain rfl : a = b := h
    exact h'
  | cons step steps ih => exact ⟨h.1, ih h.2⟩

theorem linked_descend (layers : List (Layer σ ε)) (a : σ) (i : ℕ) :
    Linked a (descend layers a i).steps (descend layers a i).payload := by
  induction layers generalizing a i with
  | nil => rfl
  | cons layer rest ih =>
    rcases descend_cases layer rest a i with ⟨x, a', -, hd⟩ | ⟨plan, a', -, -, hd⟩ |
      ⟨plan, a', -, -, hd⟩
    · rw [hd]
      exact ⟨rfl, rfl⟩
    · rw [hd]
      exact ⟨rfl, ih a' (i + 1)⟩
    · rw [hd]
      exact ⟨rfl, rfl⟩

/-- A layer that does not perform its second effect changes nothing. -/
theorem Plan.leave_of_not_performs {b₀ : β} {plan : Plan σ ε} {e : Ending σ ε ω β}
    (h : ¬ plan.performs e.outcome) : plan.leave b₀ e = e := by
  rcases e with ⟨x | b, a, w⟩
  · exact if_neg h
  · exact absurd rfl h

theorem linked_unwind (b₀ : β) (stack : List (Plan σ ε)) (e : Ending σ ε ω β) :
    Linked e.payload (unwind b₀ stack e).1 (unwind b₀ stack e).2.payload := by
  induction stack generalizing e with
  | nil => rfl
  | cons plan outer ih =>
    simp only [unwind]
    by_cases hperforms : plan.performs e.outcome
    · rw [if_pos hperforms]
      exact ⟨rfl, ih _⟩
    · rw [if_neg hperforms, Plan.leave_of_not_performs hperforms]
      exact ih e

/-- **Every effect sees what the previous one left**, and the evaluation leaves what the last one
left. -/
theorem linked_trace (core : σ → ω → Ending σ ε ω β) (b₀ : β) (layers : List (Layer σ ε)) (a : σ)
    (w : ω) :
    Linked a (run core b₀ layers a w).trace (run core b₀ layers a w).ending.payload := by
  have hturn : ∀ d : Descent σ ε, Linked d.payload (d.turnSteps core w)
      (d.turn core b₀ w).payload := by
    rintro ⟨steps, plans, - | - | x, b⟩
    · exact ⟨rfl, rfl⟩
    · rfl
    · rfl
  exact ((linked_descend layers a 0).append (hturn _)).append (linked_unwind b₀ _ _)

/-! ### The way down -/

/-- **The first effects go down in order.** -/
theorem effects_descend (layers : List (Layer σ ε)) (a : σ) (i : ℕ) :
    (descend layers a i).steps.map Step.effect =
      (List.range' i (descend layers a i).steps.length).map Effect.before := by
  induction layers generalizing a i with
  | nil => rfl
  | cons layer rest ih =>
    rcases descend_cases layer rest a i with ⟨x, a', -, hd⟩ | ⟨plan, a', -, -, hd⟩ |
      ⟨plan, a', -, -, hd⟩
    · rw [hd]
      rfl
    · rw [hd]
      simp only [List.map_cons, List.length_cons, List.range'_succ]
      rw [ih a' (i + 1)]
    · rw [hd]
      rfl

/-- A way down that ends with an exception has recorded it. -/
theorem exists_step_of_threw {layers : List (Layer σ ε)} {a : σ} {i : ℕ} {x : ε}
    (h : (descend layers a i).stop = .threw x) :
    ∃ step ∈ (descend layers a i).steps, step.result = .error x := by
  induction layers generalizing a i with
  | nil => exact absurd h (by simp [descend])
  | cons layer rest ih =>
    rcases descend_cases layer rest a i with ⟨y, a', -, hd⟩ | ⟨plan, a', -, -, hd⟩ |
      ⟨plan, a', -, -, hd⟩
    · rw [hd] at h ⊢
      obtain rfl := Stop.threw.inj h
      exact ⟨_, List.mem_cons_self, rfl⟩
    · rw [hd] at h ⊢
      obtain ⟨step, hstep, hresult⟩ := ih h
      exact ⟨step, List.mem_cons_of_mem _ hstep, hresult⟩
    · rw [hd] at h
      exact absurd h (by simp)

/-- How far the way down goes, by its end: past layers that all go on, to the core, to the first
that does not go on, or to the first that throws. -/
def Descent.Reaches (d : Descent σ ε) (n : ℕ) : Prop :=
  match d.stop with
  | .reachedCore => d.plans.map Plan.callsNext = List.replicate n true ∧ d.steps.length = n
  | .declined =>
    d.plans.map Plan.callsNext = List.replicate (d.steps.length - 1) true ++ [false] ∧
      0 < d.steps.length ∧ d.steps.length ≤ n
  | .threw _ =>
    d.plans.map Plan.callsNext = List.replicate (d.steps.length - 1) true ∧
      0 < d.steps.length ∧ d.steps.length ≤ n

/-- A layer that goes on takes the way down one layer further. -/
theorem Descent.Reaches.cons {d : Descent σ ε} {n : ℕ} (h : d.Reaches n) {plan : Plan σ ε}
    (hcalls : plan.callsNext = true) (step : Step σ ε) :
    Descent.Reaches { d with steps := step :: d.steps, plans := plan :: d.plans } (n + 1) := by
  -- on a way down that ends early the last layer stays the last
  have hlast : ∀ {plans : List Bool} {k : ℕ}, 0 < k → plans = List.replicate (k - 1) true →
      true :: plans = List.replicate k true := by
    rintro plans k hpos rfl
    rw [← List.replicate_succ, Nat.sub_add_cancel hpos]
  rcases d with ⟨steps, plans, - | - | x, b⟩
  · obtain ⟨hplans, hlen⟩ := h
    exact ⟨by simpa [hcalls, List.replicate_succ] using hplans, congrArg Nat.succ hlen⟩
  · obtain ⟨hplans, hpos, hle⟩ := h
    refine ⟨?_, Nat.succ_pos _, Nat.succ_le_succ hle⟩
    show plan.callsNext :: plans.map Plan.callsNext = List.replicate steps.length true ++ [false]
    rw [hcalls, ← hlast hpos rfl, List.cons_append]
    exact congrArg _ hplans
  · obtain ⟨hplans, hpos, hle⟩ := h
    refine ⟨?_, Nat.succ_pos _, Nat.succ_le_succ hle⟩
    show plan.callsNext :: plans.map Plan.callsNext = List.replicate steps.length true
    rw [hcalls]
    exact hlast hpos hplans

theorem reaches_descend (layers : List (Layer σ ε)) (a : σ) (i : ℕ) :
    (descend layers a i).Reaches layers.length := by
  induction layers generalizing a i with
  | nil => exact ⟨rfl, rfl⟩
  | cons layer rest ih =>
    rcases descend_cases layer rest a i with ⟨x, a', -, hd⟩ | ⟨plan, a', -, hcalls, hd⟩ |
      ⟨plan, a', -, hcalls, hd⟩
    · rw [hd]
      exact ⟨rfl, Nat.one_pos, Nat.succ_le_succ (Nat.zero_le _)⟩
    · rw [hd]
      exact (ih a' (i + 1)).cons hcalls _
    · rw [hd]
      exact ⟨by simp [hcalls], Nat.one_pos, Nat.succ_le_succ (Nat.zero_le _)⟩

/-! ### The way up -/

/-- The layers that are still to be left with a second effect: all of them after a normal return,
those from the innermost that catches it on after an exception. -/
def remaining (stack : List (Plan σ ε)) : Except ε Unit → List (Plan σ ε)
  | .ok () => stack
  | .error x => stack.dropWhile fun plan ↦ !plan.catches x

/-- The second effects of a stack of layers that is left with an outcome, and the outcome after
them. -/
inductive Unwinds : List (Plan σ ε) → Except ε Unit → List (Step σ ε) → Except ε Unit → Prop
  /-- No layer is left that performs its second effect. -/
  | done {stack : List (Plan σ ε)} {r : Except ε Unit} (h : remaining stack r = []) :
    Unwinds stack r [] r
  /-- The innermost such layer performs it, told what it caught. -/
  | after {stack : List (Plan σ ε)} {r : Except ε Unit} {plan : Plan σ ε}
    {outer : List (Plan σ ε)} {step : Step σ ε} {steps : List (Step σ ε)} {final : Except ε Unit}
    (h : remaining stack r = plan :: outer) (heffect : step.effect = .after outer.length)
    (hafter : plan.after (caught r) step.given = (step.result, step.left))
    (hrest : Unwinds outer step.result steps final) : Unwinds stack r (step :: steps) final

theorem remaining_of_performs {plan : Plan σ ε} {outer : List (Plan σ ε)} {r : Except ε Unit}
    (h : plan.performs r) : remaining (plan :: outer) r = plan :: outer := by
  rcases r with x | ⟨⟩
  · have hx : plan.catches x = true := h
    simp [remaining, hx]
  · rfl

theorem remaining_of_not_performs {plan : Plan σ ε} {outer : List (Plan σ ε)} {r : Except ε Unit}
    (h : ¬ plan.performs r) : remaining (plan :: outer) r = remaining outer r := by
  rcases r with x | ⟨⟩
  · have hx : plan.catches x = false := by simpa [Plan.performs] using h
    simp [remaining, hx]
  · exact absurd rfl h

/-- What is performed depends on the layers that are still to be left with a second effect. -/
theorem Unwinds.congr_remaining {stack stack' : List (Plan σ ε)} {r final : Except ε Unit}
    {steps : List (Step σ ε)} (h : Unwinds stack r steps final)
    (hstack : remaining stack' r = remaining stack r) : Unwinds stack' r steps final := by
  cases h with
  | done hdone => exact .done (hstack.trans hdone)
  | after hnext heffect hafter hrest => exact .after (hstack.trans hnext) heffect hafter hrest

/-- A layer that performs its second effect leaves what the effect leaves. -/
theorem Plan.leave_of_performs (b₀ : β) {plan : Plan σ ε} {e : Ending σ ε ω β}
    (h : plan.performs e.outcome) :
    plan.after (caught e.outcome) e.payload =
      ((plan.leave b₀ e).outcome, (plan.leave b₀ e).payload) := by
  rcases e with ⟨x | b, a, w⟩
  · have hleave : plan.leave b₀ (⟨.error x, a, w⟩ : Ending σ ε ω β) =
        plan.finish (some x) b₀ ⟨.error x, a, w⟩ := if_pos h
    rw [hleave, outcome_finish]
    rfl
  · have hleave : plan.leave b₀ (⟨.ok b, a, w⟩ : Ending σ ε ω β) =
        plan.finish none b ⟨.ok b, a, w⟩ := rfl
    rw [hleave, outcome_finish]
    rfl

/-- **The second effects go up**, past the layers that do not catch an exception. -/
theorem unwinds_unwind (b₀ : β) (stack : List (Plan σ ε)) (e : Ending σ ε ω β) :
    Unwinds stack e.outcome (unwind b₀ stack e).1 (unwind b₀ stack e).2.outcome := by
  induction stack generalizing e with
  | nil =>
    refine .done ?_
    rcases e.outcome with x | -
    · rfl
    · rfl
  | cons plan outer ih =>
    simp only [unwind]
    by_cases hperforms : plan.performs e.outcome
    · rw [if_pos hperforms]
      exact .after (remaining_of_performs hperforms) rfl (Plan.leave_of_performs b₀ hperforms)
        (ih _)
    · rw [if_neg hperforms, Plan.leave_of_not_performs hperforms]
      exact (ih e).congr_remaining (remaining_of_not_performs hperforms)

/-- The second effects of an evaluation. -/
theorem unwinds_run (core : σ → ω → Ending σ ε ω β) (b₀ : β) (layers : List (Layer σ ε)) (a : σ)
    (w : ω) :
    Unwinds (run core b₀ layers a w).descent.plans.reverse
      (run core b₀ layers a w).turnEnding.outcome (run core b₀ layers a w).unwound
      (run core b₀ layers a w).ending.outcome :=
  unwinds_unwind b₀ _ _

/-- **In reverse order**: when nothing throws, every layer of the stack performs its second effect,
innermost first. -/
theorem Unwinds.effects {stack : List (Plan σ ε)} {r final : Except ε Unit}
    {steps : List (Step σ ε)} (h : Unwinds stack r steps final) (hr : r = .ok ())
    (hsteps : ∀ step ∈ steps, step.result = .ok ()) :
    steps.map Step.effect = (List.range stack.length).reverse.map Effect.after := by
  induction h with
  | done hdone =>
    subst hr
    obtain rfl : _ = [] := hdone
    rfl
  | after hnext heffect hafter hrest ih =>
    subst hr
    obtain rfl : _ = _ :: _ := hnext
    have hrest := ih (hsteps _ List.mem_cons_self)
      (fun step hstep ↦ hsteps step (List.mem_cons_of_mem _ hstep))
    rw [List.map_cons, heffect, hrest, List.length_cons, List.range_succ, List.reverse_append]
    rfl

/-- **Down, around and up, in order**, when nothing throws: the layers that were entered perform
their second effects in reverse. -/
theorem effects_unwound {core : σ → ω → Ending σ ε ω β} {b₀ : β} {layers : List (Layer σ ε)}
    {a : σ} {w : ω} (h : ∀ step ∈ (run core b₀ layers a w).trace, step.result = .ok ()) :
    (run core b₀ layers a w).unwound.map Step.effect =
      (List.range (run core b₀ layers a w).descent.plans.length).reverse.map Effect.after := by
  obtain ⟨hdown, hunwound⟩ := List.forall_mem_append.1 h
  obtain ⟨hsteps, hturned⟩ := List.forall_mem_append.1 hdown
  have hturn : (run core b₀ layers a w).turnEnding.outcome = .ok () := by
    simp only [run, Descent.turn, Descent.turnSteps] at hsteps hturned ⊢
    rcases hstop : (descend layers a 0).stop with - | - | x
    · rw [hstop] at hturned
      exact hturned _ List.mem_cons_self
    · rfl
    · obtain ⟨step, hmem, hresult⟩ := exists_step_of_threw hstop
      exact absurd (hresult.symm.trans (hsteps step hmem)) (by simp)
  rw [← List.length_reverse]
  exact (unwinds_run core b₀ layers a w).effects hturn hunwound

/-- A layer that goes on and does nothing. -/
private def through : Layer ℕ ℕ := fun a ↦ (.ok ⟨true, fun _ ↦ false, fun _ a ↦ (.ok (), a)⟩, a)

/-- A core that does nothing. -/
private def idle (a w : ℕ) : Ending ℕ ℕ ℕ Bool := ⟨.ok true, a, w⟩

example : (run idle false [through, through] 0 0).trace.map Step.effect =
    [.before 0, .before 1, .core, .after 1, .after 0] := rfl

/-- **Nobody catches**: no second effect is performed, and the exception goes on. -/
theorem Unwinds.of_not_catches {stack : List (Plan σ ε)} {x : ε} {final : Except ε Unit}
    {steps : List (Step σ ε)} (h : Unwinds stack (.error x) steps final)
    (hstack : ∀ plan ∈ stack, plan.catches x = false) : steps = [] ∧ final = .error x := by
  have hnil : remaining stack (.error x) = [] :=
    List.dropWhile_eq_nil_iff.2 fun plan hplan ↦ by simp [hstack plan hplan]
  cases h with
  | done hdone => exact ⟨rfl, rfl⟩
  | after hnext heffect hafter hrest => exact absurd (hnil.symm.trans hnext) (by simp)

/-- **The innermost layer that catches goes on**: the layers inside it are skipped, and it and the
layers outside it are left as they are after a normal return. -/
theorem Unwinds.of_catches {inner outer : List (Plan σ ε)} {plan : Plan σ ε} {x : ε}
    {final : Except ε Unit} {steps : List (Step σ ε)}
    (h : Unwinds (inner ++ plan :: outer) (.error x) steps final)
    (hinner : ∀ p ∈ inner, p.catches x = false) (hplan : plan.catches x = true) :
    ∃ step rest, steps = step :: rest ∧ step.effect = .after outer.length ∧
      plan.after (some x) step.given = (step.result, step.left) ∧
      Unwinds outer step.result rest final := by
  have hrem : remaining (inner ++ plan :: outer) (.error x) = plan :: outer := by
    show (inner ++ plan :: outer).dropWhile _ = _
    rw [List.dropWhile_append_of_pos (fun p hp ↦ by simp [hinner p hp]), List.dropWhile_cons_of_neg]
    simp [hplan]
  cases h with
  | done hdone => exact absurd (hrem.symm.trans hdone) (by simp)
  | after hnext heffect hafter hrest =>
    obtain ⟨rfl, rfl⟩ := List.cons.inj (hrem.symm.trans hnext)
    exact ⟨_, _, rfl, heffect, hafter, hrest⟩

/-- When nothing else throws, exactly these layers perform their second effects, innermost
first. -/
theorem Unwinds.effects_of_catches {inner outer : List (Plan σ ε)} {plan : Plan σ ε} {x : ε}
    {final : Except ε Unit} {steps : List (Step σ ε)}
    (h : Unwinds (inner ++ plan :: outer) (.error x) steps final)
    (hinner : ∀ p ∈ inner, p.catches x = false) (hplan : plan.catches x = true)
    (hsteps : ∀ step ∈ steps, step.result = .ok ()) :
    steps.map Step.effect = (List.range (outer.length + 1)).reverse.map Effect.after := by
  obtain ⟨step, rest, rfl, heffect, -, hrest⟩ := h.of_catches hinner hplan
  have hrest := hrest.effects (hsteps _ List.mem_cons_self)
    (fun s hs ↦ hsteps s (List.mem_cons_of_mem _ hs))
  rw [List.map_cons, heffect, hrest, List.range_succ, List.reverse_append]
  rfl

end Onion
