import FalconHTTP.Foundation.Onion
import FalconHTTP.Middleware.Recovery

/-!
# Onion order

A middleware of the onion model performs a first effect on the request and the response, then calls
`next` at most once, on the same request and response, and then performs a second effect; it may
catch around `next`. Such a middleware is a layer of `Onion`, around the end of the chain
(`OnionMiddleware`), and `onionMiddleware` is the program it stands for.

A chain of these is the nested evaluation of the layers (`ending_runChain`), and so the library's
evaluation without nesting describes it: `OnionOrder` says in which order the effects are performed,
what each of them sees, and what an exception skips. `recovery` is one of them.
-/

namespace FalconHTTP

open Onion

variable {M : Type} [FiniteMap M Bytes Bytes]

/-- A middleware of the onion model. -/
abbrev OnionMiddleware (M : Type) [FiniteMap M Bytes Bytes] :=
  Layer (HttpRequest M × HttpResponse M) Exn

/-- The program of such a middleware. -/
def onionMiddleware (layer : OnionMiddleware M) : MiddlewareFn M := fun request response ↦
  match layer (request, response) with
  | (.error e, left) => .done (.error e, left)
  | (.ok plan, left) =>
    if plan.callsNext then
      .call left fun r ↦
        match r with
        | (.ok (), left) => .done (plan.after none left)
        | (.error e, left) =>
          -- the `catch` clauses around `next`; without a match the exception goes on
          if plan.catches e then .done (plan.after (some e) left) else .done (.error e, left)
    else .done (plan.after none left)

/-- `recovery` as a layer: it always goes on, catches everything, and acts only on what it
caught. -/
def recoveryLayer : OnionMiddleware M := fun left ↦
  (.ok
    { callsNext := true
      catches := fun _ ↦ true
      after := fun caught left ↦
        match caught with
        | none => (.ok (), left)
        | some _ =>
          (.ok (), left.1, (left.2.setStatus .internalServerError).setBody
            (ascii "Internal Server Error")) },
   left)

theorem onionMiddleware_recoveryLayer : onionMiddleware recoveryLayer = recovery (M := M) := by
  funext request response
  rw [onionMiddleware, recovery]
  refine congrArg (Interaction.call (request, response)) (funext fun r ↦ ?_)
  rcases r with ⟨e | ⟨⟩, request', response'⟩
  · rfl
  · rfl

/-- How a chain ends, as the end of an evaluation. -/
def ChainEnd.ending (e : ChainEnd M) :
    Ending (HttpRequest M × HttpResponse M) Exn ChainState Bool :=
  ⟨e.result, (e.request, e.response), e.state⟩

namespace Server

variable (server : Server M)

/-- The end of the chain as the core of an onion. -/
def onionCore (left : HttpRequest M × HttpResponse M) (s : ChainState) :
    Ending (HttpRequest M × HttpResponse M) Exn ChainState Bool :=
  (server.endOfChain left.1 left.2 s).ending

/-- **A chain of onion middlewares is the nested evaluation of its layers.** -/
theorem ending_runChain (layers : List (OnionMiddleware M)) (request : HttpRequest M)
    (response : HttpResponse M) (s : ChainState) :
    (server.runChain (layers.map onionMiddleware) request response s).ending =
      nest server.onionCore false layers (request, response) s := by
  induction layers generalizing request response s with
  | nil => rfl
  | cons layer rest ih =>
    rw [List.map_cons, runChain, nest, onionMiddleware]
    rcases layer (request, response) with ⟨e | plan, left⟩
    · rfl
    by_cases hcalls : plan.callsNext
    · simp only [if_pos hcalls, ← ih left.1 left.2 s, Interaction.run_call, nextCall]
      generalize server.runChain (rest.map onionMiddleware) left.1 left.2 s = inner
      rcases inner with ⟨e | streamed, request', response', s'⟩
      · by_cases hcatches : plan.catches e
        · simp only [if_pos hcatches, Interaction.run_done, ChainEnd.ending, Plan.leave,
            Plan.finish]
          rcases plan.after (some e) (request', response') with ⟨x | ⟨⟩, left'⟩
          · rfl
          · rfl
        · simp only [if_neg hcatches, Interaction.run_done, ChainEnd.ending, Plan.leave]
      · simp only [Interaction.run_done, ChainEnd.ending, Plan.leave, Plan.finish]
        rcases plan.after none (request', response') with ⟨x | ⟨⟩, left'⟩
        · rfl
        · rfl
    · simp only [if_neg hcalls, Interaction.run_done, ChainEnd.ending, Plan.leave, Plan.finish]
      rcases plan.after none left with ⟨x | ⟨⟩, left'⟩
      · rfl
      · rfl

/-- The effects of a chain of onion middlewares, as its evaluation without nesting records them. -/
abbrev onionRun (layers : List (OnionMiddleware M)) (request : HttpRequest M)
    (response : HttpResponse M) (s : ChainState) :
    Run (HttpRequest M × HttpResponse M) Exn ChainState Bool :=
  run server.onionCore false layers (request, response) s

/-- The order of a chain of onion middlewares. -/
structure OnionOrder (layers : List (OnionMiddleware M)) (request : HttpRequest M)
    (response : HttpResponse M) (s : ChainState) : Prop where
  /-- The chain ends as the recorded evaluation does: with the same value or exception, request,
  response and state. -/
  ending_eq : (server.runChain (layers.map onionMiddleware) request response s).ending =
    (server.onionRun layers request response s).ending
  /-- The effects are the ones that the nested calls perform: what they write down when every effect
  writes itself down. -/
  recorded : nest (recordCore server.onionCore) false (recordLayers layers 0)
      ((request, response), []) s =
    (server.onionRun layers request response s).ending.record
      (server.onionRun layers request response s).trace
  /-- Every effect sees the request and the response as the previous one left them. -/
  linked : Linked (request, response) (server.onionRun layers request response s).trace
    (server.onionRun layers request response s).ending.payload
  /-- The first effects are performed in registration order. -/
  first_effects : (server.onionRun layers request response s).descent.steps.map Step.effect =
    (List.range (server.onionRun layers request response s).descent.steps.length).map Effect.before
  /-- They end with the first middleware that does not call `next`, with the first that throws, or
  with the last of all. -/
  reaches : (server.onionRun layers request response s).descent.Reaches layers.length
  /-- The end of the chain is run exactly when every middleware calls `next`. -/
  core_iff : (server.onionRun layers request response s).turned.map Step.effect = [.core] ∧
      (server.onionRun layers request response s).descent.stop = .reachedCore ∨
    (server.onionRun layers request response s).turned = [] ∧
      (server.onionRun layers request response s).descent.stop ≠ .reachedCore
  /-- The second effects are performed from the innermost middleware on; after an exception, from
  the innermost one that catches it. -/
  second_effects : Unwinds (server.onionRun layers request response s).descent.plans.reverse
    (server.onionRun layers request response s).turnEnding.outcome
    (server.onionRun layers request response s).unwound
    (server.onionRun layers request response s).ending.outcome
  /-- When nothing throws they are performed by every middleware that was entered, in reverse. -/
  reverse_order : (∀ step ∈ (server.onionRun layers request response s).trace,
      step.result = .ok ()) →
    (server.onionRun layers request response s).unwound.map Step.effect =
      (List.range (server.onionRun layers request response s).descent.plans.length).reverse.map
        Effect.after
  /-- When nobody catches what the way down or the end of the chain throws, none is performed, and
  the exception leaves the chain. -/
  uncaught : ∀ e, (server.onionRun layers request response s).turnEnding.outcome = .error e →
    (∀ plan ∈ (server.onionRun layers request response s).descent.plans,
      plan.catches e = false) →
    (server.onionRun layers request response s).unwound = [] ∧
      (server.runChain (layers.map onionMiddleware) request response s).result = .error e
  /-- When one does, the middlewares inside the innermost one that does are skipped; it and those
  outside it perform theirs in reverse. -/
  caught : ∀ e inner plan outer,
    (server.onionRun layers request response s).turnEnding.outcome = .error e →
    (server.onionRun layers request response s).descent.plans.reverse = inner ++ plan :: outer →
    (∀ p ∈ inner, p.catches e = false) → plan.catches e = true →
    (∀ step ∈ (server.onionRun layers request response s).unwound, step.result = .ok ()) →
    (server.onionRun layers request response s).unwound.map Step.effect =
      (List.range (outer.length + 1)).reverse.map Effect.after

/-- **Onion order**, for every chain of onion middlewares. -/
theorem runChain_onionOrder (layers : List (OnionMiddleware M)) (request : HttpRequest M)
    (response : HttpResponse M) (s : ChainState) :
    server.OnionOrder layers request response s where
  ending_eq := (server.ending_runChain layers request response s).trans
    (nest_eq_ending_run layers (request, response) s)
  recorded := nest_recordLayers layers (request, response) s
  linked := linked_trace server.onionCore false layers (request, response) s
  first_effects := by
    rw [List.range_eq_range']
    exact effects_descend layers (request, response) 0
  reaches := reaches_descend layers (request, response) 0
  core_iff := by
    simp only [run, Descent.turnSteps]
    rcases (descend layers (request, response) 0).stop with - | - | e
    · exact Or.inl ⟨rfl, rfl⟩
    · exact Or.inr ⟨rfl, by simp⟩
    · exact Or.inr ⟨rfl, by simp⟩
  second_effects := unwinds_run server.onionCore false layers (request, response) s
  reverse_order := effects_unwound
  uncaught e hturn hplans := by
    have hunwinds := unwinds_run server.onionCore false layers (request, response) s
    rw [hturn] at hunwinds
    obtain ⟨hnil, hfinal⟩ := hunwinds.of_not_catches
      fun plan hplan ↦ hplans plan (List.mem_reverse.1 hplan)
    have hending := congrArg Ending.result ((server.ending_runChain layers request response s).trans
      (nest_eq_ending_run layers (request, response) s))
    exact ⟨hnil, hending.trans (Ending.outcome_eq_error.1 hfinal)⟩
  caught e inner plan outer hturn hstack hinner hplan hsteps := by
    have hunwinds := unwinds_run server.onionCore false layers (request, response) s
    rw [hturn, hstack] at hunwinds
    exact hunwinds.effects_of_catches hinner hplan hsteps

end Server

end FalconHTTP
