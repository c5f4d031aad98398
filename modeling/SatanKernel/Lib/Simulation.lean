import Mathlib.Tactic.Common

/-!
# Labelled steps, traces and refinement

A system is a step relation whose steps carry labels: what can be observed of a step.
A trace is a sequence of steps.  One system refines another one if a view of its states
turns each of its steps into a step with the same label; this carries over to traces.
-/

namespace Lib

variable {σ τ Label : Type*}

/-- A relation between the states before and after a step with a label. -/
abbrev Steps (σ Label : Type*) := σ → Label → σ → Prop

/-- A sequence of steps, with the labels that it shows. -/
inductive Trace (steps : Steps σ Label) : σ → List Label → σ → Prop where
  | nil (state : σ) : Trace steps state [] state
  | cons {state middle after : σ} {label : Label} {labels : List Label}
      (first : steps state label middle) (rest : Trace steps middle labels after) :
      Trace steps state (label :: labels) after

namespace Trace

variable {steps : Steps σ Label} {state after : σ} {label : Label} {labels : List Label}

theorem nil_eq (trace : Trace steps state [] after) : after = state := by
  cases trace
  rfl

/-- A trace of a label and further labels is a step and a further trace. -/
theorem cons_iff :
    Trace steps state (label :: labels) after ↔
      ∃ middle, steps state label middle ∧ Trace steps middle labels after := by
  constructor
  · rintro (_ | ⟨first, rest⟩)
    exact ⟨_, first, rest⟩
  · rintro ⟨middle, first, rest⟩
    exact .cons first rest

/-- A trace can be cut anywhere. -/
theorem append_iff {first second : List Label} :
    Trace steps state (first ++ second) after ↔
      ∃ middle, Trace steps state first middle ∧ Trace steps middle second after := by
  induction first generalizing state with
  | nil =>
      constructor
      · intro trace
        exact ⟨state, .nil state, trace⟩
      · rintro ⟨middle, nothing, trace⟩
        rwa [← nothing.nil_eq]
  | cons label first ih =>
      rw [List.cons_append]
      simp only [cons_iff, ih]
      constructor
      · rintro ⟨next, head, middle, front, back⟩
        exact ⟨middle, ⟨next, head, front⟩, back⟩
      · rintro ⟨middle, ⟨next, head, front⟩, back⟩
        exact ⟨next, head, middle, front, back⟩

/-- What every step keeps holds at the end of a trace. -/
theorem invariant (invariant : σ → Prop)
    (kept : ∀ state label after, invariant state → steps state label after →
      invariant after)
    (trace : Trace steps state labels after) (initial : invariant state) :
    invariant after := by
  induction trace with
  | nil state => exact initial
  | cons first rest ih => exact ih (kept _ _ _ initial first)

/-- What the steps with the labels of a trace do not change, the trace does not change. -/
theorem unchanged {β : Type*} (observe : σ → β)
    (trace : Trace steps state labels after)
    (quiet : ∀ label ∈ labels, ∀ state after, steps state label after →
      observe after = observe state) :
    observe after = observe state := by
  induction trace with
  | nil state => rfl
  | cons first rest ih =>
      rw [ih fun label member => quiet label (by simp [member])]
      exact quiet _ (by simp) _ _ first

/-- A trace whose labels are allowed is one of the steps with allowed labels. -/
theorem restrict {allowed : Label → Prop} (trace : Trace steps state labels after)
    (all : ∀ label ∈ labels, allowed label) :
    Trace (fun before label next => allowed label ∧ steps before label next) state labels
      after := by
  induction trace with
  | nil state => exact .nil state
  | cons first rest ih =>
      exact .cons ⟨all _ (by simp), first⟩ (ih fun label member => all label (by simp [member]))

end Trace

/-- A refinement of `abstract` by `concrete`: from the states with the invariant, the view
of a step is a step. -/
structure Refinement (concrete : Steps σ Label) (abstract : Steps τ Label) where
  invariant : σ → Prop
  view : σ → τ
  kept : ∀ {state label after}, invariant state → concrete state label after →
    invariant after
  step : ∀ {state label after}, invariant state → concrete state label after →
    abstract (view state) label (view after)

/-- The view of a trace is a trace with the same labels. -/
theorem Refinement.trace {concrete : Steps σ Label} {abstract : Steps τ Label}
    (refinement : Refinement concrete abstract) {state after : σ} {labels : List Label}
    (trace : Trace concrete state labels after) (initial : refinement.invariant state) :
    refinement.invariant after ∧
      Trace abstract (refinement.view state) labels (refinement.view after) := by
  induction trace with
  | nil state => exact ⟨initial, .nil _⟩
  | cons first rest ih =>
      obtain ⟨final, traced⟩ := ih (refinement.kept initial first)
      exact ⟨final, .cons (refinement.step initial first) traced⟩

end Lib
