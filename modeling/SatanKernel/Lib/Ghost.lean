import SatanKernel.Lib.Performs

/-!
# Runs beside a ghost

A handler on ghost states gives the answers of another handler for as long as a program
behaves; it breaks, once and for all, when the program does something that it must not do.
A program whose run does not break the ghost therefore runs the same with both handlers,
and what has been proved of the ghost holds of the other one.
-/

namespace Lib

namespace Program

variable {sig : Signature} {ε α σ τ : Type}

/-- Invariant rule for programs that use permitted operations only, however they end. -/
theorem Only.invariant {handler : Handler sig σ} {permitted : sig.Op → Prop}
    (invariant : σ → Prop)
    (kept : ∀ op, permitted op → ∀ state answer after, invariant state →
      handler op state = some (answer, after) → invariant after)
    {program : Program sig ε α} (only : program.Only permitted) {state : σ}
    (initial : invariant state) : invariant (run handler program state).2 := by
  induction program generalizing state with
  | ret value => exact initial
  | throw error => exact initial
  | panic => exact initial
  | call op next ih =>
      cases handled : handler op state with
      | none =>
          rw [run_call_none handler handled]
          exact initial
      | some result =>
          rw [run_call_some handler handled]
          exact ih _ (only.2 _) (kept op only.1 _ _ _ initial handled)

theorem only_of_forall {permitted : sig.Op → Prop} (all : ∀ op, permitted op)
    (program : Program sig ε α) : program.Only permitted := by
  induction program with
  | ret value => trivial
  | throw error => trivial
  | panic => trivial
  | call op next ih => exact ⟨all op, ih⟩

/-- What every operation keeps, every program keeps. -/
theorem run_invariant {handler : Handler sig σ} (invariant : σ → Prop)
    (kept : ∀ op state answer after, invariant state →
      handler op state = some (answer, after) → invariant after)
    (program : Program sig ε α) {state : σ} (initial : invariant state) :
    invariant (run handler program state).2 := by
  have only : program.Only fun _ => True := only_of_forall (fun _ => trivial) program
  exact Only.invariant invariant (fun op _ => kept op) only initial

/-- What a handler and its ghost do with an operation: the same, unless the ghost breaks. -/
inductive Follows (related : σ → τ → Prop) (broken : τ → Prop) {β : Type} :
    Option (β × σ) → Option (β × τ) → Prop where
  | refused : Follows related broken none none
  | answered (answer : β) {state : σ} {ghost : τ} (kept : related state ghost) :
      Follows related broken (some (answer, state)) (some (answer, ghost))
  | breaks (real : Option (β × σ)) (answer : β) {ghost : τ} (broke : broken ghost) :
      Follows related broken real (some (answer, ghost))

/-- A program that does not break the ghost runs the same with both handlers. -/
theorem run_follows {handler : Handler sig σ} {ghostHandler : Handler sig τ}
    {related : σ → τ → Prop} {broken : τ → Prop}
    (follows : ∀ op state ghost, related state ghost →
      Follows related broken (handler op state) (ghostHandler op ghost))
    (absorbing : ∀ op ghost answer after, broken ghost →
      ghostHandler op ghost = some (answer, after) → broken after)
    (program : Program sig ε α) {state : σ} {ghost : τ} (start : related state ghost)
    (whole : ¬broken (run ghostHandler program ghost).2) :
    (run handler program state).1 = (run ghostHandler program ghost).1 ∧
      related (run handler program state).2 (run ghostHandler program ghost).2 := by
  induction program generalizing state ghost with
  | ret value => exact ⟨rfl, start⟩
  | throw error => exact ⟨rfl, start⟩
  | panic => exact ⟨rfl, start⟩
  | call op next ih =>
      have step := follows op state ghost start
      cases real : handler op state with
      | none =>
          rw [real] at step
          cases shadow : ghostHandler op ghost with
          | none =>
              rw [run_call_none handler real, run_call_none ghostHandler shadow]
              exact ⟨rfl, start⟩
          | some result =>
              rw [shadow] at step
              rw [run_call_some ghostHandler shadow] at whole
              cases step with
              | breaks _ _ broke =>
                  exact absurd (run_invariant broken absorbing _ broke) whole
      | some result =>
          rw [real] at step
          cases shadow : ghostHandler op ghost with
          | none =>
              rw [shadow] at step
              cases step
          | some shadowed =>
              rw [shadow] at step
              rw [run_call_some handler real, run_call_some ghostHandler shadow]
              rw [run_call_some ghostHandler shadow] at whole
              cases step with
              | answered answer kept => exact ih answer kept whole
              | breaks _ _ broke =>
                  exact absurd (run_invariant broken absorbing _ broke) whole

end Program

end Lib
