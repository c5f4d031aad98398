import Mathlib.Logic.Relation
import SatanKernel.Lib.Program

/-!
# Programs under disturbance

A program runs while its surroundings change the state between any two of its operations,
as hardware does.  `Moves` is one step of either side.

`Safe` is the proof obligation: whatever happens in between, a property holds of every
state, and a postcondition of the end.
-/

namespace Lib

namespace Program

variable {sig : Signature} {ε α β σ : Type}

/-- One operation of the program, or one disturbance. -/
inductive Moves (handler : Handler sig σ) (disturb : σ → σ → Prop) :
    Program sig ε α × σ → Program sig ε α × σ → Prop where
  | operation {op : sig.Op} {next : sig.Answer op → Program sig ε α} {state after : σ}
      {answer : sig.Answer op} (handled : handler op state = some (answer, after)) :
      Moves handler disturb (.call op next, state) (next answer, after)
  | disturbance {program : Program sig ε α} {state after : σ}
      (disturbed : disturb state after) :
      Moves handler disturb (program, state) (program, after)

/-- Any number of steps. -/
abbrev Reaches (handler : Handler sig σ) (disturb : σ → σ → Prop) :=
  Relation.ReflTransGen (Moves (ε := ε) (α := α) handler disturb)

/-- An undisturbed run is one of the possible ones. -/
theorem reaches_of_run {handler : Handler sig σ} {disturb : σ → σ → Prop}
    {program : Program sig ε α} {state after : σ} {value : α}
    (returned : run handler program state = (.ok value, after)) :
    Reaches handler disturb (program, state) (.ret value, after) := by
  induction program generalizing state with
  | ret other =>
      rw [run_ret] at returned
      cases returned
      exact .refl
  | throw error =>
      rw [run_throw] at returned
      cases returned
  | panic =>
      rw [run_panic] at returned
      cases returned
  | call op next ih =>
      cases handled : handler op state with
      | none =>
          rw [run_call_none handler handled] at returned
          cases returned
      | some result =>
          rw [run_call_some handler handled] at returned
          exact .head (.operation handled) (ih result.1 returned)

/-- The proof obligation of a program. -/
def Safe (handler : Handler sig σ) (disturb : σ → σ → Prop) (every : σ → Prop)
    (post : Outcome ε α → σ → Prop) : Program sig ε α → σ → Prop
  | .ret value, state => ∀ current, Relation.ReflTransGen disturb state current →
      every current ∧ post (.ok value) current
  | .throw error, state => ∀ current, Relation.ReflTransGen disturb state current →
      every current ∧ post (.err error) current
  | .panic, state => ∀ current, Relation.ReflTransGen disturb state current →
      every current ∧ post .panic current
  | .call op next, state => ∀ current, Relation.ReflTransGen disturb state current →
      every current ∧ ∀ answer after, handler op current = some (answer, after) →
        Safe handler disturb every post (next answer) after

section Safe

variable {handler : Handler sig σ} {disturb : σ → σ → Prop} {every : σ → Prop}
  {post : Outcome ε α → σ → Prop}

theorem Safe.holds {program : Program sig ε α} {state : σ}
    (safe : Safe handler disturb every post program state) : every state := by
  cases program with
  | ret value => exact (safe state .refl).1
  | throw error => exact (safe state .refl).1
  | panic => exact (safe state .refl).1
  | call op next => exact (safe state .refl).1

theorem Safe.returned {value : α} {state : σ}
    (safe : Safe handler disturb every post (.ret value) state) : post (.ok value) state :=
  (safe state .refl).2

/-- Disturbances keep the obligation. -/
theorem Safe.disturbed {program : Program sig ε α} {state after : σ}
    (safe : Safe handler disturb every post program state) (disturbed : disturb state after) :
    Safe handler disturb every post program after := by
  cases program with
  | ret value => exact fun current reached => safe current (.head disturbed reached)
  | throw error => exact fun current reached => safe current (.head disturbed reached)
  | panic => exact fun current reached => safe current (.head disturbed reached)
  | call op next => exact fun current reached => safe current (.head disturbed reached)

/-- The obligation covers every state that can be reached. -/
theorem Safe.reached {program later : Program sig ε α} {state after : σ}
    (safe : Safe handler disturb every post program state)
    (reached : Reaches handler disturb (program, state) (later, after)) :
    Safe handler disturb every post later after := by
  generalize first : (program, state) = start at reached
  generalize last : (later, after) = stop at reached
  induction reached generalizing later after with
  | refl =>
      rw [← first] at last
      cases last
      exact safe
  | @tail middle _ _ move ih =>
      have before : Safe handler disturb every post middle.1 middle.2 := ih rfl
      cases move with
      | operation handled =>
          cases last
          exact (before _ .refl).2 _ _ handled
      | disturbance disturbed =>
          cases last
          exact before.disturbed disturbed

/-- An assertion that disturbances keep, at the end of a program. -/
theorem safe_ret {value : α} {state : σ} (assertion : σ → Prop) (holds : assertion state)
    (stable : ∀ before after, assertion before → disturb before after → assertion after)
    (ends : ∀ current, assertion current → every current ∧ post (.ok value) current) :
    Safe handler disturb every post (.ret value) state := by
  intro current reached
  apply ends
  induction reached with
  | refl => exact holds
  | tail _ disturbed ih => exact stable _ _ ih disturbed

/-- An assertion that disturbances keep, before an operation. -/
theorem safe_call {op : sig.Op} {next : sig.Answer op → Program sig ε α} {state : σ}
    (assertion : σ → Prop) (holds : assertion state)
    (stable : ∀ before after, assertion before → disturb before after → assertion after)
    (step : ∀ current, assertion current → every current ∧ ∀ answer after,
      handler op current = some (answer, after) →
        Safe handler disturb every post (next answer) after) :
    Safe handler disturb every post (.call op next) state := by
  intro current reached
  apply step
  induction reached with
  | refl => exact holds
  | tail _ disturbed ih => exact stable _ _ ih disturbed

/-- What is left to prove when the first part of a composition has ended. -/
def continues (handler : Handler sig σ) (disturb : σ → σ → Prop) (every : σ → Prop)
    (post : Outcome ε β → σ → Prop) (next : α → Program sig ε β) : Outcome ε α → σ → Prop
  | .ok value, state => Safe handler disturb every post (next value) state
  | .err error, state => post (.err error) state
  | .panic, state => post .panic state

/-- Sequential composition. -/
theorem Safe.bind {post : Outcome ε β → σ → Prop} {first : Program sig ε α}
    {next : α → Program sig ε β} {state : σ}
    (safe : Safe handler disturb every (continues handler disturb every post next) first state) :
    Safe handler disturb every post (first >>= next) state := by
  change Safe handler disturb every post (first.bind next) state
  induction first generalizing state with
  | ret value => exact (safe state .refl).2
  | throw error => exact safe
  | panic => exact safe
  | call op rest ih =>
      intro current reached
      refine ⟨(safe current reached).1, fun answer after handled => ?_⟩
      exact ih answer ((safe current reached).2 answer after handled)

end Safe

end Program

end Lib
