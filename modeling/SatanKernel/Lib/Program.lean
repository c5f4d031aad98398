import Mathlib.Tactic.Common

/-!
# Programs over a signature of atomic operations

A `Program` is a well-founded tree of calls to the operations of a signature.  Each call
is one atomic step; what a step does to a state is fixed separately by a `Handler`.  The
same program can therefore be run to completion (`Program.run`) or be interleaved with
another one, step by step.

A program ends in one of three ways: it returns a value, it returns an error, or
it panics.  A handler may also refuse a call, which panics the program at that
call.
-/

namespace Lib

/-- Atomic operations and the type of answer each of them gives. -/
structure Signature where
  Op : Type
  Answer : Op → Type

/-- The three ways in which a program ends. -/
inductive Outcome (ε α : Type) where
  | ok (value : α)
  | err (error : ε)
  | panic
  deriving DecidableEq, Repr

/-- Programs built from the operations of `sig`, with errors in `ε` and results
in `α`. -/
inductive Program (sig : Signature) (ε α : Type) where
  | ret (value : α)
  | throw (error : ε)
  | panic
  | call (op : sig.Op) (next : sig.Answer op → Program sig ε α)

/-- The effect of each operation on a state; `none` is a panic. -/
abbrev Handler (sig : Signature) (σ : Type) :=
  (op : sig.Op) → σ → Option (sig.Answer op × σ)

namespace Outcome

variable {ε α β σ : Type}

/-- Continue a finished run with `next` if it returned a value. -/
def andThen (finished : Outcome ε α × σ)
    (next : α → σ → Outcome ε β × σ) : Outcome ε β × σ :=
  match finished with
  | (.ok value, state) => next value state
  | (.err error, state) => (.err error, state)
  | (.panic, state) => (.panic, state)

@[simp] theorem andThen_ok (value : α) (state : σ)
    (next : α → σ → Outcome ε β × σ) :
    andThen (.ok value, state) next = next value state := by
  rw [andThen]

@[simp] theorem andThen_err (error : ε) (state : σ)
    (next : α → σ → Outcome ε β × σ) :
    andThen (.err error, state) next = (.err error, state) := by
  rw [andThen]

@[simp] theorem andThen_panic (state : σ) (next : α → σ → Outcome ε β × σ) :
    andThen (.panic, state) next = (.panic, state) := by
  rw [andThen]

/-- A continued run returns a value exactly when both of its parts do. -/
theorem andThen_eq_ok {finished : Outcome ε α × σ}
    {next : α → σ → Outcome ε β × σ} {value : β} {state : σ} :
    andThen finished next = (.ok value, state) ↔
      ∃ middle middleState, finished = (.ok middle, middleState) ∧
        next middle middleState = (.ok value, state) := by
  obtain ⟨outcome, finalState⟩ := finished
  cases outcome <;> simp [andThen]

end Outcome

namespace Program

variable {sig : Signature} {ε α β γ σ : Type}

/-- Sequential composition: errors and panics of the first part end the whole. -/
def bind : Program sig ε α → (α → Program sig ε β) → Program sig ε β
  | .ret value, next => next value
  | .throw error, _ => .throw error
  | .panic, _ => .panic
  | .call op rest, next => .call op fun answer => (rest answer).bind next

instance : Monad (Program sig ε) where
  pure := .ret
  bind := Program.bind

@[simp] theorem ret_bind (value : α) (next : α → Program sig ε β) :
    (.ret value >>= next : Program sig ε β) = next value := rfl

@[simp] theorem panic_bind (next : α → Program sig ε β) :
    (.panic >>= next : Program sig ε β) = .panic := rfl

theorem bind_assoc (first : Program sig ε α) (second : α → Program sig ε β)
    (third : β → Program sig ε γ) :
    (first >>= second) >>= third = first >>= fun value => second value >>= third := by
  change (first.bind second).bind third = first.bind fun value => (second value).bind third
  induction first with
  | ret value => rfl
  | throw error => rfl
  | panic => rfl
  | call op rest ih =>
      simp only [bind]
      exact congrArg (call op) (funext ih)

/-- Perform one operation and return its answer. -/
def perform (op : sig.Op) : Program sig ε (sig.Answer op) := .call op .ret

/-- The `?` operator: continue with the value of a result or return its error. -/
def ofExcept : Except ε α → Program sig ε α
  | .ok value => .ret value
  | .error error => .throw error

/-- `Option::unwrap`. -/
def unwrap : Option α → Program sig ε α
  | some value => .ret value
  | none => .panic

/-- A `for` loop over a precomputed sequence of items. -/
def forEach (items : List β) (body : β → Program sig ε Unit) :
    Program sig ε Unit :=
  match items with
  | [] => .ret ()
  | item :: rest => do
      body item
      forEach rest body

/-- A `for` loop that returns from the function at the first item for which its body has
a value. -/
def firstSome (items : List β) (body : β → Program sig ε (Option γ)) :
    Program sig ε (Option γ) :=
  match items with
  | [] => .ret none
  | item :: rest => do
      match ← body item with
      | some value => .ret (some value)
      | none => firstSome rest body

/-- A `for` loop over a precomputed sequence of items that updates a variable. -/
def foldEach (items : List β) (body : γ → β → Program sig ε γ) (initial : γ) :
    Program sig ε γ :=
  match items with
  | [] => .ret initial
  | item :: rest => do
      let next ← body initial item
      foldEach rest body next

/-- Run a program for its result and keep an error as a value. -/
def attempt {ε' : Type} : Program sig ε α → Program sig ε' (Except ε α)
  | .ret value => .ret (.ok value)
  | .throw error => .ret (.error error)
  | .panic => .panic
  | .call op next => .call op fun answer => (next answer).attempt

/-- A `for` loop that breaks with `true` at the first item the test accepts. -/
def anyOf (items : List β) (test : β → Program sig ε Bool) :
    Program sig ε Bool :=
  match items with
  | [] => .ret false
  | item :: rest => do
      if ← test item then pure true else anyOf rest test

/-- Run a program to its end. -/
def run (handler : Handler sig σ) :
    Program sig ε α → σ → Outcome ε α × σ
  | .ret value, state => (.ok value, state)
  | .throw error, state => (.err error, state)
  | .panic, state => (.panic, state)
  | .call op next, state =>
      match handler op state with
      | none => (.panic, state)
      | some (answer, after) => (next answer).run handler after

variable (handler : Handler sig σ)

@[simp] theorem run_ret (value : α) (state : σ) :
    run (ε := ε) handler (.ret value) state = (.ok value, state) := by
  rw [run]

@[simp] theorem run_pure (value : α) (state : σ) :
    run (ε := ε) handler (pure value) state = (.ok value, state) :=
  run_ret handler value state

@[simp] theorem run_throw (error : ε) (state : σ) :
    run (α := α) handler (.throw error) state = (.err error, state) := by
  rw [run]

@[simp] theorem run_panic (state : σ) :
    run (ε := ε) (α := α) handler .panic state = (.panic, state) := by
  rw [run]

theorem run_call (op : sig.Op) (next : sig.Answer op → Program sig ε α)
    (state : σ) :
    run handler (.call op next) state =
      match handler op state with
      | none => (.panic, state)
      | some (answer, after) => run handler (next answer) after := by
  rw [run]

theorem run_call_some {op : sig.Op} {state after : σ} {answer : sig.Answer op}
    (handled : handler op state = some (answer, after))
    (next : sig.Answer op → Program sig ε α) :
    run handler (.call op next) state = run handler (next answer) after := by
  rw [run_call, handled]

theorem run_call_none {op : sig.Op} {state : σ}
    (refused : handler op state = none)
    (next : sig.Answer op → Program sig ε α) :
    run handler (.call op next) state = (.panic, state) := by
  rw [run_call, refused]

/-- Running a composition is running its parts one after the other. -/
@[simp] theorem run_bind (first : Program sig ε α) (next : α → Program sig ε β)
    (state : σ) :
    run handler (first >>= next) state =
      Outcome.andThen (run handler first state)
        fun value after => run handler (next value) after := by
  change run handler (first.bind next) state = _
  induction first generalizing state with
  | ret value => rfl
  | throw error => rfl
  | panic => rfl
  | call op rest ih =>
      simp only [bind, run_call]
      cases handler op state with
      | none => rfl
      | some answered => exact ih answered.1 answered.2

/-- What no operation changes, no program changes. -/
theorem run_unchanged {γ : Type} (observe : σ → γ)
    (unchanged : ∀ op state answer after, handler op state = some (answer, after) →
      observe after = observe state)
    (program : Program sig ε α) (state : σ) :
    observe (run handler program state).2 = observe state := by
  induction program generalizing state with
  | ret value => rw [run_ret]
  | throw error => rw [run_throw]
  | panic => rw [run_panic]
  | call op next ih =>
      cases handled : handler op state with
      | none => rw [run_call_none handler handled]
      | some result =>
          rw [run_call_some handler handled, ih result.1 result.2]
          exact unchanged op state result.1 result.2 handled

@[simp] theorem run_unwrap_some (value : α) (state : σ) :
    run (ε := ε) handler (unwrap (some value)) state = (.ok value, state) :=
  run_ret handler value state

@[simp] theorem run_unwrap_none (state : σ) :
    run (ε := ε) (α := α) handler (unwrap none) state = (.panic, state) :=
  run_panic handler state

@[simp] theorem run_forEach_nil (body : β → Program sig ε Unit) (state : σ) :
    run handler (forEach [] body) state = (.ok (), state) := by
  rw [forEach, run_ret]

@[simp] theorem run_forEach_cons (item : β) (rest : List β)
    (body : β → Program sig ε Unit) (state : σ) :
    run handler (forEach (item :: rest) body) state =
      Outcome.andThen (run handler (body item) state)
        fun _ after => run handler (forEach rest body) after := by
  rw [forEach, run_bind]

/-- A loop over two consecutive sequences runs the first and then the second. -/
theorem run_forEach_append (first second : List β)
    (body : β → Program sig ε Unit) (state : σ) :
    run handler (forEach (first ++ second) body) state =
      Outcome.andThen (run handler (forEach first body) state)
        fun _ after => run handler (forEach second body) after := by
  induction first generalizing state with
  | nil => rfl
  | cons item rest ih =>
      simp only [List.cons_append, run_forEach_cons]
      rcases run handler (body item) state with ⟨_ | _ | _, after⟩
      · exact ih after
      · rfl
      · rfl

/-- A loop over computed items, with a body that agrees on them. -/
theorem run_forEach_map {ι : Type} (items : List ι) (value : ι → β)
    (body : ι → Program sig ε Unit) (mapped : β → Program sig ε Unit)
    (agree : ∀ item ∈ items, ∀ state,
      run handler (body item) state = run handler (mapped (value item)) state)
    (state : σ) :
    run handler (forEach items body) state =
      run handler (forEach (items.map value) mapped) state := by
  induction items generalizing state with
  | nil => rfl
  | cons item rest ih =>
      have ih := ih fun other member => agree other (by simp [member])
      rw [List.map_cons, run_forEach_cons, run_forEach_cons, agree item (by simp)]
      simp only [ih]

/-- Loop invariant rule: what every iteration that does not panic preserves holds when
the loop ends without a panic. -/
theorem forEach_invariant (invariant : σ → Prop) (items : List β)
    (body : β → Program sig ε Unit)
    (preserved : ∀ item ∈ items, ∀ state, invariant state →
      (run handler (body item) state).1 ≠ .panic →
      invariant (run handler (body item) state).2)
    (state : σ) (initial : invariant state)
    (returned : (run handler (forEach items body) state).1 ≠ .panic) :
    invariant (run handler (forEach items body) state).2 := by
  induction items generalizing state with
  | nil => exact initial
  | cons item rest ih =>
      have first := preserved item (by simp) state initial
      rw [run_forEach_cons] at returned ⊢
      rcases headRun : run handler (body item) state with ⟨_ | _ | _, after⟩
      · rw [headRun] at first returned
        exact ih (fun other member => preserved other (by simp [member])) after
          (first (by simp)) returned
      · rw [headRun] at first
        exact first (by simp)
      · rw [headRun] at returned
        exact absurd rfl returned

/-- Loop rule for a loop that returns: what holds of the items that remain and the state is
kept by every iteration that returns. -/
theorem forEach_returned (invariant : List β → σ → Prop) {items : List β}
    {body : β → Program sig ε Unit}
    (preserved : ∀ item rest state after, invariant (item :: rest) state →
      run handler (body item) state = (.ok (), after) → invariant rest after)
    {state after : σ} (initial : invariant items state)
    (returned : run handler (forEach items body) state = (.ok (), after)) :
    invariant [] after := by
  induction items generalizing state with
  | nil =>
      rw [run_forEach_nil] at returned
      cases returned
      exact initial
  | cons item rest ih =>
      rw [run_forEach_cons, Outcome.andThen_eq_ok] at returned
      obtain ⟨_, middle, first, continued⟩ := returned
      exact ih (preserved item rest state middle initial first) continued

@[simp] theorem run_foldEach_nil (body : γ → β → Program sig ε γ) (initial : γ)
    (state : σ) :
    run handler (foldEach [] body initial) state = (.ok initial, state) := by
  rw [foldEach, run_ret]

@[simp] theorem run_foldEach_cons (item : β) (rest : List β)
    (body : γ → β → Program sig ε γ) (initial : γ) (state : σ) :
    run handler (foldEach (item :: rest) body initial) state =
      Outcome.andThen (run handler (body initial item) state)
        fun next after => run handler (foldEach rest body next) after := by
  rw [foldEach, run_bind]

/-- A loop with a variable over two consecutive sequences. -/
theorem run_foldEach_append (first second : List β)
    (body : γ → β → Program sig ε γ) (initial : γ) (state : σ) :
    run handler (foldEach (first ++ second) body initial) state =
      Outcome.andThen (run handler (foldEach first body initial) state)
        fun next after => run handler (foldEach second body next) after := by
  induction first generalizing initial state with
  | nil => rfl
  | cons item rest ih =>
      simp only [List.cons_append, run_foldEach_cons]
      rcases run handler (body initial item) state with ⟨_ | _ | _, after⟩
      · exact ih _ after
      · rfl
      · rfl

/-- An attempt turns an error into a value and nothing else. -/
theorem run_attempt {ε' : Type} (program : Program sig ε α) (state : σ) :
    run (ε := ε') handler program.attempt state =
      match run handler program state with
      | (.ok value, after) => (.ok (.ok value), after)
      | (.err error, after) => (.ok (.error error), after)
      | (.panic, after) => (.panic, after) := by
  induction program generalizing state with
  | ret value => rfl
  | throw error => rfl
  | panic => rfl
  | call op next ih =>
      simp only [attempt, run_call]
      cases handler op state with
      | none => rfl
      | some answered => exact ih answered.1 answered.2

/-- A search whose tests only read the state returns whether some item passes. -/
theorem run_anyOf_of_reads (items : List β) (test : β → Program sig ε Bool)
    (accepts : β → Bool) (state : σ)
    (reads : ∀ item ∈ items,
      run handler (test item) state = (.ok (accepts item), state)) :
    run handler (anyOf items test) state = (.ok (items.any accepts), state) := by
  induction items with
  | nil => rfl
  | cons item rest ih =>
      rw [anyOf, run_bind, reads item (by simp)]
      simp only [Outcome.andThen_ok, List.any_cons]
      cases accepts item with
      | true => rfl
      | false => exact ih fun other member => reads other (by simp [member])

end Program

end Lib
