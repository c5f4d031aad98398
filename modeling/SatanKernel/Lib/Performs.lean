import SatanKernel.Lib.Program

/-!
# The operations of a run

`Performs` says that a run performs an operation, and in which state.  `Panics` says that
the program itself panics, as opposed to a handler that refuses an operation.  `Only` says
which operations a program can perform at all, whatever the answers are, `OnlyWith` which
ones if the answers are among the possible ones, and `Each` what every operation of a run
does to the state.  All of them follow the structure of programs: a
composition does what its first part does and, if that returns, what the second part does.
-/

namespace Lib

namespace Program

variable {sig : Signature} {ε α β γ σ : Type} (handler : Handler sig σ)

/-- The run from a state performs `op` in the state `moment`. -/
def Performs (op : sig.Op) (moment : σ) : Program sig ε α → σ → Prop
  | .call own next, state => (own = op ∧ state = moment) ∨
      ∃ answer after, handler own state = some (answer, after) ∧
        Performs op moment (next answer) after
  | _, _ => False

/-- The run from a state ends in a panic of the program. -/
def Panics : Program sig ε α → σ → Prop
  | .panic, _ => True
  | .call op next, state => ∃ answer after, handler op state = some (answer, after) ∧
      Panics (next answer) after
  | _, _ => False

/-- Every operation that the run from a state completes changes the state as `step` says. -/
inductive Each (step : sig.Op → σ → σ → Prop) : Program sig ε α → σ → Prop where
  | ret (value : α) (state : σ) : Each step (.ret value) state
  | throw (error : ε) (state : σ) : Each step (.throw error) state
  | panic (state : σ) : Each step .panic state
  | call {op : sig.Op} {next : sig.Answer op → Program sig ε α} {state : σ}
      (here : ∀ answer after, handler op state = some (answer, after) → step op state after)
      (rest : ∀ answer after, handler op state = some (answer, after) →
        Each step (next answer) after) :
      Each step (.call op next) state

/-- Every operation that the program can perform is permitted. -/
def Only (permitted : sig.Op → Prop) : Program sig ε α → Prop
  | .call op next => permitted op ∧ ∀ answer, Only permitted (next answer)
  | _ => True

/-- Every operation that the program can perform is permitted, and every value that it can
return is as `post` says, if the answers are possible ones. -/
def OnlyWith (permitted : sig.Op → Prop) (possible : (op : sig.Op) → sig.Answer op → Prop)
    (post : α → Prop) : Program sig ε α → Prop
  | .ret value => post value
  | .call op next => permitted op ∧
      ∀ answer, possible op answer → OnlyWith permitted possible post (next answer)
  | _ => True

variable {handler}

section Only

variable {permitted : sig.Op → Prop}

theorem only_ret (value : α) : Only permitted (.ret value : Program sig ε α) := trivial

theorem only_throw (error : ε) : Only permitted (.throw error : Program sig ε α) := trivial

theorem only_panic : Only permitted (.panic : Program sig ε α) := trivial

theorem only_ofExcept (result : Except ε α) :
    Only permitted (ofExcept result : Program sig ε α) := by
  cases result <;> exact trivial

theorem Only.bind {first : Program sig ε α} {next : α → Program sig ε β}
    (inFirst : Only permitted first) (inNext : ∀ value, Only permitted (next value)) :
    Only permitted (first >>= next) := by
  change Only permitted (first.bind next)
  induction first with
  | ret value => exact inNext value
  | throw error => exact only_throw error
  | panic => exact only_panic
  | call op rest ih => exact ⟨inFirst.1, fun answer => ih answer (inFirst.2 answer)⟩

theorem only_forEach {items : List β} {body : β → Program sig ε Unit}
    (each : ∀ item ∈ items, Only permitted (body item)) :
    Only permitted (forEach items body) := by
  induction items with
  | nil => exact only_ret ()
  | cons item rest ih =>
      rw [forEach]
      exact (each item List.mem_cons_self).bind fun _ =>
        ih fun other member => each other (List.mem_cons_of_mem _ member)

theorem only_anyOf {items : List β} {test : β → Program sig ε Bool}
    (each : ∀ item ∈ items, Only permitted (test item)) :
    Only permitted (anyOf items test) := by
  induction items with
  | nil => exact only_ret false
  | cons item rest ih =>
      rw [anyOf]
      refine (each item List.mem_cons_self).bind fun found => ?_
      cases found with
      | true => exact only_ret true
      | false => exact ih fun other member => each other (List.mem_cons_of_mem _ member)

end Only

section OnlyWith

variable {permitted : sig.Op → Prop} {possible : (op : sig.Op) → sig.Answer op → Prop}

theorem OnlyWith.bind {middle : α → Prop} {post : β → Prop} {first : Program sig ε α}
    {next : α → Program sig ε β} (inFirst : OnlyWith permitted possible middle first)
    (inNext : ∀ value, middle value → OnlyWith permitted possible post (next value)) :
    OnlyWith permitted possible post (first >>= next) := by
  change OnlyWith permitted possible post (first.bind next)
  induction first with
  | ret value => exact inNext value inFirst
  | throw error => trivial
  | panic => trivial
  | call op rest ih =>
      exact ⟨inFirst.1, fun answer isPossible => ih answer (inFirst.2 answer isPossible)⟩

theorem onlyWith_ofExcept {post : α → Prop} {result : Except ε α}
    (holds : ∀ value, result = .ok value → post value) :
    OnlyWith permitted possible post (ofExcept result : Program sig ε α) := by
  cases result with
  | ok value => exact holds value rfl
  | error error => trivial

theorem onlyWith_forEach {items : List β} {body : β → Program sig ε Unit}
    (each : ∀ item, OnlyWith permitted possible (fun _ => True) (body item)) :
    OnlyWith permitted possible (fun _ => True) (forEach items body) := by
  induction items with
  | nil => trivial
  | cons item rest ih =>
      rw [forEach]
      exact (each item).bind fun _ _ => ih

theorem onlyWith_anyOf {items : List β} {test : β → Program sig ε Bool}
    (each : ∀ item, OnlyWith permitted possible (fun _ => True) (test item)) :
    OnlyWith permitted possible (fun _ => True) (anyOf items test) := by
  induction items with
  | nil => trivial
  | cons item rest ih =>
      rw [anyOf]
      refine (each item).bind fun found _ => ?_
      cases found with
      | true => trivial
      | false => exact ih

end OnlyWith

section Each

variable {step : sig.Op → σ → σ → Prop} {state : σ}

theorem each_ofExcept (result : Except ε α) (state : σ) :
    Each handler step (ofExcept result : Program sig ε α) state := by
  cases result with
  | ok value => exact .ret value state
  | error error => exact .throw error state

/-- The operations of a composition are those of its parts. -/
theorem Each.bind {first : Program sig ε α} {next : α → Program sig ε β}
    (inFirst : Each handler step first state)
    (inNext : ∀ value after, run handler first state = (.ok value, after) →
      Each handler step (next value) after) :
    Each handler step (first >>= next) state := by
  change Each handler step (first.bind next) state
  induction inFirst with
  | ret value state => exact inNext value state (run_ret handler value state)
  | throw error state => exact .throw error state
  | panic state => exact .panic state
  | call here rest ih =>
      refine .call here fun answer after handled => ih answer after handled ?_
      intro value later returned
      exact inNext value later ((run_call_some handler handled _).trans returned)

/-- The operations of a loop, with an invariant that every iteration keeps. -/
theorem each_forEach (invariant : σ → Prop) {items : List β} {body : β → Program sig ε Unit}
    (initial : invariant state)
    (iteration : ∀ item ∈ items, ∀ state, invariant state →
      Each handler step (body item) state ∧
        ∀ after, run handler (body item) state = (.ok (), after) → invariant after) :
    Each handler step (forEach items body) state := by
  induction items generalizing state with
  | nil => exact .ret () state
  | cons item rest ih =>
      rw [forEach]
      obtain ⟨here, kept⟩ := iteration item List.mem_cons_self state initial
      refine here.bind fun _ after returned => ih (kept after returned) ?_
      exact fun other member => iteration other (List.mem_cons_of_mem _ member)

/-- A program that performs only operations of which the step is known. -/
theorem Only.each {permitted : sig.Op → Prop} {program : Program sig ε α}
    (only : Only permitted program)
    (steps : ∀ op, permitted op → ∀ state answer after,
      handler op state = some (answer, after) → step op state after) :
    Each handler step program state := by
  induction program generalizing state with
  | ret value => exact .ret value state
  | throw error => exact .throw error state
  | panic => exact .panic state
  | call op next ih =>
      exact .call (steps op only.1 state) fun answer _ _ => ih answer (only.2 answer)

end Each

section Performs

variable {op : sig.Op} {moment state : σ}

@[simp] theorem not_performs_ret (value : α) :
    ¬Performs handler op moment (.ret value : Program sig ε α) state := id

@[simp] theorem not_performs_pure (value : α) :
    ¬Performs handler op moment (pure value : Program sig ε α) state := id

@[simp] theorem not_performs_throw (error : ε) :
    ¬Performs handler op moment (.throw error : Program sig ε α) state := id

@[simp] theorem not_performs_panic :
    ¬Performs handler op moment (.panic : Program sig ε α) state := id

theorem performs_call {own : sig.Op} {next : sig.Answer own → Program sig ε α} :
    Performs handler op moment (.call own next) state ↔
      (own = op ∧ state = moment) ∨ ∃ answer after,
        handler own state = some (answer, after) ∧
          Performs handler op moment (next answer) after := Iff.rfl

/-- A composition performs the operations of its parts. -/
theorem performs_bind {first : Program sig ε α} {next : α → Program sig ε β} :
    Performs handler op moment (first >>= next) state ↔
      Performs handler op moment first state ∨ ∃ value after,
        run handler first state = (.ok value, after) ∧
          Performs handler op moment (next value) after := by
  change Performs handler op moment (first.bind next) state ↔ _
  induction first generalizing state with
  | ret value => simp [bind]
  | throw error => simp [bind]
  | panic => simp [bind]
  | call own rest ih =>
      rw [bind, performs_call, performs_call, or_assoc]
      apply or_congr Iff.rfl
      cases handled : handler own state with
      | none => simp [run_call_none handler handled]
      | some result =>
          obtain ⟨answer, after⟩ := result
          simp only [Option.some.injEq, Prod.mk.injEq, run_call_some handler handled]
          constructor
          · rintro ⟨_, _, ⟨rfl, rfl⟩, performs⟩
            rcases (ih answer).mp performs with inFirst | inNext
            · exact Or.inl ⟨answer, after, ⟨rfl, rfl⟩, inFirst⟩
            · exact Or.inr inNext
          · rintro (⟨_, _, ⟨rfl, rfl⟩, inFirst⟩ | inNext)
            · exact ⟨answer, after, ⟨rfl, rfl⟩, (ih answer).mpr (Or.inl inFirst)⟩
            · exact ⟨answer, after, ⟨rfl, rfl⟩, (ih answer).mpr (Or.inr inNext)⟩

/-- A composition does not perform what its first part does not perform and its second
part performs in no state. -/
theorem not_performs_bind {first : Program sig ε α} {next : α → Program sig ε β}
    (inFirst : ¬Performs handler op moment first state)
    (inNext : ∀ value after, ¬Performs handler op moment (next value) after) :
    ¬Performs handler op moment (first >>= next) state := by
  rw [performs_bind]
  rintro (here | ⟨value, after, -, later⟩)
  · exact inFirst here
  · exact inNext value after later

theorem not_performs_call {own : sig.Op} {next : sig.Answer own → Program sig ε α}
    (different : own ≠ op)
    (inNext : ∀ answer after, ¬Performs handler op moment (next answer) after) :
    ¬Performs handler op moment (.call own next) state := by
  rintro (⟨same, -⟩ | ⟨answer, after, -, later⟩)
  · exact different same
  · exact inNext answer after later

@[simp] theorem not_performs_ofExcept (result : Except ε α) :
    ¬Performs handler op moment (ofExcept result : Program sig ε α) state := by
  cases result <;> exact id

/-- A loop does not perform what its body performs in no state. -/
theorem not_performs_forEach {items : List β} {body : β → Program sig ε Unit}
    (never : ∀ item ∈ items, ∀ state, ¬Performs handler op moment (body item) state) :
    ¬Performs handler op moment (forEach items body) state := by
  induction items generalizing state with
  | nil => exact not_performs_ret ()
  | cons item rest ih =>
      rw [forEach]
      exact not_performs_bind (never item List.mem_cons_self state) fun _ _ =>
        ih fun other member => never other (List.mem_cons_of_mem _ member)

/-- A search does not perform what its test performs in no state. -/
theorem not_performs_anyOf {items : List β} {test : β → Program sig ε Bool}
    (never : ∀ item ∈ items, ∀ state, ¬Performs handler op moment (test item) state) :
    ¬Performs handler op moment (anyOf items test) state := by
  induction items generalizing state with
  | nil => exact not_performs_ret false
  | cons item rest ih =>
      rw [anyOf]
      refine not_performs_bind (never item List.mem_cons_self state) fun found _ => ?_
      cases found with
      | true => exact not_performs_pure true
      | false => exact ih fun other member => never other (List.mem_cons_of_mem _ member)

theorem performs_forEach_cons {item : β} {rest : List β} {body : β → Program sig ε Unit} :
    Performs handler op moment (forEach (item :: rest) body) state ↔
      Performs handler op moment (body item) state ∨ ∃ after,
        run handler (body item) state = (.ok (), after) ∧
          Performs handler op moment (forEach rest body) after := by
  rw [forEach, performs_bind]
  apply or_congr Iff.rfl
  constructor
  · rintro ⟨_, after, returned, performs⟩
    exact ⟨after, returned, performs⟩
  · rintro ⟨after, returned, performs⟩
    exact ⟨(), after, returned, performs⟩

end Performs

section Panics

variable {state : σ}

@[simp] theorem not_panics_ret (value : α) :
    ¬Panics handler (.ret value : Program sig ε α) state := id

@[simp] theorem not_panics_pure (value : α) :
    ¬Panics handler (pure value : Program sig ε α) state := id

@[simp] theorem not_panics_throw (error : ε) :
    ¬Panics handler (.throw error : Program sig ε α) state := id

@[simp] theorem panics_panic : Panics handler (.panic : Program sig ε α) state := trivial

theorem panics_call {own : sig.Op} {next : sig.Answer own → Program sig ε α} :
    Panics handler (.call own next) state ↔ ∃ answer after,
      handler own state = some (answer, after) ∧ Panics handler (next answer) after := Iff.rfl

/-- A composition panics if one of its parts does. -/
theorem panics_bind {first : Program sig ε α} {next : α → Program sig ε β} :
    Panics handler (first >>= next) state ↔
      Panics handler first state ∨ ∃ value after,
        run handler first state = (.ok value, after) ∧ Panics handler (next value) after := by
  change Panics handler (first.bind next) state ↔ _
  induction first generalizing state with
  | ret value => simp [bind]
  | throw error => simp [bind]
  | panic => simp [bind]
  | call own rest ih =>
      rw [bind, panics_call, panics_call]
      cases handled : handler own state with
      | none => simp [run_call_none handler handled]
      | some result =>
          obtain ⟨answer, after⟩ := result
          simp only [Option.some.injEq, Prod.mk.injEq, run_call_some handler handled]
          constructor
          · rintro ⟨_, _, ⟨rfl, rfl⟩, panics⟩
            rcases (ih answer).mp panics with inFirst | inNext
            · exact Or.inl ⟨answer, after, ⟨rfl, rfl⟩, inFirst⟩
            · exact Or.inr inNext
          · rintro (⟨_, _, ⟨rfl, rfl⟩, inFirst⟩ | inNext)
            · exact ⟨answer, after, ⟨rfl, rfl⟩, (ih answer).mpr (Or.inl inFirst)⟩
            · exact ⟨answer, after, ⟨rfl, rfl⟩, (ih answer).mpr (Or.inr inNext)⟩

/-- A composition does not panic if its first part does not, and its second part does in
no state. -/
theorem not_panics_bind {first : Program sig ε α} {next : α → Program sig ε β}
    (inFirst : ¬Panics handler first state)
    (inNext : ∀ value after, ¬Panics handler (next value) after) :
    ¬Panics handler (first >>= next) state := by
  rw [panics_bind]
  rintro (here | ⟨value, after, -, later⟩)
  · exact inFirst here
  · exact inNext value after later

theorem not_panics_call {own : sig.Op} {next : sig.Answer own → Program sig ε α}
    (inNext : ∀ answer after, ¬Panics handler (next answer) after) :
    ¬Panics handler (.call own next) state := by
  rintro ⟨answer, after, -, later⟩
  exact inNext answer after later

@[simp] theorem not_panics_ofExcept (result : Except ε α) :
    ¬Panics handler (ofExcept result : Program sig ε α) state := by
  cases result <;> exact id

/-- A loop whose body panics in no state does not panic. -/
theorem not_panics_forEach {items : List β} {body : β → Program sig ε Unit}
    (never : ∀ item ∈ items, ∀ state, ¬Panics handler (body item) state) :
    ¬Panics handler (forEach items body) state := by
  induction items generalizing state with
  | nil => exact not_panics_ret ()
  | cons item rest ih =>
      rw [forEach]
      exact not_panics_bind (never item List.mem_cons_self state) fun _ _ =>
        ih fun other member => never other (List.mem_cons_of_mem _ member)

/-- A search whose test panics in no state does not panic. -/
theorem not_panics_anyOf {items : List β} {test : β → Program sig ε Bool}
    (never : ∀ item ∈ items, ∀ state, ¬Panics handler (test item) state) :
    ¬Panics handler (anyOf items test) state := by
  induction items generalizing state with
  | nil => exact not_panics_ret false
  | cons item rest ih =>
      rw [anyOf]
      refine not_panics_bind (never item List.mem_cons_self state) fun found _ => ?_
      cases found with
      | true => exact not_panics_pure true
      | false => exact ih fun other member => never other (List.mem_cons_of_mem _ member)

end Panics

end Program

end Lib
