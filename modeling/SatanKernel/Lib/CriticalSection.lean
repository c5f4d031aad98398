import Mathlib.Logic.Relation
import SatanKernel.Lib.Interleaving

/-!
# Critical sections

Threads share a state that a lock guards and another one whose operations are atomic
anyway.  A thread takes the lock, performs operations on the guarded state and releases the
lock; the surroundings may change the guarded state at any time, as hardware does.

`Implements` is the proof obligation of one thread: each of its sections, whatever the
surroundings do meanwhile, has the effect and the answer of one atomic operation, and the
lock is taken and released in turns.  It carries over to all interleavings of such threads,
which then have the results of interleavings of atomic operations, and in which somebody can
always move.
-/

namespace Lib

/-! ## Atomic operations on two states -/

/-- An operation on the guarded state as a whole, or on the other state. -/
inductive SpecOp (atomic rest : Signature) where
  | atomic (op : atomic.Op)
  | rest (op : rest.Op)

/-- The type each of them returns. -/
abbrev SpecOp.Answer {atomic rest : Signature} : SpecOp atomic rest → Type
  | .atomic op => atomic.Answer op
  | .rest op => rest.Answer op

abbrev specSig (atomic rest : Signature) : Signature := ⟨SpecOp atomic rest, SpecOp.Answer⟩

/-- Each of them acts on a state of its own. -/
def bothHandlers {atomic rest : Signature} {τ ρ : Type} (handler : Handler atomic τ)
    (restHandler : Handler rest ρ) : Handler (specSig atomic rest) (τ × ρ)
  | .atomic op, state => (handler op state.1).map fun result => (result.1, result.2, state.2)
  | .rest op, state => (restHandler op state.2).map fun result => (result.1, state.1, result.2)

section Handlers

variable {atomic rest : Signature} {τ ρ : Type} (handler : Handler atomic τ)
  (restHandler : Handler rest ρ) (state : τ × ρ)

theorem bothHandlers_atomic (op : atomic.Op) :
    bothHandlers handler restHandler (.atomic op) state =
      (handler op state.1).map fun result => (result.1, result.2, state.2) := rfl

theorem bothHandlers_rest (op : rest.Op) :
    bothHandlers handler restHandler (.rest op) state =
      (restHandler op state.2).map fun result => (result.1, state.1, result.2) := rfl

end Handlers

/-- A run continues after each step. -/
theorem Program.run_step {sig : Signature} {ε α σ : Type} (handler : Handler sig σ)
    (program : Program sig ε α) (state : σ) :
    (program.step handler state).1.run handler (program.step handler state).2 =
      program.run handler state := by
  cases program with
  | ret value => rfl
  | throw error => rfl
  | panic => rfl
  | call op next =>
      cases handled : handler op state with
      | none => rw [step_call_none handled, run_call_none handler handled, run_panic]
      | some result => rw [step_call_some handled, run_call_some handler handled]

namespace Threads

variable {sig : Signature} {ε α ι σ : Type} [DecidableEq ι] {handler : Handler sig σ}
  {threads : Threads sig ε α ι σ} {who : ι} {op : sig.Op}
  {next : sig.Answer op → Program sig ε α}

theorem step_some (pending : threads.programs who = .call op next) {answer : sig.Answer op}
    {after : σ} (handled : handler op threads.state = some (answer, after)) :
    threads.step handler who = ⟨Function.update threads.programs who (next answer), after⟩ := by
  rw [step, pending, Program.step_call_some handled]

theorem step_none (pending : threads.programs who = .call op next)
    (refused : handler op threads.state = none) :
    threads.step handler who = ⟨Function.update threads.programs who .panic, threads.state⟩ := by
  rw [step, pending, Program.step_call_none refused]

/-- A thread that is alone runs its program. -/
theorem run_alone {threads : Threads sig ε α Unit σ} {schedule : List Unit}
    {outcome : Outcome ε α}
    (ended : ((threads.run handler schedule).programs ()).ended = some outcome) :
    (threads.programs ()).run handler threads.state =
      (outcome, (threads.run handler schedule).state) := by
  induction schedule generalizing threads with
  | nil =>
      have ended : (threads.programs ()).ended = some outcome := ended
      change _ = (outcome, threads.state)
      cases program : threads.programs () with
      | ret value =>
          rw [program] at ended
          cases ended
          rfl
      | throw error =>
          rw [program] at ended
          cases ended
          rfl
      | panic =>
          rw [program] at ended
          cases ended
          rfl
      | call op next =>
          rw [program] at ended
          cases ended
  | cons who rest ih =>
      have stepped : ((threads.step handler ()).programs ()).run handler
          (threads.step handler ()).state =
          (outcome, (run handler rest (threads.step handler ())).state) := ih ended
      have own : (threads.step handler ()).programs () =
          ((threads.programs ()).step handler threads.state).1 := by
        simp only [step, Function.update_self]
      rw [own] at stepped
      exact (Program.run_step handler _ _).symm.trans stepped

end Threads

/-! ## Threads with a lock -/

/-- An operation on the lock, on the guarded state or on the other one. -/
inductive LockOp (guarded rest : Signature) where
  | lock
  | unlock
  | guarded (op : guarded.Op)
  | rest (op : rest.Op)

/-- The type each of them returns. -/
abbrev LockOp.Answer {guarded rest : Signature} : LockOp guarded rest → Type
  | .lock => Unit
  | .unlock => Unit
  | .guarded op => guarded.Answer op
  | .rest op => rest.Answer op

abbrev lockSig (guarded rest : Signature) : Signature := ⟨LockOp guarded rest, LockOp.Answer⟩

/-- Programs that run on the two states, and the thread that has the lock. -/
structure Locked (guarded rest : Signature) (ε α ι σ ρ : Type) where
  programs : ι → Program (lockSig guarded rest) ε α
  holder : Option ι
  inside : σ
  outside : ρ

section Machine

variable {guarded rest : Signature} {ε α ι σ ρ : Type} [DecidableEq ι]

namespace Locked

/-- The program of one thread has changed. -/
def withProgram (config : Locked guarded rest ε α ι σ ρ) (who : ι)
    (program : Program (lockSig guarded rest) ε α) : Locked guarded rest ε α ι σ ρ :=
  { config with programs := Function.update config.programs who program }

end Locked

/-- The next operation of a thread.  A lock that somebody has is waited for; an operation
that is refused is a panic. -/
inductive LockMove (handler : Handler guarded σ) (restHandler : Handler rest ρ) (who : ι) :
    Locked guarded rest ε α ι σ ρ → Locked guarded rest ε α ι σ ρ → Prop where
  | lock {config : Locked guarded rest ε α ι σ ρ}
      {next : Unit → Program (lockSig guarded rest) ε α}
      (pending : config.programs who = .call .lock next) (available : config.holder = none) :
      LockMove handler restHandler who config
        { config.withProgram who (next ()) with holder := some who }
  | unlock {config : Locked guarded rest ε α ι σ ρ}
      {next : Unit → Program (lockSig guarded rest) ε α}
      (pending : config.programs who = .call .unlock next) :
      LockMove handler restHandler who config
        { config.withProgram who (next ()) with holder := none }
  | guarded {config : Locked guarded rest ε α ι σ ρ} {op : guarded.Op}
      {next : guarded.Answer op → Program (lockSig guarded rest) ε α}
      {answer : guarded.Answer op} {after : σ}
      (pending : config.programs who = .call (.guarded op) next)
      (handled : handler op config.inside = some (answer, after)) :
      LockMove handler restHandler who config
        { config.withProgram who (next answer) with inside := after }
  | guardedPanics {config : Locked guarded rest ε α ι σ ρ} {op : guarded.Op}
      {next : guarded.Answer op → Program (lockSig guarded rest) ε α}
      (pending : config.programs who = .call (.guarded op) next)
      (refused : handler op config.inside = none) :
      LockMove handler restHandler who config (config.withProgram who .panic)
  | rest {config : Locked guarded rest ε α ι σ ρ} {op : rest.Op}
      {next : rest.Answer op → Program (lockSig guarded rest) ε α}
      {answer : rest.Answer op} {after : ρ}
      (pending : config.programs who = .call (.rest op) next)
      (handled : restHandler op config.outside = some (answer, after)) :
      LockMove handler restHandler who config
        { config.withProgram who (next answer) with outside := after }
  | restPanics {config : Locked guarded rest ε α ι σ ρ} {op : rest.Op}
      {next : rest.Answer op → Program (lockSig guarded rest) ε α}
      (pending : config.programs who = .call (.rest op) next)
      (refused : restHandler op config.outside = none) :
      LockMove handler restHandler who config (config.withProgram who .panic)

/-- A thread moves, or the surroundings change the guarded state. -/
inductive LockStep (handler : Handler guarded σ) (restHandler : Handler rest ρ)
    (disturb : σ → σ → Prop) :
    Locked guarded rest ε α ι σ ρ → Locked guarded rest ε α ι σ ρ → Prop where
  | move {config after : Locked guarded rest ε α ι σ ρ} (who : ι)
      (moved : LockMove handler restHandler who config after) :
      LockStep handler restHandler disturb config after
  | disturb {config : Locked guarded rest ε α ι σ ρ} {after : σ}
      (disturbed : disturb config.inside after) :
      LockStep handler restHandler disturb config { config with inside := after }

/-- All operations of one thread, on the lock and the two states. -/
def lockHandler (handler : Handler guarded σ) (restHandler : Handler rest ρ) (who : ι) :
    Handler (lockSig guarded rest) (Option ι × σ × ρ)
  | .lock, (none, states) => some ((), some who, states)
  | .lock, (some _, _) => none
  | .unlock, (_, states) => some ((), none, states)
  | .guarded op, (holder, inside, outside) => (handler op inside).map fun result =>
      (result.1, holder, result.2, outside)
  | .rest op, (holder, inside, outside) => (restHandler op outside).map fun result =>
      (result.1, holder, inside, result.2)

/-- A run of one thread that nothing disturbs is one of the possible ones. -/
theorem reaches_of_run {handler : Handler guarded σ} {restHandler : Handler rest ρ}
    {disturb : σ → σ → Prop} {config : Locked guarded rest ε α ι σ ρ} {who : ι}
    {program : Program (lockSig guarded rest) ε α} {holder : Option ι} {value : α}
    {inside : σ} {outside : ρ} (own : config.programs who = program)
    (returned : program.run (lockHandler handler restHandler who)
      (config.holder, config.inside, config.outside) = (.ok value, holder, inside, outside)) :
    Relation.ReflTransGen (LockStep handler restHandler disturb) config
      ⟨Function.update config.programs who (.ret value), holder, inside, outside⟩ := by
  induction program generalizing config with
  | ret other =>
      cases returned
      rw [← own, Function.update_eq_self]
  | throw error => cases returned
  | panic => cases returned
  | call op next ih =>
      have continued (answer : LockOp.Answer op) (middle : Locked guarded rest ε α ι σ ρ)
          (moved : LockMove handler restHandler who config middle)
          (programs : middle.programs = Function.update config.programs who (next answer))
          (rest : (next answer).run (lockHandler handler restHandler who)
            (middle.holder, middle.inside, middle.outside) =
              (.ok value, holder, inside, outside)) :
          Relation.ReflTransGen (LockStep handler restHandler disturb) config
            ⟨Function.update config.programs who (.ret value), holder, inside, outside⟩ := by
        have own : middle.programs who = next answer := by rw [programs, Function.update_self]
        have reached := (ih answer own rest).head (.move who moved)
        rwa [programs, Function.update_idem] at reached
      cases op with
      | lock =>
          cases available : config.holder with
          | some other =>
              rw [available] at returned
              cases returned
          | none =>
              rw [available] at returned
              exact continued () _ (.lock own available) rfl returned
      | unlock => exact continued () _ (.unlock own) rfl returned
      | guarded op =>
          cases handled : handler op config.inside with
          | none =>
              rw [Program.run_call, lockHandler, handled] at returned
              cases returned
          | some result =>
              rw [Program.run_call, lockHandler, handled] at returned
              exact continued result.1 _ (.guarded own handled) rfl returned
      | rest op =>
          cases handled : restHandler op config.outside with
          | none =>
              rw [Program.run_call, lockHandler, handled] at returned
              cases returned
          | some result =>
              rw [Program.run_call, lockHandler, handled] at returned
              exact continued result.1 _ (.rest own handled) rfl returned

end Machine

/-! ## The proof obligation -/

/-- What sections are compared with: atomic operations on a view of the guarded state.  The
invariant holds of the guarded state while nobody has the lock. -/
structure Sections (guarded atomic rest : Signature) (σ τ ρ : Type) where
  handler : Handler guarded σ
  atomicHandler : Handler atomic τ
  restHandler : Handler rest ρ
  disturb : σ → σ → Prop
  view : σ → τ
  invariant : σ → Prop
  possible : (op : rest.Op) → rest.Answer op → Prop
  kept : ∀ {state after}, invariant state → disturb state after →
    invariant after ∧ view after = view state
  answers : ∀ {op : rest.Op} {state : ρ} {answer : rest.Answer op} {after : ρ},
    restHandler op state = some (answer, after) → possible op answer

/-- Where a thread is: between its sections, with what is left of its specification, or in
the section for an operation that is pending there, with the view of the guarded state from
the beginning of the section and the guarded state. -/
inductive Phase (atomic rest : Signature) (ε α σ τ : Type) where
  | between (spec : Program (specSig atomic rest) ε α)
  | within (op : atomic.Op) (next : atomic.Answer op → Program (specSig atomic rest) ε α)
      (before : τ) (state : σ)

namespace Sections

variable {guarded atomic rest : Signature} {ε α ι σ τ ρ : Type}
  (sections : Sections guarded atomic rest σ τ ρ)

/-- Any number of changes by the surroundings. -/
abbrev Disturbed : σ → σ → Prop := Relation.ReflTransGen sections.disturb

/-- The proof obligation of a thread. -/
def Implements : Program (lockSig guarded rest) ε α → Phase atomic rest ε α σ τ → Prop
  | .ret value, .between spec => spec = .ret value
  | .throw error, .between spec => spec = .throw error
  | .panic, .between spec => spec = .panic
  | .call .lock next, .between spec => ∃ op specNext, spec = .call (.atomic op) specNext ∧
      ∀ state, sections.invariant state →
        Implements (next ()) (.within op specNext (sections.view state) state)
  | .call (.rest op) next, .between spec => ∃ specNext, spec = .call (.rest op) specNext ∧
      ∀ answer, sections.possible op answer → Implements (next answer) (.between (specNext answer))
  | .call (.guarded op) next, .within atomicOp specNext before state => ∀ current,
      sections.Disturbed state current → ∃ answer after,
        sections.handler op current = some (answer, after) ∧
          Implements (next answer) (.within atomicOp specNext before after)
  | .call .unlock next, .within op specNext before state => ∀ current,
      sections.Disturbed state current → ∃ answer,
        sections.atomicHandler op before = some (answer, sections.view current) ∧
          sections.invariant current ∧ Implements (next ()) (.between (specNext answer))
  | .panic, .within op _ before _ => sections.atomicHandler op before = none
  | _, _ => False

variable {sections} {program : Program (lockSig guarded rest) ε α} {op : atomic.Op}
  {specNext : atomic.Answer op → Program (specSig atomic rest) ε α} {before : τ} {state after : σ}

/-- The surroundings keep the obligation. -/
theorem Implements.disturbed
    (implements : sections.Implements program (.within op specNext before state))
    (disturbed : sections.disturb state after) :
    sections.Implements program (.within op specNext before after) := by
  cases program with
  | ret value => exact implements
  | throw error => exact implements
  | panic => exact implements
  | call lockOp next =>
      cases lockOp with
      | lock => exact implements
      | rest op => exact implements
      | unlock => exact fun current reached => implements current (.head disturbed reached)
      | guarded op => exact fun current reached => implements current (.head disturbed reached)

/-! ## Simulation -/

/-- The thread that has the lock: it is in a section, or it has panicked in one. -/
inductive Holds (sections : Sections guarded atomic rest σ τ ρ)
    (program : Program (lockSig guarded rest) ε α) (spec : Program (specSig atomic rest) ε α)
    (before : τ) (state : σ) : Prop where
  | running {op : atomic.Op} {specNext : atomic.Answer op → Program (specSig atomic rest) ε α}
      (alive : program ≠ .panic) (shape : spec = .call (.atomic op) specNext)
      (implements : sections.Implements program (.within op specNext before state)) :
      Holds sections program spec before state
  | panicked (dead : program = .panic) (specDead : spec = .panic) :
      Holds sections program spec before state

/-- Threads with the lock, and the threads with the atomic operations that they simulate.
The section that somebody is in has not happened yet. -/
structure Simulates (sections : Sections guarded atomic rest σ τ ρ)
    (config : Locked guarded rest ε α ι σ ρ)
    (threads : Threads (specSig atomic rest) ε α ι (τ × ρ)) : Prop where
  outside : threads.state.2 = config.outside
  inside : config.holder = none →
    sections.invariant config.inside ∧ sections.view config.inside = threads.state.1
  others : ∀ who, config.holder ≠ some who →
    sections.Implements (config.programs who) (.between (threads.programs who))
  holder : ∀ who, config.holder = some who →
    sections.Holds (config.programs who) (threads.programs who) threads.state.1 config.inside

/-- The atomic operations of all threads. -/
abbrev specHandler (sections : Sections guarded atomic rest σ τ ρ) :
    Handler (specSig atomic rest) (τ × ρ) :=
  bothHandlers sections.atomicHandler sections.restHandler

variable {config next : Locked guarded rest ε α ι σ ρ}
  {threads : Threads (specSig atomic rest) ε α ι (τ × ρ)} {who : ι}

/-- At the start nobody has the lock. -/
theorem simulates_start {programs : ι → Program (lockSig guarded rest) ε α}
    {specs : ι → Program (specSig atomic rest) ε α} {inside : σ} {outside : ρ}
    (invariant : sections.invariant inside)
    (implements : ∀ who, sections.Implements (programs who) (.between (specs who))) :
    sections.Simulates ⟨programs, none, inside, outside⟩
      ⟨specs, (sections.view inside, outside)⟩ where
  outside := rfl
  inside _ := ⟨invariant, rfl⟩
  others who _ := implements who
  holder who isHolder := by cases isHolder

/-- The thread that performs an operation which is allowed within sections only has the
lock. -/
theorem Simulates.of_pending (simulates : sections.Simulates config threads)
    {lockOp : LockOp guarded rest} {next : lockOp.Answer → Program (lockSig guarded rest) ε α}
    (pending : config.programs who = .call lockOp next)
    (onlyWithin : ∀ spec, ¬sections.Implements (.call lockOp next) (.between spec)) :
    config.holder = some who ∧ ∃ op specNext, threads.programs who = .call (.atomic op) specNext ∧
      sections.Implements (.call lockOp next)
        (.within op specNext threads.state.1 config.inside) := by
  by_cases isHolder : config.holder = some who
  · refine ⟨isHolder, ?_⟩
    cases simulates.holder who isHolder with
    | running alive shape implements =>
        rw [pending] at implements
        exact ⟨_, _, shape, implements⟩
    | panicked dead =>
        rw [dead] at pending
        cases pending
  · have implements := simulates.others who isHolder
    rw [pending] at implements
    exact absurd implements (onlyWithin _)

/-- The thread that performs an operation which is not allowed within sections does not have
the lock. -/
theorem Simulates.not_holder (simulates : sections.Simulates config threads)
    {lockOp : LockOp guarded rest} {next : lockOp.Answer → Program (lockSig guarded rest) ε α}
    (pending : config.programs who = .call lockOp next)
    (onlyBetween : ∀ op specNext before state,
      ¬sections.Implements (.call lockOp next) (.within op specNext before state)) :
    config.holder ≠ some who := by
  intro isHolder
  cases simulates.holder who isHolder with
  | running alive shape implements =>
      rw [pending] at implements
      exact onlyBetween _ _ _ _ implements
  | panicked dead =>
      rw [dead] at pending
      cases pending

/-- The surroundings change nothing that the atomic operations see. -/
theorem Simulates.disturb {inside : σ} (simulates : sections.Simulates config threads)
    (disturbed : sections.disturb config.inside inside) :
    sections.Simulates { config with inside } threads where
  outside := simulates.outside
  inside available := by
    obtain ⟨invariant, view⟩ := simulates.inside available
    obtain ⟨kept, same⟩ := sections.kept invariant disturbed
    exact ⟨kept, same.trans view⟩
  others := simulates.others
  holder who isHolder := by
    cases simulates.holder who isHolder with
    | running alive shape implements => exact .running alive shape (implements.disturbed disturbed)
    | panicked dead specDead => exact .panicked dead specDead

/-- A thread that has ended has given the lock back, unless it has panicked. -/
theorem Simulates.released (simulates : sections.Simulates config threads)
    {outcome : Outcome ε α} (ended : (config.programs who).ended = some outcome)
    (returned : outcome ≠ .panic) : config.holder ≠ some who := by
  intro isHolder
  cases simulates.holder who isHolder with
  | panicked dead =>
      rw [dead] at ended
      cases ended
      exact returned rfl
  | running alive shape implements =>
      cases program : config.programs who with
      | ret value => rw [program] at implements; exact implements.elim
      | throw error => rw [program] at implements; exact implements.elim
      | panic => exact absurd program alive
      | call op next => rw [program] at ended; cases ended

/-- A thread that has ended has ended in the same way as its specification. -/
theorem Simulates.ended (simulates : sections.Simulates config threads)
    {outcome : Outcome ε α} (ended : (config.programs who).ended = some outcome) :
    (threads.programs who).ended = some outcome := by
  by_cases isHolder : config.holder = some who
  · cases simulates.holder who isHolder with
    | running alive shape implements =>
        have panics : outcome = .panic := by
          by_contra returned
          exact simulates.released ended returned isHolder
        rw [panics] at ended
        cases program : config.programs who with
        | panic => exact absurd program alive
        | ret value => rw [program] at ended; cases ended
        | throw error => rw [program] at ended; cases ended
        | call op next => rw [program] at ended; cases ended
    | panicked dead specDead =>
        rw [dead] at ended
        rwa [specDead]
  · have implements := simulates.others who isHolder
    cases program : config.programs who with
    | ret value =>
        rw [program] at implements ended
        rwa [show threads.programs who = .ret value from implements]
    | throw error =>
        rw [program] at implements ended
        rwa [show threads.programs who = .throw error from implements]
    | panic =>
        rw [program] at implements ended
        rwa [show threads.programs who = .panic from implements]
    | call op next =>
        rw [program] at ended
        cases ended

variable [DecidableEq ι]

/-- Either nothing has happened or the operation of one thread. -/
def Follows (sections : Sections guarded atomic rest σ τ ρ) (who : ι)
    (threads after : Threads (specSig atomic rest) ε α ι (τ × ρ)) : Prop :=
  after = threads ∨ after = threads.step sections.specHandler who

/-- A thread that is in a section, and has perhaps just panicked there. -/
theorem Simulates.within (spec : threads.programs who = .call (.atomic op) specNext)
    (outside : threads.state.2 = config.outside) (holder : config.holder = some who)
    (others : ∀ other, other ≠ who →
      sections.Implements (config.programs other) (.between (threads.programs other)))
    (implements : sections.Implements (config.programs who)
      (.within op specNext threads.state.1 config.inside)) :
    ∃ after, sections.Follows who threads after ∧ sections.Simulates config after := by
  have others (other : ι) (notHolder : config.holder ≠ some other) : other ≠ who ∧
      sections.Implements (config.programs other) (.between (threads.programs other)) := by
    have different : other ≠ who := by
      rintro rfl
      exact notHolder holder
    exact ⟨different, others other different⟩
  by_cases dead : config.programs who = .panic
  · rw [dead] at implements
    have refused : sections.specHandler (.atomic op) threads.state = none := by
      rw [specHandler, bothHandlers_atomic,
        show sections.atomicHandler op threads.state.1 = none from implements]
      rfl
    refine ⟨_, .inr (Threads.step_none spec refused).symm, outside, ?_, ?_, ?_⟩
    · rw [holder]
      exact fun free => by cases free
    · intro other notHolder
      obtain ⟨different, kept⟩ := others other notHolder
      dsimp only
      rwa [Function.update_of_ne different]
    · intro other isHolder
      rw [holder] at isHolder
      cases isHolder
      exact .panicked dead (Function.update_self ..)
  · refine ⟨threads, .inl rfl, outside, ?_, fun other notHolder => (others other notHolder).2, ?_⟩
    · rw [holder]
      exact fun free => by cases free
    · intro other isHolder
      rw [holder] at isHolder
      cases isHolder
      exact .running dead spec implements

/-- What a thread that is not in a section does not change: the others, and the section that
somebody else may be in. -/
theorem Simulates.of_between (simulates : sections.Simulates config threads)
    (notHolder : config.holder ≠ some who) {program : Program (lockSig guarded rest) ε α}
    {spec : Program (specSig atomic rest) ε α} {outside : ρ}
    (implements : sections.Implements program (.between spec)) :
    sections.Simulates { config.withProgram who program with outside }
      ⟨Function.update threads.programs who spec, (threads.state.1, outside)⟩ where
  outside := rfl
  inside := simulates.inside
  others other otherNotHolder := by
    dsimp only [Locked.withProgram]
    by_cases same : other = who
    · subst same
      rwa [Function.update_self, Function.update_self]
    · rw [Function.update_of_ne same, Function.update_of_ne same]
      exact simulates.others other otherNotHolder
  holder other isHolder := by
    have different : other ≠ who := by
      rintro rfl
      exact notHolder isHolder
    dsimp only [Locked.withProgram]
    rw [Function.update_of_ne different, Function.update_of_ne different]
    exact simulates.holder other isHolder

/-- A move of a thread is an atomic operation of it, or nothing yet. -/
theorem Simulates.move (simulates : sections.Simulates config threads)
    (moved : LockMove sections.handler sections.restHandler who config next) :
    ∃ after, sections.Follows who threads after ∧ sections.Simulates next after := by
  cases moved with
  | @lock continued pending available =>
      have implements := simulates.others who (by rw [available]; simp)
      rw [pending] at implements
      obtain ⟨op, specNext, spec, implements⟩ := implements
      obtain ⟨invariant, view⟩ := simulates.inside available
      refine Simulates.within spec simulates.outside rfl ?_ ?_
      · intro other different
        dsimp only [Locked.withProgram]
        rw [Function.update_of_ne different]
        exact simulates.others other (by rw [available]; simp)
      · dsimp only [Locked.withProgram]
        rw [Function.update_self, ← view]
        exact implements config.inside invariant
  | @unlock continued pending =>
      obtain ⟨isHolder, op, specNext, spec, implements⟩ :=
        simulates.of_pending pending fun _ => id
      obtain ⟨answer, handled, invariant, continues⟩ := implements config.inside .refl
      have stepped : sections.specHandler (.atomic op) threads.state =
          some (answer, sections.view config.inside, threads.state.2) := by
        rw [specHandler, bothHandlers_atomic, handled]
        rfl
      refine ⟨_, .inr (Threads.step_some spec stepped).symm, simulates.outside,
        fun _ => ⟨invariant, rfl⟩, ?_, fun other isHolder => by cases isHolder⟩
      intro other _
      dsimp only [Locked.withProgram]
      by_cases same : other = who
      · subst same
        rw [Function.update_self, Function.update_self]
        exact continues
      · rw [Function.update_of_ne same, Function.update_of_ne same]
        apply simulates.others
        rw [isHolder]
        exact fun equal => same (Option.some.inj equal).symm
  | @guarded guardedOp continued answer inside pending handled =>
      obtain ⟨isHolder, op, specNext, spec, implements⟩ :=
        simulates.of_pending pending fun _ => id
      obtain ⟨own, after, ownHandled, implements⟩ := implements config.inside .refl
      rw [handled] at ownHandled
      cases ownHandled
      refine Simulates.within spec simulates.outside isHolder ?_ ?_
      · intro other different
        dsimp only [Locked.withProgram]
        rw [Function.update_of_ne different]
        apply simulates.others
        rw [isHolder]
        exact fun equal => different (Option.some.inj equal).symm
      · dsimp only [Locked.withProgram]
        rw [Function.update_self]
        exact implements
  | @guardedPanics guardedOp continued pending refused =>
      obtain ⟨-, op, specNext, -, implements⟩ := simulates.of_pending pending fun _ => id
      obtain ⟨own, after, handled, -⟩ := implements config.inside .refl
      rw [refused] at handled
      cases handled
  | @rest restOp continued answer outside pending handled =>
      have notHolder := simulates.not_holder pending fun _ _ _ _ => id
      have implements := simulates.others who notHolder
      rw [pending] at implements
      obtain ⟨specNext, spec, implements⟩ := implements
      have stepped : sections.specHandler (.rest restOp) threads.state =
          some (answer, threads.state.1, outside) := by
        rw [specHandler, bothHandlers_rest, simulates.outside, handled]
        rfl
      exact ⟨_, .inr (Threads.step_some spec stepped).symm,
        simulates.of_between notHolder (implements answer (sections.answers handled))⟩
  | @restPanics restOp continued pending refused =>
      have notHolder := simulates.not_holder pending fun _ _ _ _ => id
      have implements := simulates.others who notHolder
      rw [pending] at implements
      obtain ⟨specNext, spec, -⟩ := implements
      have stepped : sections.specHandler (.rest restOp) threads.state = none := by
        rw [specHandler, bothHandlers_rest, simulates.outside, refused]
        rfl
      have state : threads.state = (threads.state.1, config.outside) :=
        Prod.ext rfl simulates.outside
      refine ⟨_, .inr (Threads.step_none spec stepped).symm, ?_⟩
      rw [state]
      exact simulates.of_between notHolder rfl

/-! ## Runs -/

/-- Any number of steps. -/
abbrev Reaches (sections : Sections guarded atomic rest σ τ ρ) :
    Locked guarded rest ε α ι σ ρ → Locked guarded rest ε α ι σ ρ → Prop :=
  Relation.ReflTransGen (LockStep sections.handler sections.restHandler sections.disturb)

/-- A run is one of atomic operations. -/
theorem Simulates.run (simulates : sections.Simulates config threads)
    (reached : sections.Reaches config next) :
    ∃ schedule, sections.Simulates next (threads.run sections.specHandler schedule) := by
  induction reached with
  | refl => exact ⟨[], simulates⟩
  | tail _ step ih =>
      obtain ⟨schedule, simulates⟩ := ih
      cases step with
      | disturb disturbed => exact ⟨schedule, simulates.disturb disturbed⟩
      | move who moved =>
          obtain ⟨after, follows, simulates⟩ := simulates.move moved
          cases follows with
          | inl same => exact ⟨schedule, same ▸ simulates⟩
          | inr stepped =>
              refine ⟨schedule ++ [who], ?_⟩
              rw [Threads.run, List.foldl_append]
              rw [stepped] at simulates
              exact simulates

/-- Unless a thread has panicked while it had the lock, somebody can move as long as somebody
has not ended. -/
theorem Simulates.progress (simulates : sections.Simulates config threads)
    (alive : ∀ who, config.holder = some who → config.programs who ≠ .panic)
    (unfinished : (config.programs who).ended = none) :
    ∃ mover after, LockMove sections.handler sections.restHandler mover config after := by
  cases holder : config.holder with
  | some holderThread =>
      refine ⟨holderThread, ?_⟩
      cases simulates.holder holderThread holder with
      | panicked dead => exact absurd dead (alive holderThread holder)
      | running alive shape implements =>
          cases program : config.programs holderThread with
          | ret value => rw [program] at implements; exact implements.elim
          | throw error => rw [program] at implements; exact implements.elim
          | panic => exact absurd program alive
          | call op next =>
              rw [program] at implements
              cases op with
              | lock => exact implements.elim
              | rest op => exact implements.elim
              | unlock => exact ⟨_, .unlock program⟩
              | guarded op =>
                  obtain ⟨answer, after, handled, -⟩ := implements config.inside .refl
                  exact ⟨_, .guarded program handled⟩
  | none =>
      refine ⟨who, ?_⟩
      have implements := simulates.others who (by rw [holder]; simp)
      cases program : config.programs who with
      | ret value => rw [program] at unfinished; cases unfinished
      | throw error => rw [program] at unfinished; cases unfinished
      | panic => rw [program] at unfinished; cases unfinished
      | call op next =>
          rw [program] at implements
          cases op with
          | lock => exact ⟨_, .lock program holder⟩
          | unlock => exact implements.elim
          | guarded op => exact implements.elim
          | rest op =>
              cases handled : sections.restHandler op config.outside with
              | none => exact ⟨_, .restPanics program handled⟩
              | some result => exact ⟨_, .rest program handled⟩

end Sections

end Lib
