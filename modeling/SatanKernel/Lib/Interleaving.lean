import Mathlib.Logic.Relation
import SatanKernel.Lib.Performs

/-!
# Interleaved programs

Several programs run on one state, one atomic operation at a time, in the order that a
schedule gives.  A program is proved against what the others may do between its own
operations.

A `Protocol` fixes, for each thread, the state changes of the other threads that it has
to put up with while a given operation of its own is pending, and the steps of a run
that are allowed at all.  `Sound` is the proof obligation of one thread: each of its
allowed steps is a change that the others put up with, whatever they did before, and a
postcondition holds if it returns.  `run_sound` puts the threads together.
-/

namespace Lib

/-- Programs that run on one state. -/
structure Threads (sig : Signature) (ε α ι σ : Type) where
  programs : ι → Program sig ε α
  state : σ

namespace Program

variable {sig : Signature} {ε α σ : Type}

/-- The operation that a program performs next. -/
def pending : Program sig ε α → Option sig.Op
  | .call op _ => some op
  | _ => none

/-- How a program has ended, if it has. -/
def ended : Program sig ε α → Option (Outcome ε α)
  | .ret value => some (.ok value)
  | .throw error => some (.err error)
  | .panic => some .panic
  | .call _ _ => none

theorem ended_eq_ok {program : Program sig ε α} {value : α} :
    program.ended = some (.ok value) ↔ program = .ret value := by
  cases program <;> simp [ended]

/-- Perform the pending operation. -/
def step (handler : Handler sig σ) :
    Program sig ε α → σ → Program sig ε α × σ
  | .call op next, state =>
      match handler op state with
      | none => (.panic, state)
      | some (answer, after) => (next answer, after)
  | ended, state => (ended, state)

theorem step_call_some {handler : Handler sig σ} {op : sig.Op} {state after : σ}
    {answer : sig.Answer op} (handled : handler op state = some (answer, after))
    (next : sig.Answer op → Program sig ε α) :
    step handler (.call op next) state = (next answer, after) := by
  rw [step, handled]

theorem step_call_none {handler : Handler sig σ} {op : sig.Op} {state : σ}
    (refused : handler op state = none) (next : sig.Answer op → Program sig ε α) :
    step handler (.call op next) state = (.panic, state) := by
  rw [step, refused]

end Program

namespace Threads

variable {sig : Signature} {ε α ι σ : Type} [DecidableEq ι]

/-- The operations that the threads perform next. -/
def pending (threads : Threads sig ε α ι σ) (who : ι) : Option sig.Op :=
  (threads.programs who).pending

/-- Let one thread perform its pending operation. -/
def step (handler : Handler sig σ) (threads : Threads sig ε α ι σ) (who : ι) :
    Threads sig ε α ι σ :=
  let next := (threads.programs who).step handler threads.state
  ⟨Function.update threads.programs who next.1, next.2⟩

/-- Run the threads in the order of a schedule. -/
def run (handler : Handler sig σ) (schedule : List ι) (threads : Threads sig ε α ι σ) :
    Threads sig ε α ι σ :=
  schedule.foldl (step handler) threads

end Threads

/-- What the threads may do to each other. -/
structure Protocol (sig : Signature) (ι σ : Type) where
  handler : Handler sig σ
  /-- Changes of the state that a thread puts up with before its pending operation -/
  rely : ι → Option sig.Op → σ → σ → Prop
  /-- Whether a thread may perform an operation, given what is pending elsewhere -/
  allowed : (ι → Option sig.Op) → σ → ι → sig.Op → Prop

namespace Protocol

variable {sig : Signature} {ε α β ι σ : Type} (protocol : Protocol sig ι σ)

/-- The proof obligation of one thread. -/
def Sound (who : ι) (post : α → σ → Prop) : Program sig ε α → σ → Prop
  | .ret value, state => post value state
  | .throw _, _ => True
  | .panic, _ => True
  | .call op next, state =>
      ∀ current, Relation.ReflTransGen (protocol.rely who (some op)) state current →
        ∀ pending, protocol.allowed pending current who op →
          ∀ answer after, protocol.handler op current = some (answer, after) →
            (∀ other, other ≠ who → protocol.rely other (pending other) current after) ∧
              Sound who post (next answer) after

variable {protocol} {who : ι}

@[simp] theorem sound_ret {post : α → σ → Prop} {value : α} {state : σ} :
    protocol.Sound (ε := ε) who post (.ret value) state ↔ post value state := by
  rw [Sound]

@[simp] theorem sound_pure {post : α → σ → Prop} {value : α} {state : σ} :
    protocol.Sound (ε := ε) who post (pure value) state ↔ post value state :=
  sound_ret

@[simp] theorem sound_throw {post : α → σ → Prop} {error : ε} {state : σ} :
    protocol.Sound who post (.throw error) state := by
  rw [Sound]
  trivial

@[simp] theorem sound_panic {post : α → σ → Prop} {state : σ} :
    protocol.Sound (ε := ε) who post .panic state := by
  rw [Sound]
  trivial

theorem sound_call {post : α → σ → Prop} {op : sig.Op}
    {next : sig.Answer op → Program sig ε α} {state : σ} :
    protocol.Sound who post (.call op next) state ↔
      ∀ current, Relation.ReflTransGen (protocol.rely who (some op)) state current →
        ∀ pending, protocol.allowed pending current who op →
          ∀ answer after, protocol.handler op current = some (answer, after) →
            (∀ other, other ≠ who → protocol.rely other (pending other) current after) ∧
              protocol.Sound who post (next answer) after := by
  rw [Sound]

attribute [irreducible] Sound

/-- One operation, under an assertion that the other threads keep. -/
theorem sound_call_of_stable (assertion : σ → Prop) {post : α → σ → Prop} {op : sig.Op}
    {next : sig.Answer op → Program sig ε α} {state : σ} (holds : assertion state)
    (stable : ∀ before after, assertion before →
      protocol.rely who (some op) before after → assertion after)
    (step : ∀ current, assertion current → ∀ pending,
      protocol.allowed pending current who op →
        ∀ answer after, protocol.handler op current = some (answer, after) →
          (∀ other, other ≠ who → protocol.rely other (pending other) current after) ∧
            protocol.Sound who post (next answer) after) :
    protocol.Sound who post (.call op next) state := by
  rw [sound_call]
  intro current reached
  have kept : assertion current := by
    induction reached with
    | refl => exact holds
    | tail _ change ih => exact stable _ _ ih change
  exact step current kept

/-- A weaker postcondition. -/
theorem Sound.mono {post weaker : α → σ → Prop} {program : Program sig ε α} {state : σ}
    (sound : protocol.Sound who post program state)
    (implies : ∀ value after, post value after → weaker value after) :
    protocol.Sound who weaker program state := by
  induction program generalizing state with
  | ret value => exact sound_ret.mpr (implies value state (sound_ret.mp sound))
  | throw error => exact sound_throw
  | panic => exact sound_panic
  | call op next ih =>
      rw [sound_call] at sound ⊢
      intro current reached pending allowed answer after handled
      have stepped := sound current reached pending allowed answer after handled
      exact ⟨stepped.1, ih answer stepped.2⟩

/-- Sequential composition. -/
theorem sound_bind {post : β → σ → Prop} {first : Program sig ε α}
    {next : α → Program sig ε β} {state : σ}
    (sound : protocol.Sound who
      (fun value after => protocol.Sound who post (next value) after) first state) :
    protocol.Sound who post (first >>= next) state := by
  change protocol.Sound who post (first.bind next) state
  induction first generalizing state with
  | ret value =>
      rw [sound_ret] at sound
      exact sound
  | throw error => exact sound_throw
  | panic => exact sound_panic
  | call op rest ih =>
      rw [sound_call] at sound
      rw [Program.bind, sound_call]
      intro current reached pending allowed answer after handled
      have stepped := sound current reached pending allowed answer after handled
      exact ⟨stepped.1, ih answer stepped.2⟩

/-- Loops: an assertion about the items that are done. -/
theorem sound_forEach (assertion : List β → σ → Prop) {items : List β}
    {body : β → Program sig ε Unit} {state : σ} (holds : assertion [] state)
    (step : ∀ item ∈ items, ∀ done current, assertion done current →
      protocol.Sound who (fun _ after => assertion (done ++ [item]) after) (body item)
        current) :
    protocol.Sound who (fun _ after => assertion items after) (Program.forEach items body)
      state := by
  have fromDone : ∀ done current, assertion done current → protocol.Sound who
      (fun _ after => assertion (done ++ items) after) (Program.forEach items body)
        current := by
    induction items with
    | nil =>
        intro done current held
        rw [List.append_nil]
        exact sound_ret.mpr held
    | cons item rest ih =>
        intro done current held
        rw [Program.forEach]
        apply sound_bind
        apply (step item (by simp) done current held).mono
        intro _ after kept
        have continued := ih (fun other member => step other (by simp [member])) _ after kept
        rw [List.append_assoc] at continued
        exact continued
  exact fromDone [] state holds

/-- Searches: an assertion about the items that the test has rejected, and one for the
case that it accepts an item. -/
theorem sound_anyOf (rejected : List β → σ → Prop) (accepted : σ → Prop) {items : List β}
    {test : β → Program sig ε Bool} {state : σ} (holds : rejected [] state)
    (step : ∀ item ∈ items, ∀ done current, rejected done current →
      protocol.Sound who
        (fun found after => if found then accepted after else rejected (done ++ [item]) after)
        (test item) current) :
    protocol.Sound who
      (fun found after => if found then accepted after else rejected items after)
      (Program.anyOf items test) state := by
  have fromDone : ∀ done current, rejected done current → protocol.Sound who
      (fun found after => if found then accepted after else rejected (done ++ items) after)
      (Program.anyOf items test) current := by
    induction items with
    | nil =>
        intro done current held
        rw [List.append_nil]
        exact sound_ret.mpr held
    | cons item rest ih =>
        intro done current held
        rw [Program.anyOf]
        apply sound_bind
        apply (step item (by simp) done current held).mono
        intro found after kept
        cases found with
        | true => exact sound_ret.mpr kept
        | false =>
            have continued := ih (fun other member => step other (by simp [member])) _ after
              kept
            rw [List.append_assoc] at continued
            exact continued
  exact fromDone [] state holds

/-- A thread all of whose operations the others put up with in every state. -/
theorem sound_of_only (permitted : sig.Op → Prop) {program : Program sig ε α}
    (harmless : ∀ op, permitted op → ∀ current pending,
      protocol.allowed pending current who op →
        ∀ answer after, protocol.handler op current = some (answer, after) →
          ∀ other, other ≠ who → protocol.rely other (pending other) current after)
    (only : program.Only permitted) (state : σ) :
    protocol.Sound who (fun _ _ => True) program state := by
  induction program generalizing state with
  | ret value => exact sound_ret.mpr trivial
  | throw error => exact sound_throw
  | panic => exact sound_panic
  | call op next ih =>
      rw [sound_call]
      intro current _ pending allowed answer after handled
      exact ⟨harmless op only.1 current pending allowed answer after handled,
        ih answer (only.2 answer) after⟩

/-! ## Putting the threads together -/

/-- A thread puts up with a change before its pending operation. -/
theorem Sound.of_rely {post : α → σ → Prop} {program : Program sig ε α} {before after : σ}
    (sound : protocol.Sound who post program before)
    (stable : ∀ value before after, post value before →
      protocol.rely who none before after → post value after)
    (change : protocol.rely who program.pending before after) :
    protocol.Sound who post program after := by
  cases program with
  | ret value => exact sound_ret.mpr (stable value _ _ (sound_ret.mp sound) change)
  | throw error => exact sound_throw
  | panic => exact sound_panic
  | call op next =>
      rw [sound_call] at sound ⊢
      intro current reached
      exact sound current (Relation.ReflTransGen.head change reached)

variable (protocol) [DecidableEq ι]

/-- Every step of a run is allowed. -/
def Admits : List ι → Threads sig ε α ι σ → Prop
  | [], _ => True
  | who :: rest, threads =>
      (∀ op, threads.pending who = some op →
        protocol.allowed threads.pending threads.state who op) ∧
      Admits rest (threads.step protocol.handler who)

variable {protocol} {post : ι → α → σ → Prop}

/-- All threads meet their obligations. -/
def AllSound (protocol : Protocol sig ι σ) (post : ι → α → σ → Prop)
    (threads : Threads sig ε α ι σ) : Prop :=
  ∀ who, protocol.Sound who (post who) (threads.programs who) threads.state

theorem AllSound.update {programs : ι → Program sig ε α} {program : Program sig ε α}
    {state : σ} {who : ι} (own : protocol.Sound who (post who) program state)
    (others : ∀ other, other ≠ who →
      protocol.Sound other (post other) (programs other) state) :
    AllSound protocol post ⟨Function.update programs who program, state⟩ := by
  intro thread
  by_cases same : thread = who
  · subst same
    simpa only [Function.update_self] using own
  · simpa only [Function.update_of_ne same] using others thread same

/-- An allowed step of one thread is a change that the others put up with, and all
threads still meet their obligations. -/
theorem step_sound (stable : ∀ who value before after, post who value before →
      protocol.rely who none before after → post who value after)
    {threads : Threads sig ε α ι σ} (sound : AllSound protocol post threads) {who : ι}
    (allowed : ∀ op, threads.pending who = some op →
      protocol.allowed threads.pending threads.state who op) :
    AllSound protocol post (threads.step protocol.handler who) ∧
      ((threads.step protocol.handler who).state = threads.state ∨
        ∀ other, other ≠ who → protocol.rely other (threads.pending other) threads.state
          (threads.step protocol.handler who).state) := by
  have own := sound who
  cases shape : threads.programs who with
  | ret value | throw error | panic =>
      have same : threads.step protocol.handler who = threads := by
        rw [Threads.step, shape]
        simp only [Program.step]
        rw [← shape, Function.update_eq_self]
      rw [same]
      exact ⟨sound, Or.inl rfl⟩
  | call op next =>
      have allowed := allowed op (by rw [Threads.pending, shape]; rfl)
      rw [shape, sound_call] at own
      cases handled : protocol.handler op threads.state with
      | none =>
          rw [Threads.step, shape, Program.step_call_none handled]
          exact ⟨AllSound.update sound_panic fun other _ => sound other, Or.inl rfl⟩
      | some result =>
          obtain ⟨changes, continues⟩ := own threads.state .refl threads.pending allowed
            result.1 result.2 handled
          rw [Threads.step, shape, Program.step_call_some handled]
          refine ⟨AllSound.update continues ?_, Or.inr changes⟩
          intro other different
          exact (sound other).of_rely (stable other) (changes other different)

/-- In a run of allowed steps all threads meet their obligations to the end. -/
theorem run_sound (stable : ∀ who value before after, post who value before →
      protocol.rely who none before after → post who value after)
    {schedule : List ι} {threads : Threads sig ε α ι σ}
    (sound : AllSound protocol post threads) (admits : protocol.Admits schedule threads) :
    AllSound protocol post (threads.run protocol.handler schedule) := by
  induction schedule generalizing threads with
  | nil => exact sound
  | cons who rest ih => exact ih (step_sound stable sound admits.1).1 admits.2

/-- What every change that some thread puts up with preserves holds over a whole run. -/
theorem run_related [Nontrivial ι] (relation : σ → σ → Prop)
    (stable : ∀ who value before after,
      post who value before → protocol.rely who none before after → post who value after)
    (refl : ∀ state, relation state state)
    (trans : ∀ {first second third}, relation first second → relation second third →
      relation first third)
    (covers : ∀ who pending before after, protocol.rely who pending before after →
      relation before after)
    {schedule : List ι} {threads : Threads sig ε α ι σ}
    (sound : AllSound protocol post threads) (admits : protocol.Admits schedule threads) :
    relation threads.state (threads.run protocol.handler schedule).state := by
  induction schedule generalizing threads with
  | nil => exact refl threads.state
  | cons who rest ih =>
      have stepped := step_sound stable sound admits.1
      have continued := ih stepped.1 admits.2
      apply trans _ continued
      cases stepped.2 with
      | inl same => exact same ▸ refl _
      | inr changes =>
          obtain ⟨other, different⟩ := exists_ne who
          exact covers other _ _ _ (changes other different)

end Protocol

end Lib
