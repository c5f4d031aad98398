import SatanKernel.X86.Screen

/-!
# Return to the interrupted code

The handlers of the timer and of the keyboard are the only ones that return, the latter only
if the code that it has interrupted has not locked `WRITER`.  Then the interrupted code goes
on as if nothing had happened, apart from the text on the screen.  After every other
interrupt it never runs again.
-/

namespace SatanKernel.X86

open Lib

namespace Console

variable {console after : Console} {frame : Frame} {below : List Frame} {taken : Bool}
  {program : CpuM Unit}

/-! ## Handlers that never return -/

/-- The code does not return, where `taken` says that the code below has locked `WRITER`. -/
def Endless (taken : Bool) : CpuM Unit → Prop
  | .ret _ => False
  | .throw _ => True
  | .panic => True
  | .call .lock next => taken = true ∨ Endless taken (next ())
  | .call .unlock next => taken = false ∧ Endless taken (next ())
  | .call (.setColor _ _) next => Endless taken (next ())
  | .call (.write _) next => Endless taken (next ())
  | .call .disable next => Endless taken (next ())
  | .call (.readPort _) next => ∀ input, Endless taken (next input)
  | .call (.writePort _ _) next => Endless taken (next ())
  | .call .loop _ => True

theorem endless_print {text : String} {next : Unit → CpuM Unit}
    (continues : Endless false (next ())) : Endless false (print text >>= next) :=
  Or.inr ⟨rfl, continues⟩

theorem endless_earlyPanic (location message : String) (next : Unit → CpuM Unit) :
    Endless false (earlyPanic location message >>= next) :=
  Or.inr trivial

/-- Only the handlers of the timer and of the keyboard return. -/
theorem endless_entry {vector : Nat} (notTimer : vector ≠ 0x20) (notKeyboard : vector ≠ 0x21)
    (errorCode : Nat) : Endless false (entry vector errorCode) := by
  rw [entry, interruptHandler, if_neg notTimer, if_neg notKeyboard]
  split
  next =>
    simp only [println, Program.bind_assoc]
    exact endless_print (endless_print (endless_print (endless_earlyPanic _ _ _)))
  next =>
    split
    next => exact endless_earlyPanic _ _ _
    next =>
      split
      next => exact endless_earlyPanic _ _ _
      next => exact trivial

/-- The handler of the keyboard waits for `WRITER` if the code below has locked it. -/
theorem endless_entry_keyboard (errorCode : Nat) : Endless true (entry 0x21 errorCode) :=
  fun _ => Or.inl rfl

/-- A handler that never returns keeps running, with the interrupt flag clear. -/
structure Hangs (taken : Bool) (activation : Nat) (resumes : Bool) (below : List Frame)
    (console : Console) : Prop where
  frames : ∃ program, console.frames = ⟨activation, program, resumes⟩ :: below ∧
    Endless taken program
  owner : taken = true → console.owner ≠ none
  disabled : console.enabled = false

theorem Hangs.step {activation input : Nat} {resumes : Bool}
    (hangs : Hangs taken activation resumes below console)
    (happens : console.next (.step input) = some after) :
    Hangs taken activation resumes below after := by
  obtain ⟨frames, arrived, owner, enabled, writer⟩ := console
  obtain ⟨⟨program, rfl, endless⟩, isTaken, disabled⟩ := hangs
  cases stepped_of_step happens with
  | ret => exact endless.elim
  | lock next free =>
      refine ⟨⟨_, rfl, ?_⟩, fun _ => Option.some_ne_none _, disabled⟩
      cases endless with
      | inl waits => exact absurd free (isTaken waits)
      | inr continues => exact continues
  | unlock next =>
      refine ⟨⟨_, rfl, endless.2⟩, fun waits => ?_, disabled⟩
      cases endless.1.symm.trans waits
  | refused => exact ⟨⟨_, rfl, trivial⟩, isTaken, disabled⟩
  | disable => exact ⟨⟨_, rfl, endless⟩, isTaken, rfl⟩
  | readPort => exact ⟨⟨_, rfl, endless _⟩, isTaken, disabled⟩
  | wait | setColor | written | write | writePort | loop =>
      exact ⟨⟨_, rfl, endless⟩, isTaken, disabled⟩

theorem Hangs.run {activation : Nat} {resumes : Bool}
    (hangs : Hangs taken activation resumes below console) {inputs : List Nat}
    (ran : console.run (inputs.map .step) = some after) :
    Hangs taken activation resumes below after := by
  induction inputs generalizing console with
  | nil =>
      cases ran
      exact hangs
  | cons input rest ih =>
      rw [List.map_cons, Console.run, Option.bind_eq_some_iff] at ran
      obtain ⟨between, happens, continued⟩ := ran
      exact ih (hangs.step happens) continued

/-! ## Handlers that return -/

/-- A text is written one character at a time. -/
theorem run_writeText {terminal : Terminal} {text : String} {next : Unit → CpuM Unit}
    {activation : Nat} {resumes : Bool} (console : Console) (input : Nat)
    (frames : console.frames = ⟨activation, .call (.write text) next, resumes⟩ :: below)
    (shows : Shows console.writer terminal) :
    ∃ writer, (textCalls text).foldlM Writer.call console.writer = some writer ∧
      console.run (List.replicate (text.toList.length + 1) (.step input)) =
        some { console with frames := ⟨activation, next (), resumes⟩ :: below, writer } := by
  obtain ⟨allFrames, arrived, owner, enabled, writer⟩ := console
  subst frames
  generalize chars : text.toList = rest
  induction rest generalizing text writer terminal with
  | nil =>
      refine ⟨writer, by rw [textCalls, chars]; rfl, ?_⟩
      rw [List.length_nil, Nat.zero_add, List.replicate_one]
      simp only [Console.run, Console.next, Console.step, chars, Option.bind_some, continued]
  | cons ch rest ih =>
      obtain ⟨written, called, follows⟩ := shows.call (.write ch.toUInt8)
      obtain ⟨last, folded, ran⟩ := ih written follows (String.toList_ofList)
      refine ⟨last, ?_, ?_⟩
      · rw [textCalls_cons chars, List.foldlM_cons, called]
        exact folded
      · rw [List.length_cons, List.replicate_succ, Console.run]
        simp only [Console.next, Console.step, chars,
          show writer.write ch.toUInt8 = some written from called, Option.bind_some, continued]
        exact ran

/-- The handler of the timer returns. -/
theorem run_timer (console : Console) (errorCode input : Nat) :
    (console.entered (entry 0x20 errorCode)).run (List.replicate 2 (.step input)) =
      some { console with arrived := console.arrived + 1 } := rfl

/-- The handler of the keyboard prints its message and returns if `WRITER` is free. -/
theorem run_keyboard {terminal : Terminal} (shows : Shows console.writer terminal)
    (free : console.owner = none) (errorCode input : Nat) :
    ∃ steps writer, (console.entered (entry 0x21 errorCode)).run
        (List.replicate steps (.step input)) =
          some { console with arrived := console.arrived + 1, writer } ∧
      (textCalls ("Keyboard: " ++ toString (input % 2 ^ 8) ++ "\n")).foldlM Writer.call
        console.writer = some writer := by
  obtain ⟨frames, arrived, owner, enabled, writer⟩ := console
  subst free
  let writing : Console := ⟨⟨arrived, .call (.write ("Keyboard: " ++ toString (input % 2 ^ 8) ++
    "\n")) fun _ => .call .unlock fun _ => acknowledge 0x21, enabled⟩ :: frames, arrived + 1,
    some arrived, false, writer⟩
  have locks : (Console.entered ⟨frames, arrived, none, enabled, writer⟩
      (entry 0x21 errorCode)).run (List.replicate 2 (.step input)) = some writing := rfl
  obtain ⟨written, folded, writes⟩ := run_writeText writing input rfl shows
  have returns : Console.run ⟨⟨arrived, .call .unlock fun _ => acknowledge 0x21, enabled⟩ ::
      frames, arrived + 1, some arrived, false, written⟩ (List.replicate 3 (.step input)) =
      some ⟨frames, arrived + 1, none, enabled, written⟩ := rfl
  have together := run_append (run_append locks writes) returns
  rw [List.replicate_append_replicate, List.replicate_append_replicate] at together
  exact ⟨_, written, together, folded⟩

end Console

/-- After the interrupt of the timer, and after that of the keyboard unless `WRITER` was
locked, the interrupted code goes on in the state in which it was, with the message of the
handler on the screen.  After every other interrupt the handler runs for ever, with the
interrupt flag clear. -/
theorem interrupted_code_resumes (texts : List String) (ending : Option (String × String))
    (enabled : Bool) (buffer : Buffer) (events : List CpuEvent) (result after : Console)
    (vector errorCode : Nat)
    (ran : (Console.start texts ending enabled buffer).run events = some result)
    (arrives : result.next (.interrupt vector errorCode) = some after) :
    (vector = 0x20 ∨ vector = 0x21 ∧ result.owner = none → ∀ input, ∃ steps writer,
      after.run (List.replicate steps (.step input)) =
          some { result with arrived := result.arrived + 1, writer } ∧
        ((handlerMessages vector errorCode input).flatMap Message.calls).foldlM Writer.call
          result.writer = some writer) ∧
    (¬(vector = 0x20 ∨ vector = 0x21 ∧ result.owner = none) → ∀ inputs later,
      after.run (List.map .step inputs) = some later →
        later.enabled = false ∧ ∃ program, later.frames =
          ⟨result.arrived, program, result.enabled⟩ :: result.frames) := by
  rw [Console.next] at arrives
  split at arrives
  next =>
    cases arrives
    constructor
    · intro returns input
      obtain ⟨log, writing, -, explains⟩ :=
        (Console.explains_start texts ending enabled buffer).run ran
      cases returns with
      | inl timer =>
          subst timer
          exact ⟨2, result.writer, Console.run_timer result errorCode input, rfl⟩
      | inr keyboard =>
          obtain ⟨isKeyboard, free⟩ := keyboard
          subst isKeyboard
          obtain ⟨steps, writer, returned, written⟩ :=
            Console.run_keyboard explains.shows free errorCode input
          refine ⟨steps, writer, returned, ?_⟩
          rw [show handlerMessages 0x21 errorCode input =
            [.print ("Keyboard: " ++ toString (input % 2 ^ 8) ++ "\n")] from rfl,
            List.flatMap_singleton]
          exact written
    · intro never inputs later continued
      obtain ⟨neverTimer, neverFree⟩ := not_or.mp never
      obtain ⟨taken, hangs⟩ : ∃ taken, Console.Hangs taken result.arrived result.enabled
          result.frames (result.entered (entry vector errorCode)) := by
        by_cases isKeyboard : vector = 0x21
        · subst isKeyboard
          exact ⟨true, ⟨_, rfl, Console.endless_entry_keyboard errorCode⟩,
            fun _ free => neverFree ⟨rfl, free⟩, rfl⟩
        · exact ⟨false, ⟨_, rfl, Console.endless_entry neverTimer isKeyboard errorCode⟩,
            fun isTrue => (Bool.false_ne_true isTrue).elim, rfl⟩
      obtain ⟨⟨program, frames, -⟩, -, disabled⟩ := hangs.run continued
      exact ⟨disabled, program, frames⟩
  next => cases arrives

/-- A key is pressed before the main code locks `WRITER`, and again while it writes. -/
theorem interrupted_code_resumes_key :
    let events := [CpuEvent.step 0, .step 0]
    ∃ free held waiting,
      (Console.start ["Hi"] none true fun _ _ => ⟨0, 0⟩).next (.interrupt 0x21 0) = some free ∧
      (∃ steps writer, free.run (List.replicate steps (.step 30)) =
        some { Console.start ["Hi"] none true fun _ _ => ⟨0, 0⟩ with arrived := 2, writer }) ∧
      (Console.start ["Hi"] none true fun _ _ => ⟨0, 0⟩).run events = some held ∧
      held.next (.interrupt 0x21 0) = some waiting ∧
      ∀ inputs later, waiting.run (List.map .step inputs) = some later →
        later.enabled = false ∧ ∃ program, later.frames =
          ⟨held.arrived, program, held.enabled⟩ :: held.frames := by
  intro events
  have facts : ((Console.start ["Hi"] none true fun _ _ => ⟨0, 0⟩).run events).map
      (fun held => (held.owner, held.enabled)) = some (some 0, true) := by
    decide +kernel
  obtain ⟨held, ran, values⟩ := Option.map_eq_some_iff.mp facts
  obtain ⟨owner, enabled⟩ := Prod.mk.inj values
  have arrives : held.next (.interrupt 0x21 0) = some (held.entered (entry 0x21 0)) := by
    rw [Console.next, if_pos ⟨by decide, Or.inr enabled⟩]
  obtain ⟨steps, writer, returned, -⟩ := (interrupted_code_resumes ["Hi"] none true _ [] _ _ 0x21
    0 rfl rfl).1 (Or.inr ⟨rfl, rfl⟩) 30
  refine ⟨_, held, _, rfl, ⟨steps, writer, returned⟩, ran, arrives, ?_⟩
  refine (interrupted_code_resumes ["Hi"] none true _ events held _ 0x21 0 ran arrives).2 ?_
  simp [owner]

end SatanKernel.X86
