import Mathlib.Algebra.Group.Nat.Defs
import SatanKernel.Lib.Interleaving
import SatanKernel.X86.EarlyLogger

/-!
# Interrupts and the early logger

`arch/x86/interrupts.rs` and the lock of `arch/x86/early_logger.rs`.  One CPU runs code
that prints, and while interrupts are enabled an interrupt can arrive between any two of
its steps.  The handler runs to its end before the interrupted code goes on.

The descriptors of the IDT are interrupt gates, so that interrupts are disabled while a
handler runs.  Nothing disables them while `WRITER` is locked: a handler that prints can
find the lock in the hands of the code that it has interrupted, and then spins forever.
-/

namespace SatanKernel.X86

open Lib

/-- The steps of the code that prints and of the interrupt handlers. -/
inductive CpuOp where
  /-- `WRITER.lock()` -/
  | lock
  | setColor (foreground background : Color)
  | write (text : String)
  /-- Drop of the guard of `WRITER` -/
  | unlock
  /-- `cli` -/
  | disable
  | readPort (port : Nat)
  | writePort (port value : Nat)
  /-- An iteration of `loop {}` -/
  | loop
  deriving DecidableEq, Repr

abbrev CpuOp.Answer : CpuOp → Type
  | .readPort _ => Nat
  | _ => Unit

abbrev cpuSig : Signature := ⟨CpuOp, CpuOp.Answer⟩

abbrev CpuM := Program cpuSig Empty

section Code

def lockWriter : CpuM Unit := .call .lock .ret

def setColor (foreground background : Color) : CpuM Unit :=
  .call (.setColor foreground background) .ret

def writeText (text : String) : CpuM Unit := .call (.write text) .ret

def unlockWriter : CpuM Unit := .call .unlock .ret

def disableInterrupts : CpuM Unit := .call .disable .ret

def readPort (port : Nat) : CpuM Nat := .call (.readPort port) .ret

def writePort (port value : Nat) : CpuM Unit := .call (.writePort port value) .ret

def loopForever : CpuM Unit := .call .loop .ret

/-- `_print`. -/
def print (text : String) : CpuM Unit := do
  lockWriter
  writeText text
  unlockWriter

/-- `println!`. -/
def println (text : String) : CpuM Unit := print (text ++ "\n")

/-- `_panic`, with what the panic handler passes to it. -/
def earlyPanic (location message : String) : CpuM Unit := do
  lockWriter
  setColor .red .black
  writeText ("panicked at " ++ location ++ ":\n" ++ message)
  disableInterrupts
  loopForever

/-- The digits of a number in a base. -/
def formatRadix (base number : Nat) : String := String.ofList (Nat.toDigits base number)

/-- The format `#x`. -/
def formatHex (number : Nat) : String := "0x" ++ formatRadix 16 number

/-- The format `#032b`: at least 32 characters with the mark of the base. -/
def formatBits (number : Nat) : String :=
  let digits := formatRadix 2 number
  "0b" ++ String.ofList (List.replicate (30 - digits.length) '0') ++ digits

/-- Central interrupt handler, all interrupts come here specifying an interrupt number. -/
def interruptHandler (interrupt errorCode : Nat) : CpuM Unit :=
  if interrupt = 0x20 then .ret ()
  else if interrupt = 0x0e then do
    println ("Page fault!\nError code:\n" ++ formatBits errorCode)
    println "                ^        ^^IRUWP"
    println "               SGX      SSPK    "
    earlyPanic "src/arch/x86/interrupts.rs:43:9" "Halt"
  else if interrupt = 0x21 then do
    let scancode ← readPort 0x60
    println ("Keyboard: " ++ toString scancode)
  else if interrupt ≤ 0x08 then
    earlyPanic "src/arch/x86/interrupts.rs:52:9"
      ("Double fault!!!\nError code: " ++ formatHex errorCode)
  else if interrupt ≤ 0x1f then
    earlyPanic "src/arch/x86/interrupts.rs:55:9"
      ("Unhandled exception: " ++ formatHex interrupt ++ "\nError code: " ++
        formatHex errorCode)
  else loopForever

/-- The interrupts that push an error code, marked with `ec`. -/
def pushesErrorCode (vector : Nat) : Bool :=
  vector ∈ [0x08, 0x0a, 0x0b, 0x0c, 0x0d, 0x0e, 0x11, 0x15, 0x1d, 0x1e]

/-- The acknowledgements of the interrupts that are marked with `m` and with `s`. -/
def acknowledge (vector : Nat) : CpuM Unit :=
  if 0x20 ≤ vector ∧ vector ≤ 0x27 then writePort 0x20 0x20
  else if 0x28 ≤ vector ∧ vector ≤ 0x2f then do
    writePort 0x20 0x20
    writePort 0xa0 0x20
  else .ret ()

/-- The entry point of an interrupt, as the macro `int!` defines it. -/
def entry (vector errorCode : Nat) : CpuM Unit := do
  interruptHandler vector (if pushesErrorCode vector then errorCode else 0)
  acknowledge vector

end Code

/-! ## The CPU -/

/-- Who has locked `WRITER`. -/
inductive Owner where
  | main
  | handler
  deriving DecidableEq, Repr

/-- The interrupted code, the handler if one is running, the owner of `WRITER` and the
interrupt flag. -/
structure Cpu where
  main : CpuM Unit
  handler : Option (CpuM Unit)
  owner : Option Owner
  enabled : Bool

/-- What happens next: a step of the code that is running, in which a port may have an
input, or the arrival of an interrupt. -/
inductive CpuEvent where
  | step (input : Nat)
  | interrupt (vector errorCode : Nat)
  deriving DecidableEq, Repr

/-- A step of the code, on the owner of `WRITER` and the interrupt flag.  A lock that is
taken is waited for. -/
def perform (who : Owner) (input : Nat) :
    CpuM Unit → Option Owner × Bool → CpuM Unit × Option Owner × Bool
  | .call .lock next, (none, enabled) => (next (), some who, enabled)
  | .call .lock next, (some owner, enabled) => (.call .lock next, some owner, enabled)
  | .call (.setColor _ _) next, state => (next (), state)
  | .call (.write _) next, state => (next (), state)
  | .call .unlock next, (_, enabled) => (next (), none, enabled)
  | .call .disable next, (owner, _) => (next (), owner, false)
  | .call (.readPort _) next, state => (next (input % 2 ^ 8), state)
  | .call (.writePort _ _) next, state => (next (), state)
  | .call .loop next, state => (.call .loop next, state)
  | ended, state => (ended, state)

namespace Cpu

/-- The effect of an event, if it can happen.  A handler that has returned gives the
interrupt flag its value from before the interrupt. -/
def next (cpu : Cpu) : CpuEvent → Option Cpu
  | .interrupt vector errorCode =>
      if vector < 2 ^ 8 ∧ cpu.handler.isNone ∧ cpu.enabled then
        some { cpu with handler := some (entry vector errorCode), enabled := false }
      else none
  | .step input =>
      match cpu.handler with
      | some (.ret ()) => some { cpu with handler := none, enabled := true }
      | some program =>
          let (program, owner, enabled) :=
            perform .handler input program (cpu.owner, cpu.enabled)
          some { cpu with handler := some program, owner, enabled }
      | none =>
          let (main, owner, enabled) := perform .main input cpu.main (cpu.owner, cpu.enabled)
          some { cpu with main, owner, enabled }

/-- The effect of a sequence of events. -/
def run (cpu : Cpu) : List CpuEvent → Option Cpu
  | [] => some cpu
  | event :: rest => (cpu.next event).bind fun after => run after rest

/-- Code that prints texts, after `setup` has enabled interrupts. -/
def start (texts : List String) : Cpu where
  main := Program.forEach texts print
  handler := none
  owner := none
  enabled := true

/-- A handler waits for `WRITER`, which the interrupted code has locked. -/
def Waits (cpu : Cpu) : Prop :=
  cpu.owner = some .main ∧ ∃ program, cpu.handler = some program ∧ program.pending = some .lock

end Cpu

/-- The interrupts whose handlers print: the exceptions and the keyboard. -/
def Prints (vector : Nat) : Prop := vector ≤ 0x1f ∨ vector = 0x21

instance (vector : Nat) : Decidable (Prints vector) := inferInstanceAs (Decidable (_ ∨ _))

/-- An interrupt whose handler prints does not arrive while the main code has locked
`WRITER`. -/
def Cpu.NotWhileLocked (cpu : Cpu) (event : CpuEvent) : Prop :=
  ∀ vector errorCode, event = .interrupt vector errorCode → cpu.owner = some .main →
    ¬Prints vector

/-- Every event of a run meets the condition. -/
def Cpu.Undisturbed (cpu : Cpu) : List CpuEvent → Prop
  | [] => True
  | event :: rest => cpu.NotWhileLocked event ∧
      ∀ after, cpu.next event = some after → after.Undisturbed rest

/-! ## Handlers that do not print -/

/-- The code never locks `WRITER`. -/
def Silent : CpuM Unit → Prop
  | .call op next => op ≠ .lock ∧ ∀ answer, Silent (next answer)
  | _ => True

theorem Silent.bind {first : CpuM Unit} {next : Unit → CpuM Unit} (silent : Silent first)
    (nextSilent : ∀ value, Silent (next value)) : Silent (first >>= next) := by
  change Silent (first.bind next)
  induction first with
  | ret value => exact nextSilent value
  | throw error => exact trivial
  | panic => exact trivial
  | call op rest ih => exact ⟨silent.1, fun answer => ih answer (silent.2 answer)⟩

theorem acknowledge_silent (vector : Nat) : Silent (acknowledge vector) := by
  rw [acknowledge]
  split
  next => exact ⟨by simp, fun _ => trivial⟩
  next =>
    split
    next => exact ⟨by simp, fun _ => ⟨by simp, fun _ => trivial⟩⟩
    next => trivial

theorem interruptHandler_silent {vector : Nat} (errorCode : Nat) (quiet : ¬Prints vector) :
    Silent (interruptHandler vector errorCode) := by
  have large : ¬vector ≤ 0x1f := fun small => quiet (Or.inl small)
  have other : vector ≠ 0x21 := fun equal => quiet (Or.inr equal)
  rw [interruptHandler, if_neg (show vector ≠ 0x0e by omega), if_neg other,
    if_neg (show ¬vector ≤ 0x08 by omega), if_neg large]
  split
  next => trivial
  next => exact ⟨by simp, fun _ => trivial⟩

theorem entry_silent {vector : Nat} (errorCode : Nat) (quiet : ¬Prints vector) :
    Silent (entry vector errorCode) :=
  (interruptHandler_silent _ quiet).bind fun _ => acknowledge_silent vector

/-- A step of silent code leads to silent code. -/
theorem perform_silent {program : CpuM Unit} (silent : Silent program) (who : Owner)
    (input : Nat) (state : Option Owner × Bool) :
    Silent (perform who input program state).1 := by
  cases program with
  | ret value => exact trivial
  | throw error => exact error.elim
  | panic => exact trivial
  | call op next =>
      cases op with
      | lock => exact (silent.1 rfl).elim
      | loop => exact silent
      | setColor | write | unlock | disable | readPort | writePort => exact silent.2 _

/-! ## Runs -/

/-- The handler does not print while the interrupted code has locked `WRITER`. -/
def Cpu.Safe (cpu : Cpu) : Prop :=
  cpu.owner = some .main → ∀ program, cpu.handler = some program → Silent program

/-- A handler does not lock `WRITER` for the interrupted code. -/
theorem perform_owner {program : CpuM Unit} {input : Nat} {owner : Option Owner}
    {enabled : Bool}
    (locked : (perform .handler input program (owner, enabled)).2.1 = some .main) :
    owner = some .main := by
  cases program with
  | ret value => exact locked
  | throw error => exact error.elim
  | panic => exact locked
  | call op next =>
      cases op with
      | lock =>
          cases owner with
          | none => cases locked
          | some other => exact locked
      | unlock => cases locked
      | setColor | write | disable | readPort | writePort | loop => exact locked

theorem Cpu.Safe.step {cpu after : Cpu} {event : CpuEvent} (safe : cpu.Safe)
    (condition : cpu.NotWhileLocked event) (happens : cpu.next event = some after) :
    after.Safe := by
  cases event with
  | interrupt vector errorCode =>
      rw [Cpu.next] at happens
      split at happens
      next =>
        cases happens
        intro locked program running
        cases running
        exact entry_silent errorCode (condition vector errorCode rfl locked)
      next => cases happens
  | step input =>
      rw [Cpu.next] at happens
      split at happens
      next =>
        cases happens
        intro _ program running
        cases running
      next _ running =>
        cases happens
        intro locked program continued
        cases continued
        exact perform_silent (safe (perform_owner locked) _ running) _ _ _
      next idle =>
        cases happens
        intro _ program running
        rw [idle] at running
        cases running

theorem Cpu.Safe.run {cpu result : Cpu} {events : List CpuEvent} (safe : cpu.Safe)
    (undisturbed : cpu.Undisturbed events) (ran : cpu.run events = some result) :
    result.Safe := by
  induction events generalizing cpu with
  | nil =>
      cases ran
      exact safe
  | cons event rest ih =>
      rw [Cpu.run, Option.bind_eq_some_iff] at ran
      obtain ⟨between, happens, continued⟩ := ran
      exact ih (safe.step undisturbed.1 happens) (undisturbed.2 between happens) continued

/-- Without interrupts, nothing disturbs. -/
theorem undisturbed_steps (cpu : Cpu) (inputs : List Nat) :
    cpu.Undisturbed (List.map .step inputs) := by
  induction inputs generalizing cpu with
  | nil => exact trivial
  | cons input rest ih =>
      refine ⟨?_, fun after _ => ih after⟩
      intro vector errorCode isInterrupt
      cases isInterrupt

theorem Cpu.Safe.not_waits {cpu : Cpu} (safe : cpu.Safe) : ¬cpu.Waits := by
  intro waits
  obtain ⟨locked, program, running, pending⟩ := waits
  have silent := safe locked program running
  cases program with
  | ret value => cases pending
  | throw error => cases pending
  | panic => cases pending
  | call op next => exact silent.1 (Option.some.inj pending)

/-- No handler ever waits for the code that it has interrupted, in a run in which no
interrupt with a printing handler arrives while that code has locked `WRITER`. -/
theorem printing_does_not_deadlock (texts : List String) (events : List CpuEvent)
    (result : Cpu) (ran : (Cpu.start texts).run events = some result)
    (undisturbed : (Cpu.start texts).Undisturbed events) : ¬result.Waits := by
  have safe : (Cpu.start texts).Safe := by
    intro locked
    cases locked
  exact (safe.run undisturbed ran).not_waits

/-- The handlers of exceptions print at once. -/
theorem entry_pending {vector : Nat} (errorCode : Nat) (exception : vector ≤ 0x1f) :
    (entry vector errorCode).pending = some .lock := by
  rw [entry, interruptHandler, if_neg (show vector ≠ 0x20 by omega)]
  split
  next => rfl
  next =>
    rw [if_neg (show vector ≠ 0x21 by omega)]
    split
    next => rfl
    next => rfl

/-- An interrupt that arrives while `WRITER` is locked leads to a handler that waits exactly
if its handler prints. -/
theorem waits_iff_prints {cpu : Cpu} (locked : cpu.owner = some .main)
    (idle : cpu.handler = none) (enabled : cpu.enabled = true) {vector : Nat}
    (isVector : vector < 2 ^ 8) (errorCode : Nat) :
    (∃ inputs result, cpu.run (.interrupt vector errorCode :: List.map .step inputs) =
        some result ∧ result.Waits) ↔ Prints vector := by
  have arrives : cpu.next (.interrupt vector errorCode) =
      some { cpu with handler := some (entry vector errorCode), enabled := false } := by
    rw [Cpu.next, if_pos ⟨isVector, by rw [idle]; rfl, enabled⟩]
  constructor
  · intro waits
    obtain ⟨inputs, result, ran, waiting⟩ := waits
    by_contra quiet
    have safe : cpu.Safe := by
      intro _ program running
      rw [idle] at running
      cases running
    have undisturbed : cpu.Undisturbed
        (.interrupt vector errorCode :: List.map .step inputs) := by
      refine ⟨?_, fun after _ => undisturbed_steps after inputs⟩
      intro other _ isInterrupt _
      cases isInterrupt
      exact quiet
    exact (safe.run undisturbed ran).not_waits waiting
  · intro prints
    cases prints with
    | inl exception =>
        refine ⟨[], { cpu with handler := some (entry vector errorCode), enabled := false },
          ?_, locked, _, rfl, entry_pending errorCode exception⟩
        rw [Cpu.run, arrives]
        rfl
    | inr keyboard =>
        subst keyboard
        refine ⟨[0], { cpu with
          handler := some (do println ("Keyboard: " ++ toString 0); acknowledge 0x21)
          enabled := false }, ?_, locked, _, rfl, rfl⟩
        rw [Cpu.run, arrives]
        rfl

/-- The timer interrupt arrives while the main code prints. -/
theorem printing_does_not_deadlock_timer :
    ∃ result, (Cpu.start ["IDT is setup\n"]).run [.step 0, .interrupt 0x20 0, .step 0] =
      some result ∧ ¬result.Waits := by
  obtain ⟨result, ran⟩ : ∃ result, (Cpu.start ["IDT is setup\n"]).run
      [.step 0, .interrupt 0x20 0, .step 0] = some result := ⟨_, rfl⟩
  refine ⟨result, ran, printing_does_not_deadlock _ _ _ ran ?_⟩
  have step : ∀ (cpu : Cpu) (input : Nat), cpu.NotWhileLocked (.step input) := by
    intro cpu input vector errorCode isInterrupt
    cases isInterrupt
  refine ⟨step _ _, fun first _ => ⟨?_, fun second _ => ⟨step _ _, fun _ _ => trivial⟩⟩⟩
  intro vector errorCode isInterrupt _
  cases isInterrupt
  decide

/-- A key is pressed while the main code prints: the handler waits for `WRITER`. -/
theorem keyboard_waits_for_writer :
    ∃ result, (Cpu.start ["IDT is setup\n"]).run [.step 0, .interrupt 0x21 0, .step 0x1e] =
      some result ∧ result.Waits :=
  ⟨_, rfl, rfl, _, rfl, rfl⟩

end SatanKernel.X86
