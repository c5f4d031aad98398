import SatanKernel.X86.Console
import SatanKernel.X86.Pic

/-!
# The interrupt lines

`setup` of `arch/x86/interrupts.rs` fills the IDT and programs the interrupt controllers.
After it, devices request lines, and the CPU takes interrupts from the controllers while the
interrupt flag is set and enters them through the IDT.

Whatever the controllers and the IDT were before, a requested line is served as soon as the
interrupt flag is set, and no request is lost: the entry points of `int!` tell the
controllers of the end of each interrupt before they set the flag again.
-/

namespace SatanKernel.X86

open Lib

/-! ## The IDT -/

/-- IDT descriptor, one per interrupt. -/
structure IDTDescriptor where
  offset1 : Nat
  selector : Nat
  reserved1 : Nat
  typeAttributes : Nat
  offset2 : Nat
  deriving DecidableEq, Repr

namespace IDTDescriptor

/-- Null descriptor. -/
def NULL : IDTDescriptor := ⟨0, 0, 0, 0, 0⟩

def new (offset selector typeAttributes : Nat) : IDTDescriptor where
  offset1 := offset &&& 0xffff
  selector
  reserved1 := 0
  typeAttributes
  offset2 := offset >>> 16 &&& 0xffff

/-- The offset as the CPU reads it. -/
def target (descriptor : IDTDescriptor) : Nat :=
  descriptor.offset1 + descriptor.offset2 * 2 ^ 16

theorem target_new {offset : Nat} (small : offset < 2 ^ 32) (selector typeAttributes : Nat) :
    (new offset selector typeAttributes).target = offset := by
  change (offset &&& (2 ^ 16 - 1)) + (offset >>> 16 &&& (2 ^ 16 - 1)) * 2 ^ 16 = offset
  rw [Nat.and_two_pow_sub_one_eq_mod, Nat.and_two_pow_sub_one_eq_mod, Nat.shiftRight_eq_div_pow]
  omega

end IDTDescriptor

/-- The static `IDT`, its address, and what the CPU knows of it. -/
structure Idt where
  address : Nat
  gates : Nat → IDTDescriptor
  limit : Nat
  base : Nat

/-- The code that an interrupt enters, if its gate is a present interrupt gate into the code
segment of the kernel. -/
def Idt.entryPoint (idt : Idt) (vector : Nat) : Option Nat :=
  if idt.base = idt.address ∧ 8 * vector + 7 ≤ idt.limit ∧
      (idt.gates vector).selector = 0x08 ∧ (idt.gates vector).typeAttributes = 0x8e then
    some (idt.gates vector).target
  else none

/-! ## `setup` -/

/-- The steps of `setup`. -/
inductive IrqOp where
  | setGate (vector : Nat) (gate : IDTDescriptor)
  | lidt (limit base : Nat)
  | writePort (port value : Nat)
  /-- `sti` -/
  | enable
  deriving DecidableEq, Repr

abbrev irqSig : Signature := ⟨IrqOp, fun _ => Unit⟩

abbrev IrqM := Program irqSig Empty

/-- What these steps change. -/
structure IrqState where
  idt : Idt
  pics : Pics
  enabled : Bool

def irqHandler : Handler irqSig IrqState
  | .setGate vector gate, state => some ((), { state with
      idt := { state.idt with
        gates := fun other => if other = vector then gate else state.idt.gates other } })
  | .lidt limit base, state => some ((), { state with idt := { state.idt with limit, base } })
  | .writePort port value, state =>
      some ((), { state with pics := state.pics.write port value })
  | .enable, state => some ((), { state with enabled := true })

section Setup

def setGate (vector : Nat) (gate : IDTDescriptor) : IrqM Unit :=
  .call (.setGate vector gate) .ret

def lidt (limit base : Nat) : IrqM Unit := .call (.lidt limit base) .ret

def u8Write (port value : Nat) : IrqM Unit := .call (.writePort port value) .ret

/-- Enable interrupts. -/
def enable : IrqM Unit := .call .enable .ret

/-- Setup IDT and program the PIC, for the addresses of `int_0x00` to `int_0xff` and of the
IDT.  The text that `setup` prints at its end is left to the code that runs next. -/
def setup (isr : Nat → Nat) (idt : Nat) : IrqM Unit := do
  Program.forEach (List.range 0x100) fun vector => setGate vector (.new (isr vector) 0x08 0x8e)
  lidt (8 * 0x100 - 1) idt
  -- Remap master PIC, remap slave PIC
  u8Write 0x20 0x11
  u8Write 0xa0 0x11
  u8Write 0x21 0x20
  u8Write 0xa1 0x28
  -- Slave PIC at IRQ2, cascade identity of the slave
  u8Write 0x21 4
  u8Write 0xa1 2
  -- 8086 mode
  u8Write 0x21 0x01
  u8Write 0xa1 0x01
  -- Masks
  u8Write 0x21 0x00
  u8Write 0xa1 0x00
  enable

end Setup

/-- The interrupts enter their entry points, in the code segment of the kernel. -/
def Idt.Filled (isr : Nat → Nat) (idt : Idt) : Prop :=
  ∀ vector < 0x100, idt.entryPoint vector = some (isr vector)

theorem run_setGates (isr : Nat → Nat) (vectors : List Nat) (state : IrqState) :
    (Program.forEach vectors fun vector =>
        setGate vector (.new (isr vector) 0x08 0x8e)).run irqHandler state =
      (.ok (), { state with
        idt := { state.idt with
          gates := fun vector => if vector ∈ vectors then .new (isr vector) 0x08 0x8e
            else state.idt.gates vector } }) := by
  induction vectors generalizing state with
  | nil => simp
  | cons vector rest ih =>
      rw [Program.run_forEach_cons]
      refine (ih _).trans ?_
      simp only [Prod.mk.injEq, IrqState.mk.injEq, Idt.mk.injEq, true_and, and_true]
      funext other
      by_cases inRest : other ∈ rest
      · simp [inRest]
      · by_cases isVector : other = vector
        · simp [isVector]
        · simp [inRest, isVector]

/-- Whatever the state of the controllers was, `setup` programs them. -/
theorem programmed_setup (pics : Pics) :
    Programmed ((((((((((pics.write 0x20 0x11).write 0xa0 0x11).write 0x21 0x20).write
      0xa1 0x28).write 0x21 4).write 0xa1 2).write 0x21 0x01).write 0xa1 0x01).write
      0x21 0x00).write 0xa1 0x00) none :=
  ⟨rfl, rfl, rfl, rfl, rfl, rfl, rfl, rfl, (by decide : (0 : BitVec 8).getLsbD 2 = false)⟩

theorem run_setup {isr : Nat → Nat} (small : ∀ vector < 0x100, isr vector < 2 ^ 32)
    (state : IrqState) :
    ∃ after, (setup isr state.idt.address).run irqHandler state = (.ok (), after) ∧
      after.idt.Filled isr ∧ Programmed after.pics none ∧ after.enabled = true := by
  rw [setup, Program.run_bind, run_setGates, Outcome.andThen_ok]
  refine ⟨_, rfl, ?_, programmed_setup state.pics, rfl⟩
  intro vector isVector
  simp only [Idt.entryPoint, List.mem_range, isVector, if_true]
  rw [if_pos ⟨trivial, by omega, rfl, rfl⟩, IDTDescriptor.target_new (small vector isVector)]

/-! ## The machine with its interrupt lines -/

/-- The value that the running code writes to a port in its next step. -/
def Console.portWrite (console : Console) : Option (Nat × Nat) :=
  match console.frames with
  | [] => none
  | frame :: _ =>
      match frame.program with
      | .call (.writePort port value) _ => some (port, value)
      | _ => none

/-- The IDT, the interrupt controllers and the CPU. -/
structure System where
  idt : Idt
  pics : Pics
  console : Console

/-- A device requests a line, the CPU takes an interrupt from the controllers, an exception
arrives, or the running code makes a step. -/
inductive LineEvent where
  | raise (line : Nat)
  | take
  | fault (vector errorCode : Nat)
  | step (input : Nat)
  deriving DecidableEq, Repr

namespace System

/-- The CPU enters an interrupt through its gate.  `code` is the code at an address, with the
error code on its stack. -/
def enter (code : Nat → Nat → CpuM Unit) (system : System) (vector errorCode : Nat) :
    Option System :=
  (system.idt.entryPoint vector).map fun address =>
    { system with console := system.console.entered (code address errorCode) }

/-- The effect of an event, if it can happen. -/
def next (code : Nat → Nat → CpuM Unit) (system : System) : LineEvent → Option System
  | .raise line =>
      if line < 16 ∧ line ≠ 2 then some { system with pics := system.pics.raise line } else none
  | .take =>
      if system.console.enabled then
        system.pics.take.bind fun taken =>
          { system with pics := taken.2 }.enter code taken.1 0
      else none
  | .fault vector errorCode =>
      if vector ≤ 0x1f then system.enter code vector errorCode else none
  | .step input =>
      (system.console.next (.step input)).map fun console =>
        { system with
          console
          pics := match system.console.portWrite with
            | none => system.pics
            | some (port, value) => system.pics.write port value }

/-- The effect of a sequence of events. -/
def run (code : Nat → Nat → CpuM Unit) (system : System) : List LineEvent → Option System
  | [] => some system
  | event :: rest => (system.next code event).bind fun after => run code after rest

end System

/-! ## Code that acknowledges its interrupt -/

/-- Before it returns, the code tells the master of the end of the interrupt of a line, or
it writes to no port. -/
def Owes : CpuM Unit → Option Nat → Prop
  | .ret _, owed => owed = none
  | .throw _, _ => True
  | .panic, _ => True
  | .call (.writePort port value) next, owed => port = 0x20 ∧ value = 0x20 ∧
      (∃ line, owed = some line ∧ line < 8) ∧ Owes (next ()) none
  | .call (.readPort _) next, owed => ∀ input, Owes (next input) owed
  | .call .loop _, _ => True
  | .call .lock next, owed => Owes (next ()) owed
  | .call (.setColor _ _) next, owed => Owes (next ()) owed
  | .call (.write _) next, owed => Owes (next ()) owed
  | .call .unlock next, owed => Owes (next ()) owed
  | .call .disable next, owed => Owes (next ()) owed

section Owes

variable {owed : Option Nat}

theorem owes_print {text : String} {next : Unit → CpuM Unit} (continues : Owes (next ()) owed) :
    Owes (print text >>= next) owed :=
  continues

theorem owes_earlyPanic (location message : String) (next : Unit → CpuM Unit) :
    Owes (earlyPanic location message >>= next) owed :=
  trivial

theorem owes_forEach {texts : List String} {next : Unit → CpuM Unit}
    (continues : Owes (next ()) owed) : Owes (Program.forEach texts print >>= next) owed := by
  induction texts with
  | nil => exact continues
  | cons text rest ih =>
      change Owes (print text >>= fun _ => Program.forEach rest print >>= next) owed
      exact owes_print ih

theorem owes_mainCode (texts : List String) (ending : Option (String × String)) :
    Owes (mainCode texts ending) none := by
  apply owes_forEach
  cases ending with
  | none => exact trivial
  | some panic => exact trivial

/-- Exceptions are not acknowledged; their handlers do not return. -/
theorem owes_entry_exception {vector : Nat} (exception : vector ≤ 0x1f) (errorCode : Nat) :
    Owes (entry vector errorCode) none := by
  rw [entry, interruptHandler, if_neg (show vector ≠ 0x20 by omega),
    if_neg (show vector ≠ 0x21 by omega), if_pos exception]
  split
  next =>
    simp only [println, Program.bind_assoc]
    exact owes_print (owes_print (owes_print (owes_earlyPanic _ _ _)))
  next =>
    split
    next => exact owes_earlyPanic _ _ _
    next => exact owes_earlyPanic _ _ _

/-- The interrupt of a line is acknowledged, unless its handler does not return. -/
theorem owes_entry_line {line : Nat} (errorCode : Nat) :
    Owes (entry (0x20 + line) errorCode) (some line) := by
  rw [entry, interruptHandler]
  split
  next timer =>
    obtain rfl : line = 0 := by omega
    exact ⟨rfl, rfl, ⟨0, rfl, by decide⟩, rfl⟩
  next notTimer =>
    rw [if_neg (by omega)]
    split
    next keyboard =>
      obtain rfl : line = 1 := by omega
      rw [Program.bind_assoc]
      intro input
      exact owes_print ⟨rfl, rfl, ⟨1, rfl, by decide⟩, rfl⟩
    next notKeyboard =>
      rw [if_neg (by omega), if_neg (by omega)]
      exact trivial

end Owes

/-- The code that runs and the code that it has interrupted.  One of them serves the line
that is in service, and until it has acknowledged it the interrupt flag stays clear. -/
def Served : List Frame → Bool → Option Nat → Prop
  | [], _, line => line = none
  | frame :: below, enabled, line => (enabled = true → line = none) ∧
      ((Owes frame.program none ∧ Served below frame.resumes line) ∨
        (line ≠ none ∧ Owes frame.program line ∧ Served below frame.resumes none))

namespace Served

variable {frame : Frame} {frames below : List Frame} {enabled still : Bool} {line : Option Nat}
  {program : CpuM Unit} {console after : Console} {input : Nat}

theorem idle (served : Served frames true line) : line = none := by
  cases frames with
  | nil => exact served
  | cons frame below => exact served.1 rfl

/-- A step that acknowledges nothing. -/
theorem continued (served : Served (frame :: below) enabled line)
    (keeps : still = true → enabled = true)
    (owes : ∀ owed, Owes frame.program owed → Owes program owed) :
    Served ({ frame with program } :: below) still line := by
  refine ⟨fun isStill => served.1 (keeps isStill), ?_⟩
  cases served.2 with
  | inl owesNothing => exact Or.inl ⟨owes _ owesNothing.1, owesNothing.2⟩
  | inr owesLine => exact Or.inr ⟨owesLine.1, owes _ owesLine.2.1, owesLine.2.2⟩

/-- A step either writes to no port or acknowledges the line in service. -/
theorem step (served : Served console.frames console.enabled line)
    (happens : console.next (.step input) = some after) :
    (console.portWrite = none ∧ Served after.frames after.enabled line) ∨
      (console.portWrite = some (0x20, 0x20) ∧ (∃ inService, line = some inService ∧
        inService < 8) ∧ Served after.frames after.enabled none) := by
  obtain ⟨frames, arrived, owner, enabled, writer⟩ := console
  cases frames with
  | nil => cases happens
  | cons frame below =>
      obtain ⟨activation, program, resumes⟩ := frame
      cases Console.stepped_of_step happens with
      | ret =>
          cases served.2 with
          | inl owesNothing => exact Or.inl ⟨rfl, owesNothing.2⟩
          | inr owesLine => exact absurd owesLine.2.1 owesLine.1
      | lock | setColor | written | write | unlock =>
          exact Or.inl ⟨rfl, served.continued id fun _ owes => owes⟩
      | wait | loop => exact Or.inl ⟨rfl, served⟩
      | refused => exact Or.inl ⟨rfl, served.continued id fun _ _ => trivial⟩
      | disable =>
          exact Or.inl ⟨rfl, served.continued (fun isFalse => by cases isFalse)
            fun _ owes => owes⟩
      | readPort => exact Or.inl ⟨rfl, served.continued id fun _ owes => owes _⟩
      | writePort port value next =>
          cases served.2 with
          | inl owesNothing =>
              obtain ⟨-, -, ⟨line, isSome, -⟩, -⟩ := owesNothing.1
              cases isSome
          | inr owesLine =>
              obtain ⟨-, ⟨rfl, rfl, ofMaster, owes⟩, belowServed⟩ := owesLine
              exact Or.inr ⟨rfl, ofMaster, fun _ => rfl, Or.inl ⟨owes, belowServed⟩⟩

end Served

/-! ## Runs -/

/-- The code at the addresses of `int_0x00` to `int_0xff`. -/
structure EntryPoints (isr : Nat → Nat) (code : Nat → Nat → CpuM Unit) : Prop where
  small : ∀ vector < 0x100, isr vector < 2 ^ 32
  code_eq : ∀ vector < 0x100, code (isr vector) = entry vector

/-- What holds in every state of the machine: at most one line is in service. -/
structure Serving (isr : Nat → Nat) (line : Option Nat) (system : System) : Prop where
  idt : system.idt.Filled isr
  pics : Programmed system.pics line
  frames : Served system.console.frames system.console.enabled line

namespace Serving

variable {isr : Nat → Nat} {code : Nat → Nat → CpuM Unit} {line : Option Nat}
  {system after : System}

/-- While the interrupt flag is set, no line is in service. -/
theorem idle (serving : Serving isr line system) (enabled : system.console.enabled = true) :
    line = none := by
  have frames := serving.frames
  rw [enabled] at frames
  exact frames.idle

/-- The CPU enters the entry point of the interrupt. -/
theorem enter_eq (system : System) (filled : system.idt.Filled isr)
    (points : EntryPoints isr code) {vector : Nat} (isVector : vector < 0x100)
    (errorCode : Nat) :
    system.enter code vector errorCode =
      some { system with console := system.console.entered (entry vector errorCode) } := by
  rw [System.enter, filled vector isVector, Option.map_some, points.code_eq vector isVector]

/-- What an event does. -/
theorem next_cases (serving : Serving isr line system) (points : EntryPoints isr code)
    {event : LineEvent} (happens : system.next code event = some after) :
    (∃ raised, event = .raise raised ∧ raised ≠ 2 ∧
      after = { system with pics := system.pics.raise raised }) ∨
    (∃ taking pics, event = .take ∧ system.console.enabled = true ∧ taking < 16 ∧
      system.pics.take = some (0x20 + taking, pics) ∧
      after = { system with pics, console := system.console.entered (entry (0x20 + taking) 0) }) ∨
    (∃ vector errorCode, event = .fault vector errorCode ∧ vector ≤ 0x1f ∧
      after = { system with console := system.console.entered (entry vector errorCode) }) ∨
    (∃ input console pics, event = .step input ∧
      system.console.next (.step input) = some console ∧ after = { system with console, pics } ∧
      ((pics = system.pics ∧ Served console.frames console.enabled line) ∨
        (pics = system.pics.write 0x20 0x20 ∧ (∃ inService, line = some inService ∧
          inService < 8) ∧ Served console.frames console.enabled none))) := by
  cases event with
  | raise raised =>
      rw [System.next] at happens
      split at happens
      next isLine =>
        cases happens
        exact Or.inl ⟨raised, rfl, isLine.2, rfl⟩
      next => cases happens
  | take =>
      rw [System.next] at happens
      split at happens
      next enabled =>
        obtain ⟨⟨vector, pics⟩, taken, entered⟩ := Option.bind_eq_some_iff.mp happens
        obtain rfl := serving.idle enabled
        obtain ⟨taking, isLine, rfl, -⟩ := serving.pics.take taken
        rw [enter_eq { system with pics } serving.idt points
          (show 0x20 + taking < 0x100 by omega)] at entered
        cases entered
        exact Or.inr (Or.inl ⟨taking, pics, rfl, enabled, isLine, taken, rfl⟩)
      next => cases happens
  | fault vector errorCode =>
      rw [System.next] at happens
      split at happens
      next exception =>
        rw [enter_eq system serving.idt points (by omega)] at happens
        cases happens
        exact Or.inr (Or.inr (Or.inl ⟨vector, errorCode, rfl, exception, rfl⟩))
      next => cases happens
  | step input =>
      rw [System.next] at happens
      obtain ⟨console, stepped, isAfter⟩ := Option.map_eq_some_iff.mp happens
      refine Or.inr (Or.inr (Or.inr ⟨input, console, _, rfl, stepped, isAfter.symm, ?_⟩))
      cases serving.frames.step stepped with
      | inl quiet =>
          rw [quiet.1]
          exact Or.inl ⟨rfl, quiet.2⟩
      | inr acknowledged =>
          rw [acknowledged.1]
          exact Or.inr ⟨rfl, acknowledged.2⟩

theorem next (serving : Serving isr line system) (points : EntryPoints isr code)
    {event : LineEvent} (happens : system.next code event = some after) :
    ∃ afterLine, Serving isr afterLine after := by
  obtain ⟨raised, -, notTwo, rfl⟩ | ⟨taking, pics, -, enabled, -, taken, rfl⟩ |
    ⟨vector, errorCode, -, exception, rfl⟩ | ⟨input, console, pics, -, -, rfl, moved⟩ :=
    serving.next_cases points happens
  · exact ⟨line, serving.idt, serving.pics.raise notTwo, serving.frames⟩
  · obtain rfl := serving.idle enabled
    obtain ⟨served, -, sameVector, -, programmed, -⟩ := serving.pics.take taken
    obtain rfl : taking = served := Nat.add_left_cancel sameVector
    exact ⟨some taking, serving.idt, programmed, fun isFalse => (Bool.false_ne_true isFalse).elim,
      Or.inr ⟨Option.some_ne_none _, owes_entry_line 0, serving.frames⟩⟩
  · exact ⟨line, serving.idt, serving.pics, fun isFalse => (Bool.false_ne_true isFalse).elim,
      Or.inl ⟨owes_entry_exception exception errorCode, serving.frames⟩⟩
  · obtain ⟨rfl, frames⟩ | ⟨rfl, ⟨inService, rfl, ofMaster⟩, frames⟩ := moved
    · exact ⟨line, serving.idt, serving.pics, frames⟩
    · exact ⟨none, serving.idt, serving.pics.endOfInterrupt ofMaster, frames⟩

/-- For the CPU, an event is an interrupt, a step or nothing. -/
theorem next_console (serving : Serving isr line system) (points : EntryPoints isr code)
    {event : LineEvent} (happens : system.next code event = some after) :
    ∃ events, system.console.run events = some after.console := by
  obtain ⟨raised, -, -, rfl⟩ | ⟨taking, pics, -, enabled, isLine, -, rfl⟩ |
    ⟨vector, errorCode, -, exception, rfl⟩ | ⟨input, console, pics, -, stepped, rfl, -⟩ :=
    serving.next_cases points happens
  · exact ⟨[], rfl⟩
  · refine ⟨[.interrupt (0x20 + taking) 0], ?_⟩
    rw [Console.run, Console.next, if_pos ⟨by omega, Or.inr enabled⟩]
    rfl
  · refine ⟨[.interrupt vector errorCode], ?_⟩
    rw [Console.run, Console.next, if_pos ⟨by omega, Or.inl exception⟩]
    rfl
  · refine ⟨[.step input], ?_⟩
    rw [Console.run, stepped]
    rfl

/-- A requested line stays so until the CPU takes its interrupt. -/
theorem next_requested (serving : Serving isr line system) (points : EntryPoints isr code)
    {event : LineEvent} (happens : system.next code event = some after) {waiting : Nat}
    (requested : system.pics.Requested waiting) :
    after.pics.Requested waiting ∨ event = .take ∧
      after.console = system.console.entered (entry (0x20 + waiting) 0) := by
  obtain ⟨raised, -, -, rfl⟩ | ⟨taking, pics, rfl, enabled, -, taken, rfl⟩ |
    ⟨vector, errorCode, -, -, rfl⟩ | ⟨input, console, pics, -, -, rfl, moved⟩ :=
    serving.next_cases points happens
  · exact Or.inl (Programmed.raise_requested requested)
  · obtain rfl := serving.idle enabled
    obtain ⟨served, -, sameVector, -, -, -, keeps⟩ := serving.pics.take taken
    obtain rfl : taking = served := Nat.add_left_cancel sameVector
    by_cases isTaken : waiting = taking
    · subst isTaken
      exact Or.inr ⟨rfl, rfl⟩
    · exact Or.inl (keeps waiting isTaken requested)
  · exact Or.inl requested
  · obtain ⟨rfl, -⟩ | ⟨rfl, -⟩ := moved
    · exact Or.inl requested
    · exact Or.inl requested

theorem run (serving : Serving isr line system) (points : EntryPoints isr code)
    {events : List LineEvent} (ran : system.run code events = some after) :
    (∃ afterLine, Serving isr afterLine after) ∧
      ∃ cpuEvents, system.console.run cpuEvents = some after.console := by
  induction events generalizing system line with
  | nil =>
      cases ran
      exact ⟨⟨line, serving⟩, [], rfl⟩
  | cons event rest ih =>
      rw [System.run, Option.bind_eq_some_iff] at ran
      obtain ⟨between, happens, continued⟩ := ran
      obtain ⟨first, firstRan⟩ := serving.next_console points happens
      obtain ⟨betweenLine, kept⟩ := serving.next points happens
      obtain ⟨result, second, secondRan⟩ := ih kept continued
      exact ⟨result, first ++ second, Console.run_append firstRan secondRan⟩

/-- In the course of a run the interrupt of a requested line is taken, or the line is
requested until the end. -/
theorem run_requested (serving : Serving isr line system) (points : EntryPoints isr code)
    {events : List LineEvent} (ran : system.run code events = some after) {waiting : Nat}
    (requested : system.pics.Requested waiting) :
    after.pics.Requested waiting ∨ ∃ first rest between taken,
      events = first ++ .take :: rest ∧ system.run code first = some between ∧
      between.next code .take = some taken ∧
      taken.console = between.console.entered (entry (0x20 + waiting) 0) := by
  induction events generalizing system line with
  | nil =>
      cases ran
      exact Or.inl requested
  | cons event rest ih =>
      rw [System.run, Option.bind_eq_some_iff] at ran
      obtain ⟨between, happens, continued⟩ := ran
      cases serving.next_requested points happens requested with
      | inr isTaken =>
          obtain ⟨rfl, entered⟩ := isTaken
          exact Or.inr ⟨[], rest, system, between, rfl, rfl, happens, entered⟩
      | inl still =>
          obtain ⟨betweenLine, kept⟩ := serving.next points happens
          refine (ih kept continued still).imp_right fun later => ?_
          obtain ⟨first, tail, middle, taken, split, ran, takes, entered⟩ := later
          refine ⟨event :: first, tail, middle, taken, ?_, ?_, takes, entered⟩
          · rw [split, List.cons_append]
          · rw [System.run, happens]
            exact ran

end Serving

/-- The machine after `setup`, before the code that prints runs. -/
def System.start (state : IrqState) (texts : List String) (ending : Option (String × String))
    (buffer : Buffer) : System :=
  ⟨state.idt, state.pics, Console.start texts ending state.enabled buffer⟩

theorem serving_start {isr : Nat → Nat} {code : Nat → Nat → CpuM Unit}
    (points : EntryPoints isr code) {before state : IrqState}
    (set : (setup isr before.idt.address).run irqHandler before = (.ok (), state))
    (texts : List String) (ending : Option (String × String)) (buffer : Buffer) :
    Serving isr none (System.start state texts ending buffer) ∧ state.enabled = true := by
  obtain ⟨programmed, programmedRan, filled, pics, enabled⟩ := run_setup points.small before
  rw [set] at programmedRan
  obtain rfl : state = programmed := congrArg Prod.snd programmedRan
  exact ⟨⟨filled, pics, fun _ => rfl, Or.inl ⟨owes_mainCode texts ending, rfl⟩⟩, enabled⟩

/-- Whatever the controllers and the IDT were before `setup`, and whatever happens after it:
the CPU runs as one that is interrupted now and then, and whenever the interrupt flag is set,
no line is in service, and if a line is requested the CPU can take the interrupt of the
requested line of the highest priority, which enters the entry point of its vector. -/
theorem interrupt_lines_served {isr : Nat → Nat} {code : Nat → Nat → CpuM Unit}
    (points : EntryPoints isr code) (before state : IrqState)
    (set : (setup isr before.idt.address).run irqHandler before = (.ok (), state))
    (texts : List String) (ending : Option (String × String)) (buffer : Buffer)
    (events : List LineEvent) (result : System)
    (ran : (System.start state texts ending buffer).run code events = some result) :
    (∃ cpuEvents, (Console.start texts ending true buffer).run cpuEvents = some result.console) ∧
      (result.console.enabled = true →
        result.pics.master.inService = 0 ∧ result.pics.slave.inService = 0 ∧
        ∀ line, result.pics.Requested line → ∃ served after,
          result.pics.Requested served ∧
            (∀ other, result.pics.Requested other → priority served ≤ priority other) ∧
            result.next code .take = some after ∧
            after.console = result.console.entered (entry (0x20 + served) 0)) := by
  obtain ⟨begins, enabled⟩ := serving_start points set texts ending buffer
  obtain ⟨⟨line, serving⟩, cpuEvents, cpuRan⟩ := begins.run points ran
  refine ⟨⟨cpuEvents, ?_⟩, fun isEnabled => ?_⟩
  · rw [System.start, enabled] at cpuRan
    exact cpuRan
  · obtain rfl := serving.idle isEnabled
    refine ⟨serving.pics.masterInService, serving.pics.slaveInService, fun line requested => ?_⟩
    obtain ⟨⟨vector, after⟩, taken⟩ :=
      Option.isSome_iff_exists.mp (serving.pics.take_isSome requested)
    obtain ⟨served, isLine, rfl, isRequested, -, first, -⟩ := serving.pics.take taken
    have entered := Serving.enter_eq { result with pics := after } serving.idt points
      (show 0x20 + served < 0x100 by omega) 0
    refine ⟨served, _, isRequested, first, Eq.trans ?_ entered, rfl⟩
    rw [System.next, if_pos isEnabled, taken, Option.bind_some]

/-- Entry points of 16 bytes each. -/
def isrAt (vector : Nat) : Nat := 0x100000 + 16 * vector

def codeAt (address : Nat) : Nat → CpuM Unit := entry ((address - 0x100000) / 16)

theorem entryPoints_at : EntryPoints isrAt codeAt := by
  refine ⟨fun vector isVector => ?_, fun vector _ => ?_⟩
  · rw [isrAt]
    omega
  · rw [codeAt, isrAt, Nat.add_sub_cancel_left, Nat.mul_div_cancel_left vector (by decide)]

/-- Controllers that wait for a word of their initialization, and an empty IDT. -/
def beforeSetup : IrqState :=
  let pic : Pic := ⟨5, 8, 0xff, 8, 0, .mode⟩
  ⟨⟨0x2000, fun _ => IDTDescriptor.NULL, 0, 0⟩, ⟨pic, pic⟩, false⟩

def afterSetup : IrqState := ((setup isrAt 0x2000).run irqHandler beforeSetup).2

theorem run_setup_at : (setup isrAt 0x2000).run irqHandler beforeSetup = (.ok (), afterSetup) := by
  obtain ⟨state, ran, -⟩ := run_setup entryPoints_at.small beforeSetup
  have ran : (setup isrAt 0x2000).run irqHandler beforeSetup = (.ok (), state) := ran
  rw [afterSetup, ran]

/-- A key and two further lines, one of them while the handler of the key runs. -/
theorem interrupt_lines_served_key :
    let events := [LineEvent.raise 14, .raise 1, .take, .step 30, .raise 8] ++
      List.replicate 18 (.step 0)
    ∃ result, (System.start afterSetup ["Hi"] none fun _ _ => ⟨0, 0⟩).run codeAt events =
        some result ∧
      result.console.enabled = true ∧ result.pics.master.inService = 0 ∧
      ∃ after, result.next codeAt .take = some after ∧
        after.console = result.console.entered (entry (0x20 + 8) 0) := by
  intro events
  have facts : ((System.start afterSetup ["Hi"] none fun _ _ => ⟨0, 0⟩).run codeAt events).map
      (fun result => (result.console.enabled, result.pics.master.requested,
        result.pics.slave.requested)) = some (true, 0, 0x41) := by
    decide +kernel
  obtain ⟨result, ran, values⟩ := Option.map_eq_some_iff.mp facts
  simp only [Prod.mk.injEq] at values
  obtain ⟨enabled, ofMaster, ofSlave⟩ := values
  obtain ⟨masterIdle, -, serves⟩ := (interrupt_lines_served entryPoints_at beforeSetup
    afterSetup run_setup_at ["Hi"] none _ events result ran).2 enabled
  have requested : result.pics.Requested 8 := Or.inr ⟨Nat.le_refl 8, by rw [ofSlave]; decide⟩
  obtain ⟨served, after, isRequested, first, taken, entered⟩ := serves 8 requested
  have isEight : served = 8 := by
    cases isRequested with
    | inl byMaster =>
        rw [ofMaster] at byMaster
        simp at byMaster
    | inr bySlave =>
        have early := first 8 requested
        simp only [priority] at early
        split_ifs at early <;> omega
  rw [isEight] at entered
  exact ⟨result, ran, enabled, masterIdle, after, taken, entered⟩

/-- Once a line is requested, the CPU takes its interrupt and enters its entry point, or the
line is still requested. -/
theorem requests_not_lost {isr : Nat → Nat} {code : Nat → Nat → CpuM Unit}
    (points : EntryPoints isr code) (before state : IrqState)
    (set : (setup isr before.idt.address).run irqHandler before = (.ok (), state))
    (texts : List String) (ending : Option (String × String)) (buffer : Buffer)
    (events more : List LineEvent) (middle result : System)
    (ran : (System.start state texts ending buffer).run code events = some middle)
    (continued : middle.run code more = some result)
    (line : Nat) (requested : middle.pics.Requested line) :
    result.pics.Requested line ∨ ∃ first rest between taken,
      more = first ++ .take :: rest ∧ middle.run code first = some between ∧
      between.next code .take = some taken ∧
      taken.console = between.console.entered (entry (0x20 + line) 0) := by
  obtain ⟨begins, -⟩ := serving_start points set texts ending buffer
  obtain ⟨⟨inService, serving⟩, -⟩ := begins.run points ran
  exact serving.run_requested points continued requested

/-- A disk that requests its line before a key is pressed waits for the handler of the key. -/
theorem requests_not_lost_disk :
    let more := LineEvent.step 30 :: List.replicate 18 (.step 0) ++ [.take, .step 0]
    ∃ middle result, (System.start afterSetup ["Hi"] none fun _ _ => ⟨0, 0⟩).run codeAt
        [.raise 14, .raise 1, .take] = some middle ∧
      middle.run codeAt more = some result ∧ ∃ first rest between taken,
      more = first ++ .take :: rest ∧ middle.run codeAt first = some between ∧
      between.next codeAt .take = some taken ∧
      taken.console = between.console.entered (entry (0x20 + 14) 0) := by
  intro more
  have facts : ((System.start afterSetup ["Hi"] none fun _ _ => ⟨0, 0⟩).run codeAt
      [.raise 14, .raise 1, .take]).bind (fun middle => (middle.run codeAt more).map fun result =>
        (middle.pics.slave.requested, result.pics.slave.requested)) = some (0x40, 0) := by
    decide +kernel
  obtain ⟨middle, ran, rest⟩ := Option.bind_eq_some_iff.mp facts
  obtain ⟨result, continued, values⟩ := Option.map_eq_some_iff.mp rest
  obtain ⟨early, late⟩ := Prod.mk.inj values
  have requested : middle.pics.Requested 14 := Or.inr ⟨by decide, by rw [early]; decide⟩
  refine ⟨middle, result, ran, continued, ?_⟩
  cases requests_not_lost entryPoints_at beforeSetup afterSetup run_setup_at ["Hi"] none _ _ more
    middle result ran continued 14 requested with
  | inl still =>
      cases still with
      | inl ofMaster => exact absurd ofMaster.1 (by decide)
      | inr ofSlave =>
          rw [late] at ofSlave
          simp at ofSlave
  | inr taken => exact taken

end SatanKernel.X86
