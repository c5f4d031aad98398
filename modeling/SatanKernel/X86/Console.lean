import SatanKernel.X86.Interrupts

/-!
# Interrupted code that prints

The kernel prints one character after the other, and an interrupt can arrive between any two
of them, also within the handler of another one: exceptions always, the others while the
interrupt flag is set.  Handlers print as well, as long as `WRITER` is free.

What the main code and the handlers may print is the script of each of them, which their
code follows.
-/

namespace SatanKernel.X86

open Lib

/-! ## The machine -/

/-- Code that runs, the number of the activation that it belongs to, and the interrupt flag
that it gives back when it returns. -/
structure Frame where
  activation : Nat
  program : CpuM Unit
  resumes : Bool

/-- The code that runs and below it what it has interrupted, the number of activations so
far, the one that has locked `WRITER`, the interrupt flag and `WRITER` itself. -/
structure Console where
  frames : List Frame
  arrived : Nat
  owner : Option Nat
  enabled : Bool
  writer : Writer

namespace Console

/-- The code that runs has made a step. -/
def continued (console : Console) (frame : Frame) (below : List Frame)
    (program : CpuM Unit) : Console :=
  { console with frames := { frame with program } :: below }

/-- A step of the code that runs.  A text is written one character at a time; a character
outside of the buffer is a panic. -/
def step (console : Console) (input : Nat) (frame : Frame) (below : List Frame) :
    Option Console :=
  match frame.program with
  | .ret () => some { console with frames := below, enabled := frame.resumes }
  | .throw error => error.elim
  | .panic => none
  | .call .lock next =>
      if console.owner.isNone then
        some { console.continued frame below (next ()) with owner := some frame.activation }
      else some console
  | .call (.setColor foreground background) next =>
      some { console.continued frame below (next ()) with
        writer := console.writer.setColor foreground background }
  | .call (.write text) next =>
      match text.toList with
      | [] => some (console.continued frame below (next ()))
      | ch :: rest =>
          match console.writer.write ch.toUInt8 with
          | none => some (console.continued frame below .panic)
          | some writer =>
              some { console.continued frame below
                (.call (.write (String.ofList rest)) next) with writer }
  | .call .unlock next => some { console.continued frame below (next ()) with owner := none }
  | .call .disable next => some { console.continued frame below (next ()) with enabled := false }
  | .call (.readPort _) next => some (console.continued frame below (next (input % 2 ^ 8)))
  | .call (.writePort _ _) next => some (console.continued frame below (next ()))
  | .call .loop _ => some console

/-- The CPU has entered the handler of an interrupt, which clears the interrupt flag. -/
def entered (console : Console) (handler : CpuM Unit) : Console :=
  { console with
    frames := ⟨console.arrived, handler, console.enabled⟩ :: console.frames
    arrived := console.arrived + 1
    enabled := false }

/-- The effect of an event, if it can happen. -/
def next (console : Console) : CpuEvent → Option Console
  | .interrupt vector errorCode =>
      if vector < 2 ^ 8 ∧ (vector ≤ 0x1f ∨ console.enabled = true) then
        some (console.entered (entry vector errorCode))
      else none
  | .step input =>
      match console.frames with
      | [] => none
      | frame :: below => console.step input frame below

/-- The effect of a sequence of events. -/
def run (console : Console) : List CpuEvent → Option Console
  | [] => some console
  | event :: rest => (console.next event).bind fun after => run after rest

theorem run_append {console between after : Console} {first second : List CpuEvent}
    (firstRan : console.run first = some between) (secondRan : between.run second = some after) :
    console.run (first ++ second) = some after := by
  induction first generalizing console with
  | nil =>
      cases firstRan
      exact secondRan
  | cons event rest ih =>
      rw [run, Option.bind_eq_some_iff] at firstRan
      obtain ⟨middle, happens, continued⟩ := firstRan
      rw [List.cons_append, run, happens]
      exact ih continued

/-- What a step of the code of an activation does. -/
inductive Stepped (console : Console) (input activation : Nat) (resumes : Bool)
    (below : List Frame) : CpuM Unit → Console → Prop where
  | ret : Stepped console input activation resumes below (.ret ())
      { console with frames := below, enabled := resumes }
  | lock (next : Unit → CpuM Unit) (free : console.owner = none) :
      Stepped console input activation resumes below (.call .lock next)
        { console with
          frames := ⟨activation, next (), resumes⟩ :: below, owner := some activation }
  | wait (next : Unit → CpuM Unit) (taken : console.owner ≠ none) :
      Stepped console input activation resumes below (.call .lock next) console
  | setColor (foreground background : Color) (next : Unit → CpuM Unit) :
      Stepped console input activation resumes below
        (.call (.setColor foreground background) next)
        { console with
          frames := ⟨activation, next (), resumes⟩ :: below
          writer := console.writer.setColor foreground background }
  | written (text : String) (next : Unit → CpuM Unit) (noChars : text.toList = []) :
      Stepped console input activation resumes below (.call (.write text) next)
        { console with frames := ⟨activation, next (), resumes⟩ :: below }
  | write (text : String) (next : Unit → CpuM Unit) (ch : Char) (rest : List Char)
      (writer : Writer) (chars : text.toList = ch :: rest)
      (wrote : console.writer.write ch.toUInt8 = some writer) :
      Stepped console input activation resumes below (.call (.write text) next)
        { console with
          frames := ⟨activation, .call (.write (String.ofList rest)) next, resumes⟩ :: below
          writer }
  | refused (text : String) (next : Unit → CpuM Unit) (ch : Char) (rest : List Char)
      (chars : text.toList = ch :: rest) (outside : console.writer.write ch.toUInt8 = none) :
      Stepped console input activation resumes below (.call (.write text) next)
        { console with frames := ⟨activation, .panic, resumes⟩ :: below }
  | unlock (next : Unit → CpuM Unit) :
      Stepped console input activation resumes below (.call .unlock next)
        { console with frames := ⟨activation, next (), resumes⟩ :: below, owner := none }
  | disable (next : Unit → CpuM Unit) :
      Stepped console input activation resumes below (.call .disable next)
        { console with frames := ⟨activation, next (), resumes⟩ :: below, enabled := false }
  | readPort (port : Nat) (next : Nat → CpuM Unit) :
      Stepped console input activation resumes below (.call (.readPort port) next)
        { console with frames := ⟨activation, next (input % 2 ^ 8), resumes⟩ :: below }
  | writePort (port value : Nat) (next : Unit → CpuM Unit) :
      Stepped console input activation resumes below (.call (.writePort port value) next)
        { console with frames := ⟨activation, next (), resumes⟩ :: below }
  | loop (next : Unit → CpuM Unit) :
      Stepped console input activation resumes below (.call .loop next) console

theorem stepped_of_step {console after : Console} {input activation : Nat} {resumes : Bool}
    {below : List Frame} {program : CpuM Unit}
    (happens : console.step input ⟨activation, program, resumes⟩ below = some after) :
    Stepped console input activation resumes below program after := by
  cases program with
  | ret value =>
      cases happens
      exact .ret
  | throw error => exact error.elim
  | panic => cases happens
  | call op next =>
      cases op with
      | lock =>
          simp only [Console.step] at happens
          split at happens
          next free =>
            cases happens
            exact .lock next (Option.isNone_iff_eq_none.mp free)
          next taken =>
            cases happens
            exact .wait next fun free => taken (Option.isNone_iff_eq_none.mpr free)
      | setColor foreground background =>
          cases happens
          exact .setColor foreground background next
      | write text =>
          simp only [Console.step] at happens
          split at happens
          next noChars =>
            cases happens
            exact .written text next noChars
          next ch rest chars =>
            split at happens
            next outside =>
              cases happens
              exact .refused text next ch rest chars outside
            next writer wrote =>
              cases happens
              exact .write text next ch rest writer chars wrote
      | unlock =>
          cases happens
          exact .unlock next
      | disable =>
          cases happens
          exact .disable next
      | readPort port =>
          cases happens
          exact .readPort port next
      | writePort port value =>
          cases happens
          exact .writePort port value next
      | loop =>
          cases happens
          exact .loop next

end Console

/-! ## Messages -/

/-- What one `print!` or one panic writes. -/
inductive Message where
  | print (text : String)
  | panic (location message : String)
  deriving DecidableEq, Repr

/-- `write_str`: one character after the other, each of them cast to a byte. -/
def textCalls (text : String) : List LoggerCall := text.toList.map fun ch => .write ch.toUInt8

/-- The calls on the writer. -/
def Message.calls : Message → List LoggerCall
  | .print text => textCalls text
  | .panic location message =>
      .setColor .red .black :: textCalls ("panicked at " ++ location ++ ":\n" ++ message)

/-- The messages of a handler, which reads `input` from the keyboard. -/
def handlerMessages (vector errorCode input : Nat) : List Message :=
  if vector = 0x20 then []
  else if vector = 0x0e then
    [.print ("Page fault!\nError code:\n" ++
        formatBits (if pushesErrorCode vector then errorCode else 0) ++ "\n"),
      .print "                ^        ^^IRUWP\n",
      .print "               SGX      SSPK    \n",
      .panic "src/arch/x86/interrupts.rs:43:9" "Halt"]
  else if vector = 0x21 then [.print ("Keyboard: " ++ toString (input % 2 ^ 8) ++ "\n")]
  else if vector ≤ 0x08 then
    [.panic "src/arch/x86/interrupts.rs:52:9" ("Double fault!!!\nError code: " ++
      formatHex (if pushesErrorCode vector then errorCode else 0))]
  else if vector ≤ 0x1f then
    [.panic "src/arch/x86/interrupts.rs:55:9" ("Unhandled exception: " ++ formatHex vector ++
      "\nError code: " ++ formatHex (if pushesErrorCode vector then errorCode else 0))]
  else []

/-- The sequences of messages that code can write. -/
abbrev Script := List Message → Prop

/-- The handler of an interrupt, for some input from the keyboard. -/
def handlerScript (vector errorCode : Nat) : Script := fun messages =>
  ∃ input, messages = handlerMessages vector errorCode input

/-- Code that prints, after which it may panic; it does not return. -/
def mainCode (texts : List String) (ending : Option (String × String)) : CpuM Unit := do
  Program.forEach texts print
  match ending with
  | some (location, message) => earlyPanic location message
  | none => loopForever

def mainScript (texts : List String) (ending : Option (String × String)) : Script := fun messages =>
  messages = texts.map .print ++ ending.toList.map fun panic => .panic panic.1 panic.2

/-- Code that prints, before any interrupt, and `WRITER` as it is initialized. -/
def Console.start (texts : List String) (ending : Option (String × String)) (enabled : Bool)
    (buffer : Buffer) : Console where
  frames := [⟨0, mainCode texts ending, enabled⟩]
  arrived := 1
  owner := none
  enabled
  writer := ⟨0, 0x0f, buffer⟩

/-! ## Code that follows a script -/

/-- The code, which has written some messages and is perhaps within a further one, goes on
as the script says.  It gives the lock back after a `print!`, and not after a panic. -/
def Speaks (script : Script) : CpuM Unit → List Message → Option (List LoggerCall) → Prop
  | .ret _, said, none => script said
  | .call .lock next, said, none => Speaks script (next ()) said (some [])
  | .call (.write text) next, said, some written =>
      Speaks script (next ()) said (some (written ++ textCalls text))
  | .call (.setColor foreground background) next, said, some written =>
      Speaks script (next ()) said (some (written ++ [.setColor foreground background]))
  | .call .unlock next, said, some written => ∃ text, written = textCalls text ∧
      Speaks script (next ()) (said ++ [.print text]) none
  | .call .disable next, said, phase => Speaks script (next ()) said phase
  | .call (.readPort _) next, said, none =>
      ∀ input, Speaks script (next (input % 2 ^ 8)) said none
  | .call (.writePort _ _) next, said, none => Speaks script (next ()) said none
  | .call .loop _, said, none => script said
  | .call .loop _, said, some written => ∃ location message,
      written = (Message.panic location message).calls ∧
        script (said ++ [.panic location message])
  | _, _, _ => False

section Speaks

variable {script : Script} {said : List Message} {next : Unit → CpuM Unit}

theorem speaks_print {text : String}
    (continues : Speaks script (next ()) (said ++ [.print text]) none) :
    Speaks script (print text >>= next) said none :=
  ⟨text, rfl, continues⟩

theorem speaks_earlyPanic {location message : String}
    (ends : script (said ++ [.panic location message])) :
    Speaks script (earlyPanic location message >>= next) said none :=
  ⟨location, message, rfl, ends⟩

theorem speaks_forEach {texts : List String}
    (continues : Speaks script (next ()) (said ++ texts.map .print) none) :
    Speaks script (Program.forEach texts print >>= next) said none := by
  induction texts generalizing said with
  | nil =>
      rw [List.map_nil, List.append_nil] at continues
      exact continues
  | cons text rest ih =>
      have assoc : said ++ (text :: rest).map .print =
          (said ++ [.print text]) ++ rest.map .print := by
        rw [List.map_cons, List.append_assoc, List.singleton_append]
      rw [assoc] at continues
      change Speaks script (print text >>= fun _ => Program.forEach rest print >>= next) said none
      exact speaks_print (ih continues)

theorem speaks_mainCode (texts : List String) (ending : Option (String × String)) :
    Speaks (mainScript texts ending) (mainCode texts ending) [] none := by
  apply speaks_forEach
  cases ending with
  | none => exact (List.append_nil _).symm
  | some panic => exact ⟨panic.1, panic.2, rfl, rfl⟩

theorem speaks_acknowledge {vector : Nat} (ends : script said) :
    Speaks script (acknowledge vector) said none := by
  rw [acknowledge]
  split
  next => exact ends
  next =>
    split
    next => exact ends
    next => exact ends

theorem speaks_entry (vector errorCode : Nat) :
    Speaks (handlerScript vector errorCode) (entry vector errorCode) [] none := by
  rw [entry, interruptHandler]
  simp only [println]
  split
  next timer =>
    apply speaks_acknowledge
    exact ⟨0, by rw [handlerMessages, if_pos timer]⟩
  next notTimer =>
    split
    next pageFault =>
      simp only [Program.bind_assoc]
      refine speaks_print (speaks_print (speaks_print (speaks_earlyPanic ⟨0, ?_⟩)))
      rw [handlerMessages, if_neg notTimer, if_pos pageFault]
      rfl
    next notPageFault =>
      split
      next keyboard =>
        rw [Program.bind_assoc]
        intro input
        refine speaks_print (speaks_acknowledge ⟨input, ?_⟩)
        rw [handlerMessages, if_neg notTimer, if_neg notPageFault, if_pos keyboard]
        rfl
      next notKeyboard =>
        split
        next doubleFault =>
          refine speaks_earlyPanic ⟨0, ?_⟩
          rw [handlerMessages, if_neg notTimer, if_neg notPageFault, if_neg notKeyboard,
            if_pos doubleFault]
          rfl
        next notDoubleFault =>
          split
          next exception =>
            refine speaks_earlyPanic ⟨0, ?_⟩
            rw [handlerMessages, if_neg notTimer, if_neg notPageFault, if_neg notKeyboard,
              if_neg notDoubleFault, if_pos exception]
            rfl
          next other =>
            refine ⟨0, ?_⟩
            rw [handlerMessages, if_neg notTimer, if_neg notPageFault, if_neg notKeyboard,
              if_neg notDoubleFault, if_neg other]

/-- Whatever the code has written is the beginning of what it may write. -/
theorem Speaks.beginning {program : CpuM Unit} {phase : Option (List LoggerCall)}
    (speaks : Speaks script program said phase) :
    ∃ full, script full ∧ said <+: full := by
  induction program generalizing said phase with
  | ret value =>
      cases phase with
      | none => exact ⟨said, speaks, List.prefix_refl said⟩
      | some written => exact speaks.elim
  | throw error => exact error.elim
  | panic => cases phase <;> exact speaks.elim
  | call op next ih =>
      have longer {message : Message} (speaks : ∃ full, script full ∧ said ++ [message] <+: full) :
          ∃ full, script full ∧ said <+: full := by
        obtain ⟨full, isScript, isPrefix⟩ := speaks
        exact ⟨full, isScript, (List.prefix_append said [message]).trans isPrefix⟩
      cases op with
      | lock =>
          cases phase with
          | none => exact ih () speaks
          | some written => exact speaks.elim
      | setColor foreground background =>
          cases phase with
          | none => exact speaks.elim
          | some written => exact ih () speaks
      | write text =>
          cases phase with
          | none => exact speaks.elim
          | some written => exact ih () speaks
      | unlock =>
          cases phase with
          | none => exact speaks.elim
          | some written =>
              obtain ⟨text, -, continues⟩ := speaks
              exact longer (ih () continues)
      | disable => cases phase <;> exact ih () speaks
      | readPort port =>
          cases phase with
          | none => exact ih _ (speaks 0)
          | some written => exact speaks.elim
      | writePort port value =>
          cases phase with
          | none => exact ih () speaks
          | some written => exact speaks.elim
      | loop =>
          cases phase with
          | none => exact ⟨said, speaks, List.prefix_refl said⟩
          | some written =>
              obtain ⟨location, message, -, ends⟩ := speaks
              exact longer ⟨_, ends, List.prefix_refl _⟩

/-- A message that is being written is one of those that the code may write. -/
theorem Speaks.writing {program : CpuM Unit} {written : List LoggerCall}
    (speaks : Speaks script program said (some written)) :
    ∃ message full, script full ∧ said ++ [message] <+: full ∧ written <+: message.calls := by
  induction program generalizing written with
  | ret value => exact speaks.elim
  | throw error => exact error.elim
  | panic => exact speaks.elim
  | call op next ih =>
      have longer {more : List LoggerCall} (speaks : ∃ message full, script full ∧
          said ++ [message] <+: full ∧ written ++ more <+: message.calls) :
          ∃ message full, script full ∧ said ++ [message] <+: full ∧
            written <+: message.calls := by
        obtain ⟨message, full, isScript, isPrefix, written⟩ := speaks
        exact ⟨message, full, isScript, isPrefix, (List.prefix_append _ _).trans written⟩
      cases op with
      | lock | readPort | writePort => exact speaks.elim
      | setColor foreground background => exact longer (ih () speaks)
      | write text => exact longer (ih () speaks)
      | disable => exact ih () speaks
      | unlock =>
          obtain ⟨text, rfl, continues⟩ := speaks
          obtain ⟨full, isScript, isPrefix⟩ := continues.beginning
          exact ⟨.print text, full, isScript, isPrefix, List.prefix_refl _⟩
      | loop =>
          obtain ⟨location, message, rfl, ends⟩ := speaks
          exact ⟨.panic location message, _, ends, List.prefix_refl _, List.prefix_refl _⟩

end Speaks

end SatanKernel.X86
