import SatanKernel.X86.Console

/-!
# The screen under interrupts

Whenever interrupts arrive, the screen shows whole messages, one after the other.  Only the
last one may still be incomplete, and after the message of a panic nothing else is written.

The log of complete messages and the message that is being written explain each state.
-/

namespace SatanKernel.X86

open Lib

/-! ## The log of a run -/

/-- The complete messages of one activation. -/
def said (log : List (Nat × String)) (activation : Nat) : List Message :=
  (log.filter fun entry => entry.1 = activation).map fun entry => .print entry.2

theorem said_append_of_ne {log more : List (Nat × String)} {activation other : Nat}
    (own : ∀ entry ∈ more, entry.1 = activation) (different : other ≠ activation) :
    said (log ++ more) other = said log other := by
  have none : more.filter (fun entry => entry.1 = other) = [] := by
    rw [List.filter_eq_nil_iff]
    intro entry member
    simp [own entry member, different.symm]
  rw [said, List.filter_append, none, List.append_nil, said]

theorem said_append_self (log : List (Nat × String)) (activation : Nat) (text : String) :
    said (log ++ [(activation, text)]) activation = said log activation ++ [.print text] := by
  simp [said]

/-- The terminal on which the messages of a log have been written one after the other, and a
further one has been begun. -/
def logged (terminal : Terminal) (log : List (Nat × String)) (writing : List LoggerCall) :
    Terminal :=
  (log.flatMap (fun entry => textCalls entry.2) ++ writing).foldl Terminal.call terminal

theorem logged_call (terminal : Terminal) (log : List (Nat × String))
    (writing : List LoggerCall) (call : LoggerCall) :
    logged terminal log (writing ++ [call]) = (logged terminal log writing).call call := by
  rw [logged, ← List.append_assoc, List.foldl_append]
  rfl

theorem logged_message (terminal : Terminal) (log : List (Nat × String)) (activation : Nat)
    (text : String) :
    logged terminal (log ++ [(activation, text)]) [] = logged terminal log (textCalls text) := by
  rw [logged, List.append_nil, List.flatMap_append]
  simp [logged]

namespace Console

/-- What an activation has written of its current message. -/
def phase (console : Console) (writing : List LoggerCall) (activation : Nat) :
    Option (List LoggerCall) :=
  if console.owner = some activation then some writing else none

variable {terminal : Terminal} {scripts : List Script} {log longer more : List (Nat × String)}
  {writing written : List LoggerCall} {console after : Console} {frame : Frame}
  {below : List Frame} {program : CpuM Unit}

/-- The log of complete messages and the message that is being written explain a state: the
code of each activation goes on as its script says, and the writer shows all of it. -/
structure Explains (terminal : Terminal) (scripts : List Script) (log : List (Nat × String))
    (writing : List LoggerCall) (console : Console) : Prop where
  arrived : console.arrived = scripts.length
  entries : ∀ entry ∈ log, entry.1 < scripts.length
  distinct : (console.frames.map Frame.activation).Nodup
  speaks : ∀ frame ∈ console.frames, ∃ script, scripts[frame.activation]? = some script ∧
    Speaks script frame.program (said log frame.activation)
      (console.phase writing frame.activation)
  owned : ∀ who, console.owner = some who → ∃ frame ∈ console.frames, frame.activation = who
  ended : ∀ activation script, scripts[activation]? = some script →
    (∀ frame ∈ console.frames, frame.activation ≠ activation) → script (said log activation)
  idle : console.owner = none → writing = []
  shows : Shows console.writer (logged terminal log writing)

theorem Explains.speaks_running (explains : Explains terminal scripts log writing console)
    (frames : console.frames = frame :: below) :
    ∃ script, scripts[frame.activation]? = some script ∧
      Speaks script frame.program (said log frame.activation)
        (console.phase writing frame.activation) :=
  explains.speaks frame (by
    rw [frames]
    exact List.mem_cons_self)

/-- The code that runs has made a step.  Nothing changes for the code that it has
interrupted. -/
theorem Explains.top (explains : Explains terminal scripts log writing console)
    (frames : console.frames = frame :: below)
    (afterFrames : after.frames = { frame with program } :: below)
    (log_eq : longer = log ++ more)
    (arrived : after.arrived = console.arrived)
    (own : ∀ entry ∈ more, entry.1 = frame.activation)
    (owners : ∀ who, who ≠ frame.activation → (after.owner = some who ↔ console.owner = some who))
    (untouched : ∀ who, who ≠ frame.activation → console.owner = some who → written = writing)
    (speaks : ∀ script, scripts[frame.activation]? = some script →
      Speaks script frame.program (said log frame.activation)
        (console.phase writing frame.activation) →
      Speaks script program (said longer frame.activation)
        (after.phase written frame.activation))
    (idle : after.owner = none → written = [])
    (shows : Shows after.writer (logged terminal longer written)) :
    Explains terminal scripts longer written after := by
  subst log_eq
  have distinct := explains.distinct
  rw [frames, List.map_cons, List.nodup_cons] at distinct
  obtain ⟨topScript, topFound, topSpeaks⟩ := explains.speaks_running frames
  refine ⟨arrived.trans explains.arrived, ?_, ?_, ?_, ?_, ?_, idle, shows⟩
  · intro entry member
    cases List.mem_append.mp member with
    | inl inLog => exact explains.entries entry inLog
    | inr inMore =>
        rw [own entry inMore]
        exact (List.getElem?_eq_some_iff.mp topFound).1
  · rw [afterFrames, List.map_cons, List.nodup_cons]
    exact distinct
  · intro other member
    rw [afterFrames] at member
    cases List.mem_cons.mp member with
    | inl isTop =>
        rw [isTop]
        exact ⟨topScript, topFound, speaks topScript topFound topSpeaks⟩
    | inr inBelow =>
        have different : other.activation ≠ frame.activation := fun same =>
          distinct.1 (same ▸ List.mem_map_of_mem inBelow)
        obtain ⟨script, found, otherSpeaks⟩ := explains.speaks other (by
          rw [frames]
          exact List.mem_cons_of_mem _ inBelow)
        refine ⟨script, found, ?_⟩
        have samePhase : after.phase written other.activation =
            console.phase writing other.activation := by
          simp only [phase, owners _ different]
          split
          next owner => rw [untouched _ different owner]
          next => rfl
        rw [said_append_of_ne own different, samePhase]
        exact otherSpeaks
  · intro who owner
    rw [afterFrames]
    by_cases isTop : who = frame.activation
    · exact ⟨_, List.mem_cons_self, isTop.symm⟩
    · obtain ⟨other, member, same⟩ := explains.owned who ((owners who isTop).mp owner)
      rw [frames] at member
      cases List.mem_cons.mp member with
      | inl equal => exact absurd (same.symm.trans (congrArg Frame.activation equal)) isTop
      | inr inBelow => exact ⟨other, List.mem_cons_of_mem _ inBelow, same⟩
  · intro activation script found gone
    rw [afterFrames] at gone
    have different : activation ≠ frame.activation := (gone _ List.mem_cons_self).symm
    rw [said_append_of_ne own different]
    apply explains.ended activation script found
    rw [frames]
    intro other member
    cases List.mem_cons.mp member with
    | inl equal =>
        rw [equal]
        exact different.symm
    | inr inBelow => exact gone other (List.mem_cons_of_mem _ inBelow)

/-- A step that completes no message. -/
theorem Explains.within (explains : Explains terminal scripts log writing console)
    (frames : console.frames = frame :: below)
    (afterFrames : after.frames = { frame with program } :: below)
    (arrived : after.arrived = console.arrived)
    (owners : ∀ who, who ≠ frame.activation → (after.owner = some who ↔ console.owner = some who))
    (untouched : ∀ who, who ≠ frame.activation → console.owner = some who → written = writing)
    (speaks : ∀ script, Speaks script frame.program (said log frame.activation)
        (console.phase writing frame.activation) →
      Speaks script program (said log frame.activation) (after.phase written frame.activation))
    (idle : after.owner = none → written = [])
    (shows : Shows after.writer (logged terminal log written)) :
    Explains terminal scripts log written after :=
  explains.top frames afterFrames (List.append_nil log).symm arrived
    (fun _ member => absurd member List.not_mem_nil) owners untouched
    (fun script _ => speaks script) idle shows

/-- A step that writes nothing. -/
theorem Explains.quiet (explains : Explains terminal scripts log writing console)
    (frames : console.frames = frame :: below) (enabled : Bool)
    (speaks : ∀ script phase, Speaks script frame.program (said log frame.activation) phase →
      Speaks script program (said log frame.activation) phase) :
    Explains terminal scripts log writing
      { console.continued frame below program with enabled } :=
  explains.within frames rfl rfl (fun _ _ => Iff.rfl) (fun _ _ _ => rfl)
    (fun script => speaks script _) explains.idle explains.shows

/-- The code that runs has locked `WRITER` if it writes. -/
theorem Explains.owns (explains : Explains terminal scripts log writing console)
    (frames : console.frames = frame :: below)
    (onlyWithin : ∀ script said, ¬Speaks script frame.program said none) :
    console.owner = some frame.activation := by
  by_contra notOwner
  obtain ⟨script, -, speaks⟩ := explains.speaks_running frames
  rw [phase, if_neg notOwner] at speaks
  exact onlyWithin _ _ speaks

/-- The code that runs has not locked `WRITER` if it locks it. -/
theorem Explains.not_owns (explains : Explains terminal scripts log writing console)
    (frames : console.frames = frame :: below)
    (onlyBetween : ∀ script said written, ¬Speaks script frame.program said (some written)) :
    console.owner ≠ some frame.activation := by
  intro owner
  obtain ⟨script, -, speaks⟩ := explains.speaks_running frames
  rw [phase, if_pos owner] at speaks
  exact onlyBetween _ _ _ speaks

/-- The code that runs makes a call on the writer. -/
theorem Explains.call (explains : Explains terminal scripts log writing console)
    (frames : console.frames = frame :: below) (owner : console.owner = some frame.activation)
    {call : LoggerCall} {writer : Writer} (shows : Shows writer
      ((logged terminal log writing).call call))
    (speaks : ∀ script, Speaks script frame.program (said log frame.activation) (some writing) →
      Speaks script program (said log frame.activation) (some (writing ++ [call]))) :
    Explains terminal scripts log (writing ++ [call])
      { console.continued frame below program with writer } := by
  refine explains.within frames rfl rfl (fun _ _ => Iff.rfl) ?_ ?_ ?_ ?_
  · intro who different other
    rw [owner] at other
    exact absurd (Option.some.inj other).symm different
  · intro script spoke
    rw [phase, if_pos owner] at spoke
    rw [phase, if_pos (show (console.continued frame below program).owner = _ from owner)]
    exact speaks script spoke
  · intro free
    cases owner.symm.trans free
  · rw [logged_call]
    exact shows

/-- The code that runs locks `WRITER`. -/
theorem Explains.lock (explains : Explains terminal scripts log writing console)
    (frames : console.frames = frame :: below) (free : console.owner = none)
    (speaks : ∀ script, Speaks script frame.program (said log frame.activation) none →
      Speaks script program (said log frame.activation) (some [])) :
    Explains terminal scripts log writing
      { console.continued frame below program with owner := some frame.activation } := by
  have nothing := explains.idle free
  subst nothing
  refine explains.within frames rfl rfl ?_ (fun _ _ _ => rfl) ?_ ?_ explains.shows
  · intro who different
    rw [free]
    simp [different.symm]
  · intro script spoke
    rw [phase, free, if_neg (by simp)] at spoke
    rw [phase, if_pos rfl]
    exact speaks script spoke
  · exact fun taken => by cases taken

/-- The code that runs has completed a message. -/
theorem Explains.unlock (explains : Explains terminal scripts log writing console)
    (frames : console.frames = frame :: below) (owner : console.owner = some frame.activation)
    {text : String} (complete : writing = textCalls text)
    (speaks : ∀ script, scripts[frame.activation]? = some script →
      Speaks script program (said log frame.activation ++ [.print text]) none) :
    Explains terminal scripts (log ++ [(frame.activation, text)]) []
      { console.continued frame below program with owner := none } := by
  refine explains.top frames rfl rfl rfl ?_ ?_ ?_ ?_ (fun _ => rfl) ?_
  · simp
  · intro who different
    rw [owner]
    simp [different.symm]
  · intro who different other
    rw [owner] at other
    exact absurd (Option.some.inj other).symm different
  · intro script found _
    rw [said_append_self, phase, if_neg (by simp)]
    exact speaks script found
  · rw [logged_message]
    rw [complete] at explains
    exact explains.shows

/-- The code that runs returns. -/
theorem Explains.ret (explains : Explains terminal scripts log writing console)
    (frames : console.frames = frame :: below) (enabled : Bool)
    (speaks : ∀ script, Speaks script frame.program (said log frame.activation) none →
      script (said log frame.activation))
    (notOwner : console.owner ≠ some frame.activation) :
    Explains terminal scripts log writing { console with frames := below, enabled } := by
  have inFrames : ∀ other ∈ below, other ∈ console.frames := by
    rw [frames]
    exact fun other => List.mem_cons_of_mem _
  have distinct := explains.distinct
  rw [frames, List.map_cons, List.nodup_cons] at distinct
  refine ⟨explains.arrived, explains.entries, distinct.2, ?_, ?_, ?_, explains.idle,
    explains.shows⟩
  · exact fun other member => explains.speaks other (inFrames other member)
  · intro who owner
    obtain ⟨other, member, same⟩ := explains.owned who owner
    rw [frames] at member
    cases List.mem_cons.mp member with
    | inl equal =>
        rw [equal] at same
        exact absurd (same ▸ owner) notOwner
    | inr inBelow => exact ⟨other, inBelow, same⟩
  · intro activation script found gone
    by_cases isTop : activation = frame.activation
    · obtain ⟨topScript, topFound, spoke⟩ := explains.speaks_running frames
      rw [phase, if_neg notOwner] at spoke
      subst isTop
      rw [topFound] at found
      cases found
      exact speaks _ spoke
    · apply explains.ended activation script found
      rw [frames]
      intro other member
      cases List.mem_cons.mp member with
      | inl equal =>
          rw [equal]
          exact fun same => isTop same.symm
      | inr inBelow => exact gone other inBelow

/-- An interrupt arrives. -/
theorem Explains.interrupt (explains : Explains terminal scripts log writing console)
    (vector errorCode : Nat) :
    Explains terminal (scripts ++ [handlerScript vector errorCode]) log writing
      (console.entered (entry vector errorCode)) := by
  have before {activation : Nat} {script : Script}
      (found : scripts[activation]? = some script) :
      (scripts ++ [handlerScript vector errorCode])[activation]? = some script := by
    rw [List.getElem?_append_left (List.getElem?_eq_some_iff.mp found).1]
    exact found
  have fresh : ∀ frame ∈ console.frames, frame.activation ≠ console.arrived := by
    intro frame member same
    obtain ⟨script, found, -⟩ := explains.speaks frame member
    have below := (List.getElem?_eq_some_iff.mp found).1
    have arrived := explains.arrived
    omega
  have notOwner : console.owner ≠ some console.arrived := by
    intro owner
    obtain ⟨frame, member, same⟩ := explains.owned _ owner
    exact fresh frame member same
  have silent : said log console.arrived = [] := by
    rw [said, List.map_eq_nil_iff, List.filter_eq_nil_iff]
    intro entry member same
    have earlier := explains.entries entry member
    rw [of_decide_eq_true same, explains.arrived] at earlier
    exact Nat.lt_irrefl _ earlier
  refine ⟨?_, ?_, ?_, ?_, ?_, ?_, explains.idle, explains.shows⟩
  · rw [entered, List.length_append, ← explains.arrived]
    rfl
  · intro entry member
    rw [List.length_append]
    exact Nat.lt_add_right _ (explains.entries entry member)
  · rw [entered, List.map_cons, List.nodup_cons]
    refine ⟨fun member => ?_, explains.distinct⟩
    obtain ⟨frame, inFrames, same⟩ := List.mem_map.mp member
    exact fresh frame inFrames same
  · intro frame member
    cases List.mem_cons.mp member with
    | inl isNew =>
        rw [isNew]
        refine ⟨handlerScript vector errorCode, ?_, ?_⟩
        · rw [explains.arrived, List.getElem?_concat_length]
        · rw [silent, phase, entered, if_neg notOwner]
          exact speaks_entry vector errorCode
    | inr older =>
        obtain ⟨script, found, speaks⟩ := explains.speaks frame older
        exact ⟨script, before found, speaks⟩
  · intro who owner
    obtain ⟨frame, member, same⟩ := explains.owned who owner
    exact ⟨frame, List.mem_cons_of_mem _ member, same⟩
  · intro activation script found gone
    -- The new activation has not returned.
    have different : console.arrived ≠ activation := gone _ List.mem_cons_self
    have inside := (List.getElem?_eq_some_iff.mp found).1
    have arrived := explains.arrived
    rw [List.length_append, List.length_singleton] at inside
    rw [List.getElem?_append_left (by omega)] at found
    exact explains.ended activation script found fun frame member =>
      gone frame (List.mem_cons_of_mem _ member)

/-! ## Runs -/

/-- What one event adds to the log and to the message that is being written. -/
inductive Grows (log : List (Nat × String)) (writing : List LoggerCall) :
    List (Nat × String) → List LoggerCall → Prop where
  | same : Grows log writing log writing
  | call (call : LoggerCall) : Grows log writing log (writing ++ [call])
  | message (activation : Nat) (text : String) (complete : writing = textCalls text) :
      Grows log writing (log ++ [(activation, text)]) []

theorem textCalls_cons {text : String} {ch : Char} {rest : List Char}
    (chars : text.toList = ch :: rest) :
    textCalls text = .write ch.toUInt8 :: textCalls (String.ofList rest) := by
  rw [textCalls, chars, List.map_cons, textCalls, String.toList_ofList]

theorem Explains.step (explains : Explains terminal scripts log writing console)
    (frames : console.frames = frame :: below) {input : Nat}
    (happens : console.step input frame below = some after) :
    ∃ longer written, Grows log writing longer written ∧
      Explains terminal scripts longer written after := by
  obtain ⟨activation, program, resumes⟩ := frame
  cases stepped_of_step happens with
  | ret =>
      refine ⟨log, writing, .same, explains.ret frames resumes (fun _ speaks => speaks) ?_⟩
      exact explains.not_owns frames fun _ _ _ speaks => speaks
  | lock next free =>
      exact ⟨log, writing, .same, explains.lock frames free fun _ speaks => speaks⟩
  | wait => exact ⟨log, writing, .same, explains⟩
  | setColor foreground background next =>
      have owner := explains.owns frames fun _ _ speaks => speaks
      obtain ⟨writer, called, shows⟩ := explains.shows.call (.setColor foreground background)
      cases called
      exact ⟨log, _, .call _, explains.call frames owner shows fun _ speaks => speaks⟩
  | written text next noChars =>
      refine ⟨log, writing, .same, explains.quiet frames console.enabled ?_⟩
      intro script phase speaks
      cases phase with
      | none => exact speaks.elim
      | some written =>
          rw [Speaks, textCalls, noChars, List.map_nil, List.append_nil] at speaks
          exact speaks
  | write text next ch rest writer chars wrote =>
      have owner := explains.owns frames fun _ _ speaks => speaks
      obtain ⟨other, called, shows⟩ := explains.shows.call (.write ch.toUInt8)
      obtain rfl : writer = other := Option.some.inj (wrote.symm.trans called)
      refine ⟨log, _, .call _, explains.call frames owner shows fun script speaks => ?_⟩
      rw [Speaks, textCalls_cons chars] at speaks
      rw [Speaks, List.append_assoc, List.singleton_append]
      exact speaks
  | refused text next ch rest chars outside =>
      -- The writer never leaves its buffer.
      obtain ⟨writer, called, -⟩ := explains.shows.call (.write ch.toUInt8)
      cases outside.symm.trans called
  | unlock next =>
      have owner := explains.owns frames fun _ _ speaks => speaks
      obtain ⟨script, found, speaks⟩ := explains.speaks_running frames
      rw [phase, if_pos owner] at speaks
      obtain ⟨text, complete, continues⟩ := speaks
      refine ⟨_, [], .message activation text complete,
        explains.unlock frames owner complete fun other otherFound => ?_⟩
      rw [found] at otherFound
      cases otherFound
      exact continues
  | disable next =>
      refine ⟨log, writing, .same, explains.quiet frames false fun _ phase speaks => ?_⟩
      cases phase <;> exact speaks
  | readPort port next =>
      refine ⟨log, writing, .same,
        explains.quiet frames console.enabled fun _ phase speaks => ?_⟩
      cases phase with
      | none => exact speaks input
      | some written => exact speaks.elim
  | writePort port value next =>
      refine ⟨log, writing, .same,
        explains.quiet frames console.enabled fun _ phase speaks => ?_⟩
      cases phase with
      | none => exact speaks
      | some written => exact speaks.elim
  | loop => exact ⟨log, writing, .same, explains⟩

/-- The log only grows, and not at all once a panic is being written. -/
structure Extends (log : List (Nat × String)) (writing : List LoggerCall)
    (longer : List (Nat × String)) (written : List LoggerCall) : Prop where
  isPrefix : log <+: longer
  panic : LoggerCall.setColor .red .black ∈ writing → longer = log ∧ writing <+: written

theorem Grows.extends (grows : Grows log writing longer written) :
    Extends log writing longer written := by
  cases grows with
  | same => exact ⟨List.prefix_refl log, fun _ => ⟨rfl, List.prefix_refl writing⟩⟩
  | call call => exact ⟨List.prefix_refl log, fun _ => ⟨rfl, List.prefix_append _ _⟩⟩
  | message activation text complete =>
      refine ⟨List.prefix_append _ _, fun panics => ?_⟩
      -- A text is written without a change of the colour.
      rw [complete, textCalls] at panics
      obtain ⟨ch, -, isWrite⟩ := List.mem_map.mp panics
      cases isWrite

theorem Extends.trans {longest : List (Nat × String)} {all : List LoggerCall}
    (first : Extends log writing longer written) (second : Extends longer written longest all) :
    Extends log writing longest all := by
  refine ⟨first.isPrefix.trans second.isPrefix, fun panics => ?_⟩
  obtain ⟨sameLog, begun⟩ := first.panic panics
  obtain ⟨again, further⟩ := second.panic (begun.subset panics)
  exact ⟨again.trans sameLog, begun.trans further⟩

/-- The scripts of the activations that begin with an event. -/
def arrivals : CpuEvent → List Script
  | .interrupt vector errorCode => [handlerScript vector errorCode]
  | .step _ => []

theorem Explains.next (explains : Explains terminal scripts log writing console)
    {event : CpuEvent} (happens : console.next event = some after) :
    ∃ longer written, Grows log writing longer written ∧
      Explains terminal (scripts ++ arrivals event) longer written after := by
  cases event with
  | interrupt vector errorCode =>
      rw [Console.next] at happens
      split at happens
      next =>
        cases happens
        exact ⟨log, writing, .same, explains.interrupt vector errorCode⟩
      next => cases happens
  | step input =>
      rw [arrivals, List.append_nil]
      rw [Console.next] at happens
      split at happens
      next => cases happens
      next frame below frames => exact explains.step frames happens

theorem Explains.run (explains : Explains terminal scripts log writing console)
    {events : List CpuEvent} (ran : console.run events = some after) :
    ∃ longer written, Extends log writing longer written ∧
      Explains terminal (scripts ++ events.flatMap arrivals) longer written after := by
  induction events generalizing scripts log writing console with
  | nil =>
      cases ran
      rw [List.flatMap_nil, List.append_nil]
      exact ⟨log, writing, Grows.same.extends, explains⟩
  | cons event rest ih =>
      rw [Console.run, Option.bind_eq_some_iff] at ran
      obtain ⟨between, happens, continued⟩ := ran
      obtain ⟨longer, written, grows, follows⟩ := explains.next happens
      obtain ⟨longest, all, further, result⟩ := ih follows continued
      rw [List.flatMap_cons, ← List.append_assoc]
      exact ⟨longest, all, grows.extends.trans further, result⟩

/-! ## What the screen shows -/

/-- The screen shows the complete messages of a log, one after the other, and the beginning
of a further one.  The messages of each activation are the first ones of its script, or all
of them if it has returned. -/
structure WholeMessages (terminal : Terminal) (scripts : List Script)
    (log : List (Nat × String)) (writing : List LoggerCall) (console : Console) : Prop where
  shows : Shows console.writer (logged terminal log writing)
  entries : ∀ entry ∈ log, entry.1 < scripts.length
  scripted : ∀ activation script, scripts[activation]? = some script →
    ∃ full, script full ∧ said log activation <+: full
  ended : ∀ activation script, scripts[activation]? = some script →
    (∀ frame ∈ console.frames, frame.activation ≠ activation) → script (said log activation)
  current : ∀ who, console.owner = some who → ∃ script message full,
    scripts[who]? = some script ∧ script full ∧ said log who ++ [message] <+: full ∧
      writing <+: message.calls
  idle : console.owner = none → writing = []

theorem Explains.wholeMessages (explains : Explains terminal scripts log writing console) :
    WholeMessages terminal scripts log writing console := by
  refine ⟨explains.shows, explains.entries, ?_, explains.ended, ?_, explains.idle⟩
  · intro activation script found
    by_cases returned : ∀ frame ∈ console.frames, frame.activation ≠ activation
    · exact ⟨_, explains.ended activation script found returned, List.prefix_refl _⟩
    · push Not at returned
      obtain ⟨frame, member, same⟩ := returned
      subst same
      obtain ⟨other, otherFound, speaks⟩ := explains.speaks frame member
      rw [found] at otherFound
      cases otherFound
      exact speaks.beginning
  · intro who owner
    obtain ⟨frame, member, same⟩ := explains.owned who owner
    subst same
    obtain ⟨script, found, speaks⟩ := explains.speaks frame member
    rw [phase, if_pos owner] at speaks
    obtain ⟨message, full, isScript, isPrefix, begun⟩ := speaks.writing
    exact ⟨script, message, full, found, isScript, isPrefix, begun⟩

theorem explains_start (texts : List String) (ending : Option (String × String))
    (enabled : Bool) (buffer : Buffer) :
    let console := start texts ending enabled buffer
    Explains console.writer.terminal [mainScript texts ending] [] [] console := by
  intro console
  refine ⟨rfl, ?_, List.pairwise_singleton _ _, ?_, ?_, ?_, fun _ => rfl,
    ⟨⟨[], rfl⟩, rfl, rfl, Nat.zero_le _⟩⟩
  · exact fun entry member => absurd member List.not_mem_nil
  · intro frame member
    rw [List.mem_singleton.mp member]
    exact ⟨mainScript texts ending, rfl, speaks_mainCode texts ending⟩
  · exact fun who owner => by cases owner
  · intro activation script found gone
    have different : 0 ≠ activation := gone _ List.mem_cons_self
    have inside := (List.getElem?_eq_some_iff.mp found).1
    rw [List.length_singleton] at inside
    omega

end Console

/-- Whenever interrupts arrive, also within handlers, the screen shows whole messages, and
only the last one may be incomplete.  The log of messages only grows, and a panic that has
been begun is its end. -/
theorem screen_shows_whole_messages (texts : List String) (ending : Option (String × String))
    (enabled : Bool) (buffer : Buffer) (events more : List CpuEvent) (result later : Console)
    (ran : (Console.start texts ending enabled buffer).run events = some result)
    (continued : result.run more = some later) :
    let terminal := (Console.start texts ending enabled buffer).writer.terminal
    let scripts := mainScript texts ending :: events.flatMap Console.arrivals
    ∃ log writing longer written,
      result.WholeMessages terminal scripts log writing ∧
        later.WholeMessages terminal (scripts ++ more.flatMap Console.arrivals) longer written ∧
        Console.Extends log writing longer written := by
  intro terminal scripts
  obtain ⟨log, writing, -, explains⟩ :=
    (Console.explains_start texts ending enabled buffer).run ran
  obtain ⟨longer, written, grown, follows⟩ := explains.run continued
  exact ⟨log, writing, longer, written, explains.wholeMessages, follows.wholeMessages, grown⟩

/-- A key is pressed before the main code locks `WRITER`, and a page fault comes while the
main code is writing. -/
theorem screen_shows_whole_messages_key :
    let console := Console.start ["Hi"] none true fun _ _ => ⟨0, 0⟩
    let events := CpuEvent.interrupt 0x21 0 :: List.replicate 21 (.step 30)
    let more := [CpuEvent.interrupt 0x0e 2, .step 0]
    let scripts := mainScript ["Hi"] none :: events.flatMap Console.arrivals
    ∃ result later log writing longer written,
      console.run events = some result ∧ result.run more = some later ∧
        result.owner = some 0 ∧ later.frames.length = 2 ∧
        result.WholeMessages console.writer.terminal scripts log writing ∧
        later.WholeMessages console.writer.terminal
          (scripts ++ more.flatMap Console.arrivals) longer written ∧
        Console.Extends log writing longer written := by
  intro console events more scripts
  have runs : ((console.run events).bind fun result => (result.run more).map fun later =>
      (result.owner, later.frames.length)) = some (some 0, 2) := by
    decide +kernel
  obtain ⟨result, ran, rest⟩ := Option.bind_eq_some_iff.mp runs
  obtain ⟨later, continued, facts⟩ := Option.map_eq_some_iff.mp rest
  obtain ⟨owner, frames⟩ := Prod.mk.inj facts
  obtain ⟨log, writing, longer, written, whole⟩ :=
    screen_shows_whole_messages _ _ _ _ _ _ _ _ ran continued
  exact ⟨result, later, log, writing, longer, written, ran, continued, owner, frames, whole⟩

end SatanKernel.X86
