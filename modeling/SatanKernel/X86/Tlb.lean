import SatanKernel.Lib.Disturbance
import SatanKernel.X86.LocalSteps

/-!
# The translation lookaside buffer

`set_entry` writes an entry and then executes `invlpg` for its address, and `new_sublevel`
clears a table entry by entry.  Here each of these writes is a step of its own, and the
processor may cache a translation of the current tables before any of them.  No call
leaves a translation cached that the tables no longer have.
-/

namespace SatanKernel.X86

open Lib NestedPageTableLevel
open Lib.Program (run Each Reaches)

/-! ## Single steps -/

/-- A page-table operation, the write of one free entry, or `invlpg`. -/
inductive TlbOp where
  | table (op : PageTableOp PageTableLevel PageSize)
  | clearEntry (frame index : Nat)
  | flushTlb (vaddr : Nat)
  deriving DecidableEq, Repr

/-- The type each of them returns. -/
abbrev TlbOp.Answer : TlbOp → Type
  | .table op => op.Answer
  | .clearEntry _ _ => Unit
  | .flushTlb _ => Unit

abbrev tlbSig : Signature := ⟨TlbOp, TlbOp.Answer⟩

/-- Page-table code in single steps. -/
abbrev TlbM := Program tlbSig MappingError

section Steps

variable {α : Type}

/-- The loop that clears the entries of a table. -/
def clearEntries (frame : Nat) (next : TlbM α) : List Nat → TlbM α
  | [] => next
  | index :: indices => .call (.clearEntry frame index) fun _ =>
      clearEntries frame next indices

/-- The rest of `new_sublevel`, once the allocator has answered. -/
def clearTable (self : PageTableLevel) (next : Option PageTableLevel → TlbM α) :
    Option Nat → TlbM α
  | none => next none
  | some addr =>
      if addr % 0x1000 = 0 then
        clearEntries addr (next (some ⟨addr, self.shift - pageLevelBits⟩))
          (List.range pageTableEntries)
      else .panic

/-- The rest of `set_entry`, once the entry has been written or refused. -/
def flushEntry (vaddr : Nat) (next : MappingResult Unit → TlbM α) :
    MappingResult Unit → TlbM α
  | .ok () => .call (.flushTlb vaddr) fun _ => next (.ok ())
  | .error error => next (.error error)

/-- The steps of an operation. -/
def operationSteps : (op : PageTableOp PageTableLevel PageSize) → (op.Answer → TlbM α) → TlbM α
  | .newSublevel self, next => .call (.table (.alloc PageSize.size4K)) (clearTable self next)
  | .setEntry self vaddr entry, next =>
      .call (.table (.setEntry self vaddr entry)) (flushEntry vaddr next)
  | .alloc size, next => .call (.table (.alloc size)) next
  | .free addr size, next => .call (.table (.free addr size)) next
  | .freeSublevel self sublevel, next => .call (.table (.freeSublevel self sublevel)) next
  | .getEntry self vaddr, next => .call (.table (.getEntry self vaddr)) next

/-- The steps of a program. -/
def steps : PagingM α → TlbM α
  | .ret value => .ret value
  | .throw error => .throw error
  | .panic => .panic
  | .call op next => operationSteps op fun answer => steps (next answer)

/-- The page whose entry has been written and not been flushed yet. -/
def unflushed : TlbM α → Option Nat
  | .call (.flushTlb vaddr) _ => some (vaddr / 0x1000)
  | _ => none

end Steps

/-! ## The processor -/

/-- The state, and the pairs of a page and a frame that the processor has cached. -/
structure TlbState (A : Type) where
  state : State A
  cached : Set (Nat × Nat)

section Processor

variable {A : Type} [PageAllocatorTrait PageSize A]

/-- `invlpg` removes the page that contains the address. -/
def tlbHandler : Handler tlbSig (TlbState A)
  | .table op, current =>
      (handler op current.state).map fun result =>
        (result.1, { current with state := result.2 })
  | .clearEntry frame index, current =>
      some ((), { current with
        state := { current.state with
          memory := current.state.memory.write frame index .NULL } })
  | .flushTlb vaddr, current =>
      some ((), { current with
        cached := { pair ∈ current.cached | pair.1 ≠ vaddr / 0x1000 } })

/-- The processor translates an address and caches its page. -/
inductive Caches (root : Nat) : TlbState A → TlbState A → Prop where
  | fill {current : TlbState A} {vaddr : Nat} {translation : Translation}
      (bounded : vaddr < 0x100000000)
      (walked : walk current.state.memory root vaddr = some translation) :
      Caches root current { current with
        cached := insert (vaddr / 0x1000, translation.paddr / 0x1000) current.cached }

/-- The pair is what the hardware walk finds, for each address of the page. -/
def Agrees (memory : Memory) (root : Nat) (pair : Nat × Nat) : Prop :=
  ∀ vaddr < 0x100000000, vaddr / 0x1000 = pair.1 →
    ∃ translation, walk memory root vaddr = some translation ∧
      translation.paddr / 0x1000 = pair.2

/-- The addresses of a page translate to the same frame. -/
theorem walk_samePage {memory : Memory} {root vaddr other : Nat} {translation : Translation}
    (walked : walk memory root vaddr = some translation)
    (same : other / 0x1000 = vaddr / 0x1000) :
    ∃ found, walk memory root other = some found ∧
      found.paddr / 0x1000 = translation.paddr / 0x1000 := by
  have directorySame : dirIndex other = dirIndex vaddr := by
    unfold dirIndex
    omega
  have tableSame : tableIndex other = tableIndex vaddr := by
    unfold tableIndex
    omega
  simp only [walk, directorySame, tableSame, walkEntries] at walked ⊢
  split_ifs at walked ⊢
  · cases walked
    refine ⟨_, rfl, ?_⟩
    unfold PTEntry.largeFrame
    dsimp only
    omega
  · cases walked
    refine ⟨_, rfl, ?_⟩
    unfold PTEntry.frame
    dsimp only
    omega

/-! ## Coherence -/

/-- What is cached agrees with the tables, the page `pending` apart. -/
def Coherent (root : Nat) (pending : Option Nat) (current : TlbState A) : Prop :=
  ∀ pair ∈ current.cached, Agrees current.state.memory root pair ∨ pending = some pair.1

section Coherent

variable {root : Nat} {pending : Option Nat} {current after : TlbState A}

omit [PageAllocatorTrait PageSize A]

/-- What is cached from the current tables agrees with them. -/
theorem Coherent.fill (coherent : Coherent root pending current)
    (cached : Caches root current after) : Coherent root pending after := by
  cases cached with
  | fill bounded walked =>
      rintro pair (rfl | member)
      · exact .inl fun other _ same => walk_samePage walked same
      · exact coherent pair member

/-- A step that keeps the translations of all pages but one. -/
theorem Coherent.step (coherent : Coherent root none current) {state : State A}
    (kept : ∀ query < 0x100000000, pending ≠ some (query / 0x1000) →
      walk state.memory root query = walk current.state.memory root query) :
    Coherent root pending { current with state } := by
  intro pair member
  by_cases here : pending = some pair.1
  · exact .inr here
  · apply Or.inl
    have agrees := (coherent pair member).resolve_right (by simp)
    intro vaddr bounded same
    rw [kept vaddr bounded (same ▸ here)]
    exact agrees vaddr bounded same

theorem Coherent.of_walk (coherent : Coherent root none current) {state : State A}
    (same : ∀ query, walk state.memory root query = walk current.state.memory root query) :
    Coherent root none { current with state } :=
  coherent.step fun query _ _ => same query

/-- `invlpg` restores coherence. -/
theorem Coherent.flush {page : Nat} (coherent : Coherent root (some page) current) :
    Coherent root none { current with
      cached := { pair ∈ current.cached | pair.1 ≠ page } } := by
  rintro pair ⟨member, otherPage⟩
  refine .inl ((coherent pair member).resolve_right ?_)
  intro same
  exact otherPage (Option.some.inj same).symm

end Coherent

/-! ## Clearing a table that is not linked -/

section Clearing

variable {memory : Memory} {root frame : Nat}

theorem FreshFrame.write (fresh : FreshFrame memory root frame) (index : Nat)
    (entry : PTEntry) : FreshFrame (memory.write frame index entry) root frame := by
  have same : ∀ i, memory.write frame index entry root i = memory root i :=
    Memory.write_of_frame_ne memory index entry (Ne.symm fresh.ne_root)
  refine ⟨fresh.aligned, fresh.bounded, ?_⟩
  simp only [IsTableFrame, same]
  exact fresh.unused

theorem walk_write_fresh (fresh : FreshFrame memory root frame) (index : Nat)
    (entry : PTEntry) (query : Nat) :
    walk (memory.write frame index entry) root query = walk memory root query := by
  apply walk_congr
  · exact Memory.write_of_frame_ne memory index entry (Ne.symm fresh.ne_root) _
  · intro table
    exact Memory.write_of_frame_ne memory index entry
      (fresh.ne_table (dirIndex_lt query) table) _

theorem clear_write {index : Nat} (inside : index < 0x400) :
    (memory.write frame index .NULL).clear frame = memory.clear frame := by
  funext other i
  by_cases cleared : other = frame ∧ i < pageTableEntries
  · simp only [Memory.clear, cleared, and_self, if_true]
  · have different : ¬(other = frame ∧ i = index) := by
      rintro ⟨rfl, rfl⟩
      exact cleared ⟨rfl, inside⟩
    simp only [Memory.clear, cleared, if_false, Memory.write, different]

theorem clear_of_cleared (cleared : ∀ i < 0x400, memory frame i = .NULL) :
    memory.clear frame = memory := by
  funext other i
  rw [Memory.clear]
  split
  next here => rw [here.1, cleared i here.2]
  next => rfl

end Clearing

/-! ## The steps of a call -/

section Progress

variable {α : Type} {root : Nat} {finish : Outcome MappingError α × State A}

/-- Where the steps of a program have got to, if `finish` is the end of its run: between
two operations, before a flush, or among the entries of a table that is cleared. -/
inductive Progress (root : Nat) (finish : Outcome MappingError α × State A) :
    TlbM α → TlbState A → Prop where
  | between {code : TlbM α} {current : TlbState A} (program : PagingM α)
      (shape : code = steps program)
      (each : Each handler (KeepsOthers root) program current.state)
      (ends : run handler program current.state = finish)
      (coherent : Coherent root none current) : Progress root finish code current
  | flushing {code : TlbM α} {current : TlbState A} (vaddr : Nat) (program : PagingM α)
      (shape : code = .call (.flushTlb vaddr) fun _ => steps program)
      (each : Each handler (KeepsOthers root) program current.state)
      (ends : run handler program current.state = finish)
      (coherent : Coherent root (some (vaddr / 0x1000)) current) :
      Progress root finish code current
  | clearing {code : TlbM α} {current : TlbState A} (frame index : Nat) (indices : List Nat)
      (program : PagingM α)
      (shape : code = clearEntries frame (steps program) (index :: indices))
      (inside : ∀ i ∈ index :: indices, i < 0x400)
      (cleared : ∀ i < 0x400, i ∈ index :: indices ∨ current.state.memory frame i = .NULL)
      (fresh : FreshFrame current.state.memory root frame)
      (each : Each handler (KeepsOthers root) program
        ⟨current.state.memory.clear frame, current.state.allocator⟩)
      (ends : run handler program
        ⟨current.state.memory.clear frame, current.state.allocator⟩ = finish)
      (coherent : Coherent root none current) : Progress root finish code current
  | panicked {code : TlbM α} {current : TlbState A} (shape : code = .panic)
      (coherent : Coherent root none current) : Progress root finish code current

/-- Everything that is cached agrees, but for the page that is to be flushed. -/
theorem Progress.coherent {code : TlbM α} {current : TlbState A}
    (progress : Progress root finish code current) :
    Coherent root (unflushed code) current := by
  have weaken : ∀ pending, Coherent root none current → Coherent root pending current :=
    fun _ coherent pair member => .inl ((coherent pair member).resolve_right (by simp))
  cases progress with
  | between program shape each ends coherent => exact weaken _ coherent
  | flushing vaddr program shape each ends coherent =>
      subst shape
      exact coherent
  | clearing frame index indices program shape inside cleared fresh each ends coherent =>
      exact weaken _ coherent
  | panicked shape coherent => exact weaken _ coherent

theorem Progress.fill {code : TlbM α} {current after : TlbState A}
    (progress : Progress root finish code current) (cached : Caches root current after) :
    Progress root finish code after := by
  have same : after.state = current.state := by
    cases cached
    rfl
  cases progress with
  | between program shape each ends coherent =>
      rw [← same] at each ends
      exact .between program shape each ends (coherent.fill cached)
  | flushing vaddr program shape each ends coherent =>
      rw [← same] at each ends
      exact .flushing vaddr program shape each ends (coherent.fill cached)
  | clearing frame index indices program shape inside cleared fresh each ends coherent =>
      rw [← same] at cleared fresh each ends
      exact .clearing frame index indices program shape inside cleared fresh each ends
        (coherent.fill cached)
  | panicked shape coherent => exact .panicked shape (coherent.fill cached)

/-- An operation that keeps all translations. -/
theorem progress_kept {op : PageTableOp PageTableLevel PageSize}
    {next : op.Answer → PagingM α} {current : TlbState A} {answer : op.Answer}
    {state : State A} (coherent : Coherent root none current)
    (each : Each handler (KeepsOthers root) (.call op next) current.state)
    (ends : run handler (.call op next) current.state = finish)
    (handled : handler op current.state = some (answer, state))
    (same : ∀ query, walk state.memory root query = walk current.state.memory root query) :
    Progress root finish (steps (next answer)) { current with state } := by
  cases each with
  | call here rest =>
      refine .between (next answer) rfl (rest answer state handled) ?_ (coherent.of_walk same)
      rw [← ends, Program.run_call_some handler handled]

theorem tlbHandler_table {op : PageTableOp PageTableLevel PageSize} {answer : op.Answer}
    {current after : TlbState A}
    (handled : tlbHandler (.table op) current = some (answer, after)) :
    ∃ state, handler op current.state = some (answer, state) ∧
      after = { current with state } := by
  have mapped : (handler op current.state).map (fun result =>
      (result.1, ({ current with state := result.2 } : TlbState A))) =
        some (answer, after) := handled
  obtain ⟨⟨_, state⟩, inner, equal⟩ := Option.map_eq_some_iff.mp mapped
  cases equal
  exact ⟨state, inner, rfl⟩

/-- An operation that does not write to tables. -/
theorem progress_reads {op : PageTableOp PageTableLevel PageSize}
    {next : op.Answer → PagingM α} {current after : TlbState A} {answer : op.Answer}
    (coherent : Coherent root none current)
    (each : Each handler (KeepsOthers root) (.call op next) current.state)
    (ends : run handler (.call op next) current.state = finish)
    (handled : tlbHandler (.table op) current = some (answer, after))
    (reads : ReadsTables op) :
    Progress root finish (steps (next answer)) after := by
  obtain ⟨state, inner, rfl⟩ := tlbHandler_table handled
  have memoryEq : state.memory = current.state.memory := by
    have kept : KeepsOthers root op current.state state := keepsOthers_reads reads inner
    cases op with
    | newSublevel level => exact absurd reads id
    | setEntry level vaddr entry => exact absurd reads id
    | alloc size => exact kept
    | free addr size => exact kept
    | freeSublevel level sublevel => exact kept
    | getEntry level vaddr => exact kept
  apply progress_kept coherent each ends inner
  intro query
  rw [memoryEq]

/-- The write of `set_entry`, after which the flush is due. -/
theorem progress_setEntry {self : PageTableLevel} {vaddr : Nat}
    {entry : PageTableEntry PageTableLevel} {next : MappingResult Unit → PagingM α}
    {current after : TlbState A} {answer : MappingResult Unit}
    (coherent : Coherent root none current)
    (each : Each handler (KeepsOthers root) (.call (.setEntry self vaddr entry) next)
      current.state)
    (ends : run handler (.call (.setEntry self vaddr entry) next) current.state = finish)
    (handled : tlbHandler (.table (.setEntry self vaddr entry)) current =
      some (answer, after)) :
    Progress root finish (flushEntry vaddr (fun result => steps (next result)) answer)
      after := by
  obtain ⟨state, inner, rfl⟩ := tlbHandler_table handled
  obtain ⟨-, ⟨error, rfl, rfl⟩ | ⟨word, encoded, rfl, stateEq⟩⟩ := handler_setEntry_cases inner
  · exact progress_kept coherent each ends inner fun _ => rfl
  · cases each with
    | call here rest =>
        refine .flushing vaddr (next (.ok ())) rfl (rest _ _ inner) ?_ (coherent.step ?_)
        · rw [← ends, Program.run_call_some handler inner]
        · intro query bounded otherPage
          refine here _ _ inner query bounded fun same => otherPage ?_
          rw [same]

/-- The allocation of `new_sublevel`, after which the table is to be cleared. -/
theorem progress_newSublevel {self : PageTableLevel}
    {next : Option PageTableLevel → PagingM α} {current after : TlbState A}
    {answer : Option Nat} (coherent : Coherent root none current)
    (each : Each handler (KeepsOthers root) (.call (.newSublevel self) next) current.state)
    (ends : run handler (.call (.newSublevel self) next) current.state = finish)
    (handled : tlbHandler (.table (.alloc PageSize.size4K)) current = some (answer, after)) :
    Progress root finish (clearTable self (fun level => steps (next level)) answer) after := by
  rcases answered : PageAllocatorTrait.alloc current.state.allocator PageSize.size4K with
    ⟨frame, allocator⟩
  have allocates : tlbHandler (.table (.alloc PageSize.size4K)) current =
      some (frame, { current with state := { current.state with allocator } }) := by
    simp [tlbHandler, handler, answered]
  rw [allocates] at handled
  cases handled
  cases answer with
  | none =>
      have created : handler (.newSublevel self) current.state =
          some (none, { current.state with allocator }) := by
        simp [handler, handleNewSublevel, answered]
      exact progress_kept coherent each ends created fun _ => rfl
  | some addr =>
      rw [clearTable]
      split
      next aligned =>
        have created : handler (.newSublevel self) current.state =
            some (some ⟨addr, self.shift - pageLevelBits⟩,
              { memory := current.state.memory.clear addr, allocator }) := by
          simp [handler, handleNewSublevel, answered, aligned]
        have indices : List.range pageTableEntries = 0 :: List.range' 1 0x3ff := by
          rw [List.range_eq_range']
          rfl
        cases each with
        | call here rest =>
            have fresh : AllocatesFresh current.state root := here _ _ created
            rw [indices]
            refine .clearing addr 0 (List.range' 1 0x3ff) _ rfl ?_ ?_
              (fresh addr allocator answered) (rest _ _ created) ?_ (coherent.of_walk fun _ => rfl)
            · rw [← indices]
              exact fun i member => List.mem_range.mp member
            · rw [← indices]
              exact fun i inside => .inl (List.mem_range.mpr inside)
            · rw [← ends, Program.run_call_some handler created]
      next => exact .panicked rfl (coherent.of_walk fun _ => rfl)

/-- Clearing an entry of a table that is not linked. -/
theorem progress_clearEntry {frame index : Nat} {indices : List Nat} {program : PagingM α}
    {current : TlbState A} (inside : ∀ i ∈ index :: indices, i < 0x400)
    (cleared : ∀ i < 0x400, i ∈ index :: indices ∨ current.state.memory frame i = .NULL)
    (fresh : FreshFrame current.state.memory root frame)
    (each : Each handler (KeepsOthers root) program
      ⟨current.state.memory.clear frame, current.state.allocator⟩)
    (ends : run handler program
      ⟨current.state.memory.clear frame, current.state.allocator⟩ = finish)
    (coherent : Coherent root none current) :
    Progress root finish (clearEntries frame (steps program) indices)
      { current with state := { current.state with
        memory := current.state.memory.write frame index .NULL } } := by
  have indexInside := inside index (by simp)
  have stillCoherent : Coherent root none { current with state := { current.state with
      memory := current.state.memory.write frame index .NULL } } :=
    coherent.of_walk fun query => walk_write_fresh fresh index .NULL query
  have nowCleared : ∀ i < 0x400, i ∈ indices ∨
      current.state.memory.write frame index .NULL frame i = .NULL := by
    intro i iInside
    by_cases same : i = index
    · rw [same]
      exact .inr (Memory.write_self _ _ _ _)
    · rw [Memory.write_of_index_ne _ _ _ _ same]
      exact (cleared i iInside).imp_left fun member => (List.mem_cons.mp member).resolve_left same
  rw [← clear_write indexInside] at each ends
  cases indices with
  | nil =>
      -- The last entry: the table is now as `clear` leaves it.
      rw [clear_of_cleared fun i iInside => (nowCleared i iInside).resolve_left (by simp)]
        at each ends
      exact .between program rfl each ends stillCoherent
  | cons other indices =>
      exact .clearing frame other indices program rfl
        (fun i member => inside i (List.mem_cons_of_mem _ member)) nowCleared
        (fresh.write index .NULL) each ends stillCoherent

/-- Every step of the program. -/
theorem Progress.operation {op : TlbOp} {next : op.Answer → TlbM α}
    {current after : TlbState A} {answer : op.Answer}
    (progress : Progress root finish (.call op next) current)
    (handled : tlbHandler op current = some (answer, after)) :
    Progress root finish (next answer) after := by
  cases progress with
  | between program shape each ends coherent =>
      cases program with
      | ret value => cases shape
      | throw error => cases shape
      | panic => cases shape
      | call own rest =>
          cases own with
          | alloc size =>
              cases shape
              exact progress_reads coherent each ends handled trivial
          | free addr size =>
              cases shape
              exact progress_reads coherent each ends handled trivial
          | newSublevel self =>
              cases shape
              exact progress_newSublevel coherent each ends handled
          | freeSublevel self sublevel =>
              cases shape
              exact progress_reads coherent each ends handled trivial
          | setEntry self vaddr entry =>
              cases shape
              exact progress_setEntry coherent each ends handled
          | getEntry self vaddr =>
              cases shape
              exact progress_reads coherent each ends handled trivial
  | flushing vaddr program shape each ends coherent =>
      cases shape
      cases handled
      exact .between program rfl each ends coherent.flush
  | clearing frame index indices program shape inside cleared fresh each ends coherent =>
      cases shape
      cases handled
      exact progress_clearEntry inside cleared fresh each ends coherent
  | panicked shape coherent => cases shape

/-- Whatever the processor caches in between. -/
theorem Progress.reached {code later : TlbM α} {current after : TlbState A}
    (progress : Progress root finish code current)
    (reached : Reaches tlbHandler (Caches root) (code, current) (later, after)) :
    Progress root finish later after := by
  generalize first : (code, current) = start at reached
  generalize last : (later, after) = stop at reached
  induction reached generalizing later after with
  | refl =>
      rw [← first] at last
      cases last
      exact progress
  | @tail middle _ _ move ih =>
      have before : Progress root finish middle.1 middle.2 := ih rfl
      cases move with
      | operation handled =>
          cases last
          exact before.operation handled
      | disturbance cached =>
          cases last
          exact before.fill cached

/-- The call has returned, with `Ok` or with an error. -/
def returned : TlbM α → Bool
  | .ret _ => true
  | .throw _ => true
  | _ => false

theorem returned_steps {program : PagingM α} (ended : returned (steps program) = true) :
    (∃ value, program = .ret value) ∨ ∃ error, program = .throw error := by
  cases program with
  | ret value => exact .inl ⟨value, rfl⟩
  | throw error => exact .inr ⟨error, rfl⟩
  | panic => cases ended
  | call op next => cases op <;> cases ended

/-- When the call has returned, its run has ended, and everything that is cached agrees. -/
theorem Progress.ended {code : TlbM α} {current : TlbState A}
    (progress : Progress root finish code current) (ended : returned code = true) :
    finish.1 ≠ .panic ∧ finish.2 = current.state ∧ Coherent root none current := by
  cases progress with
  | between program shape each ends coherent =>
      subst shape
      obtain ⟨value, rfl⟩ | ⟨error, rfl⟩ := returned_steps ended
      · rw [Program.run_ret] at ends
        subst ends
        exact ⟨by simp, rfl, coherent⟩
      · rw [Program.run_throw] at ends
        subst ends
        exact ⟨by simp, rfl, coherent⟩
  | flushing vaddr program shape each ends coherent =>
      subst shape
      cases ended
  | clearing frame index indices program shape inside cleared fresh each ends coherent =>
      subst shape
      cases ended
  | panicked shape coherent =>
      subst shape
      cases ended

end Progress

/-! ## Sequences of calls -/

/-- A sequence of calls that return, while the processor caches what it translates. -/
inductive TlbRuns (root : Nat) : TlbState A → List Call → TlbState A → Prop where
  | nil (current : TlbState A) : TlbRuns root current [] current
  | call {current middle after : TlbState A} {call : Call} {calls : List Call}
      {code : TlbM Unit}
      (reached : Reaches tlbHandler (Caches root) (steps (call.program root), current)
        (code, middle))
      (ended : returned code = true) (rest : TlbRuns root middle calls after) :
      TlbRuns root current (call :: calls) after

variable {root : Nat} {ledger : FrameLedger A root}

/-- What holds between two calls: the tables are owned, and what is cached agrees. -/
structure TlbReady (ledger : FrameLedger A root) (current : TlbState A) : Prop where
  owned : Owned (fun _ => True) current.state.memory root
    (ledger.outstanding current.state.allocator)
  coherent : Coherent root none current

theorem TlbReady.progress {current : TlbState A} (ready : TlbReady ledger current)
    (call : Call) :
    Progress root (run handler (call.program root) current.state)
      (steps (call.program root)) current :=
  have mapReady : MapReady ledger current.state := ⟨ready.owned.wf, ready.owned.tables⟩
  .between (call.program root) rfl (each_call mapReady call) rfl ready.coherent

theorem TlbReady.call {current after : TlbState A} (ready : TlbReady ledger current)
    {call : Call} {code : TlbM Unit}
    (reached : Reaches tlbHandler (Caches root) (steps (call.program root), current)
      (code, after))
    (ended : returned code = true) : TlbReady ledger after := by
  obtain ⟨notPanic, finished, coherent⟩ := ((ready.progress call).reached reached).ended ended
  have shaped : call.Shaped fun _ => True := by cases call <;> simp [Call.Shaped]
  refine ⟨?_, coherent⟩
  rw [← finished]
  exact owned_call shaped ready.owned notPanic

theorem TlbReady.runs {current after : TlbState A} {calls : List Call}
    (runs : TlbRuns root current calls after) (ready : TlbReady ledger current) :
    TlbReady ledger after := by
  induction runs with
  | nil current => exact ready
  | call reached ended rest ih => exact ih (ready.call reached ended)

/-- No stale translation survives a call.  Between two calls everything that the processor
has cached is what the tables say, and during a call the only exception is the page whose
entry has just been written and is flushed next. -/
theorem tlb_coherent (ledger : FrameLedger A root) {state : State A} {calls : List Call}
    {current : TlbState A} (rootAligned : root % 0x1000 = 0)
    (empty : ∀ i < 0x400, state.memory root i = .NULL)
    (runs : TlbRuns root ⟨state, ∅⟩ calls current) :
    (∀ pair ∈ current.cached, Agrees current.state.memory root pair) ∧
      ∀ call code middle, Reaches tlbHandler (Caches root)
          (steps (Call.program root call), current) (code, middle) →
        ∀ pair ∈ middle.cached,
          Agrees middle.state.memory root pair ∨ unflushed code = some pair.1 := by
  have ready : TlbReady ledger current := TlbReady.runs runs
    ⟨owned_empty rootAligned empty _, fun _ member => absurd member (Set.notMem_empty _)⟩
  refine ⟨?_, ?_⟩
  · intro pair member
    exact (ready.coherent pair member).resolve_right (by simp)
  · intro call code middle reached
    exact ((ready.progress call).reached reached).coherent

end Processor

/-- A page of an empty directory has been mapped. -/
def mappedTlb : TlbState (Scripted 0x1000) :=
  (run tlbHandler (steps ((Call.mapAlloc 0x5000 0x1000 .readWrite).program 0x1000))
    ⟨emptySpace [some 0x2000, some 0x3000], ∅⟩).2

/-- The translation of a page that has been mapped and is cached agrees with the tables, and
still does while the page is unmapped, until its entry has been cleared. -/
theorem tlb_coherent_mapped :
    ∃ current : TlbState (Scripted 0x1000), (5, 2) ∈ current.cached ∧
      Agrees current.state.memory 0x1000 (5, 2) ∧
      ∀ code middle, Reaches tlbHandler (Caches 0x1000)
          (steps ((Call.unmapFree 0x5000 0x1000).program 0x1000), current) (code, middle) →
        ∀ pair ∈ middle.cached,
          Agrees middle.state.memory 0x1000 pair ∨ unflushed code = some pair.1 := by
  have ended : (run tlbHandler (steps ((Call.mapAlloc 0x5000 0x1000 .readWrite).program 0x1000))
      (⟨emptySpace [some 0x2000, some 0x3000], ∅⟩ : TlbState (Scripted 0x1000))).1 =
        .ok () := by
    decide +kernel
  have walked : (walk mappedTlb.state.memory 0x1000 0x5000).map Translation.paddr =
      some 0x2000 := by
    decide +kernel
  obtain ⟨translation, found, paddr⟩ := Option.map_eq_some_iff.mp walked
  have mapped : Reaches tlbHandler (Caches 0x1000)
      (steps ((Call.mapAlloc 0x5000 0x1000 .readWrite).program 0x1000),
        ⟨emptySpace [some 0x2000, some 0x3000], ∅⟩) (.ret (), mappedTlb) :=
    Program.reaches_of_run (Prod.ext_iff.mpr ⟨ended, by rw [mappedTlb]⟩)
  have cached := mapped.tail (.disturbance (.fill (show 0x5000 < 0x100000000 by decide) found))
  have coherent := tlb_coherent (scriptedLedger 0x1000) (by decide) (fun _ _ => rfl)
    (.call cached rfl (.nil _))
  have member : (5, 2) ∈ insert (0x5000 / 0x1000, translation.paddr / 0x1000)
      mappedTlb.cached := by
    rw [paddr]
    exact Set.mem_insert _ _
  exact ⟨_, member, coherent.1 _ member, coherent.2 (.unmapFree 0x5000 0x1000)⟩

end SatanKernel.X86
