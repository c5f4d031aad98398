import SatanKernel.Lib.CriticalSection
import SatanKernel.X86.TmpPage
import SatanKernel.X86.Tlb

/-!
# The lock of the temporary page

Every access of `arch/x86/paging/address_space.rs` to a page table goes through the one
temporary page: `tmp_page::map` takes `TMP_PAGE_MUTEX` and maps the page, and the guard that
it returns gives the lock back at the end of the operation.

Any number of threads do this at once.  Their operations on page tables are nevertheless
atomic ones, and the lock never keeps all of them from moving.
-/

namespace SatanKernel.X86

open Lib NestedPageTableLevel
open Lib.Program (run)

/-! ## The code, one access at a time -/

/-- The temporary page and the memory behind it. -/
structure TmpFrames where
  window : Window
  memory : Memory

/-- What the code does with the entry of the temporary page, and through the page. -/
inductive FrameOp where
  | window (op : TmpPageOp)
  | load (index : Nat)
  | store (index : Nat) (entry : PTEntry)
  deriving DecidableEq, Repr

abbrev FrameOp.Answer : FrameOp → Type
  | .window op => op.Answer
  | .load _ => PTEntry
  | .store _ _ => Unit

abbrev frameSig : Signature := ⟨FrameOp, FrameOp.Answer⟩

/-- The frame that an access through the page goes to. -/
def Window.shown (window : Window) : Option Nat := window.cached.or window.walks

/-- An access through a page that is not mapped faults. -/
def frameHandler : Handler frameSig TmpFrames
  | .window op, frames => (tmpPageHandler op frames.window).map fun result =>
      (result.1, { frames with window := result.2 })
  | .load index, frames => frames.window.shown.map fun frame =>
      (frames.memory frame index, frames)
  | .store index entry, frames => frames.window.shown.map fun frame =>
      ((), { frames with memory := frames.memory.write frame index entry })

/-- The methods of the page allocator, which has locks of its own. -/
inductive AllocOp where
  | alloc (size : PageSize)
  | free (addr : Nat) (size : PageSize)
  deriving DecidableEq, Repr

abbrev AllocOp.Answer : AllocOp → Type
  | .alloc _ => Option Nat
  | .free _ _ => Unit

abbrev allocSig : Signature := ⟨AllocOp, AllocOp.Answer⟩

def allocHandler {A : Type} [PageAllocatorTrait PageSize A] : Handler allocSig A
  | .alloc size, allocator => some (PageAllocatorTrait.alloc allocator size)
  | .free addr size, allocator => some ((), PageAllocatorTrait.free allocator addr size)

/-- Page-table code in single accesses. -/
abbrev AccessM := Program (lockSig frameSig allocSig) MappingError

section Code

variable {α β : Type}

/-- Code that uses the temporary page, within a section. -/
def onWindow : TmpPageM β → (β → AccessM α) → AccessM α
  | .ret value, next => next value
  | .throw error, _ => error.elim
  | .panic, _ => .panic
  | .call op rest, next => .call (.guarded (.window op)) fun answer => onWindow (rest answer) next

/-- `tmp_page::map`: the assertion, the lock and the mapping. -/
def tmpPageLock (addr : Nat) (body : AccessM α) : AccessM α :=
  if addr % 0x1000 = 0 then
    .call .lock fun _ => onWindow (tmpPageMap addr) fun _ => body
  else .panic

/-- The guard is dropped. -/
def tmpPageUnlock (next : AccessM α) : AccessM α := .call .unlock fun _ => next

/-- The loop that clears the entries of the table that is shown. -/
def storeNull (next : AccessM α) : List Nat → AccessM α
  | [] => next
  | index :: indices => .call (.guarded (.store index .NULL)) fun _ => storeNull next indices

/-- The end of `set_entry`, once the old entry has been looked at. -/
def storeEntry (self : PageTableLevel) (vaddr : Nat) (entry : PageTableEntry PageTableLevel)
    (next : MappingResult Unit → AccessM α) : AccessM α :=
  match self.encode entry with
  | none => .panic
  | some word => .call (.guarded (.store (self.index vaddr) word)) fun _ =>
      tmpPageUnlock (next (.ok ()))

/-- The assertion at the beginning of `set_entry`. -/
def entryAligned (self : PageTableLevel) (vaddr : Nat) :
    PageTableEntry PageTableLevel → Bool
  | .page _ _ => decide (vaddr % regionSize self = 0)
  | .level _ => true

/-- The accesses of an operation. -/
def operationAccesses :
    (op : PageTableOp PageTableLevel PageSize) → (op.Answer → AccessM α) → AccessM α
  | .alloc size, next => .call (.rest (.alloc size)) next
  | .free addr size, next => .call (.rest (.free addr size)) next
  | .newSublevel self, next => .call (.rest (.alloc PageSize.size4K)) fun answer =>
      match answer with
      | none => next none
      | some addr => tmpPageLock addr (storeNull
          (tmpPageUnlock (next (some ⟨addr, self.shift - pageLevelBits⟩)))
          (List.range pageTableEntries))
  | .freeSublevel _ sublevel, next =>
      .call (.rest (.free sublevel.paddr PageSize.size4K)) fun _ => next (.ok ())
  | .setEntry self vaddr entry, next =>
      if entryAligned self vaddr entry then
        tmpPageLock self.paddr <|
          if self.shift > 12 then
            .call (.guarded (.load (self.index vaddr))) fun old =>
              if old.flags.ps then tmpPageUnlock (next (.error (.mappingOver old.address)))
              else storeEntry self vaddr entry next
          else storeEntry self vaddr entry next
      else .panic
  | .getEntry self vaddr, next => tmpPageLock self.paddr <|
      .call (.guarded (.load (self.index vaddr))) fun entry =>
        tmpPageUnlock (next (.ok (self.decode entry)))

/-- The accesses of a program. -/
def accesses : PagingM α → AccessM α
  | .ret value => .ret value
  | .throw error => .throw error
  | .panic => .panic
  | .call op next => operationAccesses op fun answer => accesses (next answer)

end Code

/-! ## Atomic operations -/

/-- A section as one operation. -/
inductive EntryOp where
  | getEntry (self : PageTableLevel) (vaddr : Nat)
  | setEntry (self : PageTableLevel) (vaddr : Nat) (entry : PageTableEntry PageTableLevel)
  | clear (frame : Nat)
  deriving DecidableEq, Repr

abbrev EntryOp.Answer : EntryOp → Type
  | .getEntry _ _ => MappingResult (PageTableEntry PageTableLevel)
  | .setEntry _ _ _ => MappingResult Unit
  | .clear _ => Unit

abbrev entrySig : Signature := ⟨EntryOp, EntryOp.Answer⟩

def entryHandler : Handler entrySig Memory
  | .getEntry self vaddr, memory =>
      some (.ok (self.decode (memory self.paddr (self.index vaddr))), memory)
  | .setEntry self vaddr entry, memory =>
      let old := memory self.paddr (self.index vaddr)
      if self.shift > 12 ∧ old.flags.ps then some (.error (.mappingOver old.address), memory)
      else (self.encode entry).map fun word =>
        (.ok (), memory.write self.paddr (self.index vaddr) word)
  | .clear frame, memory => some ((), memory.clear frame)

/-- Page-table code with atomic sections. -/
abbrev EntryM := Program (specSig entrySig allocSig) MappingError

section Atomic

variable {α : Type}

/-- The atomic operations of an operation, with the assertions before them. -/
def operationEntries :
    (op : PageTableOp PageTableLevel PageSize) → (op.Answer → EntryM α) → EntryM α
  | .alloc size, next => .call (.rest (.alloc size)) next
  | .free addr size, next => .call (.rest (.free addr size)) next
  | .newSublevel self, next => .call (.rest (.alloc PageSize.size4K)) fun answer =>
      match answer with
      | none => next none
      | some addr =>
          if addr % 0x1000 = 0 then
            .call (.atomic (.clear addr)) fun _ =>
              next (some ⟨addr, self.shift - pageLevelBits⟩)
          else .panic
  | .freeSublevel _ sublevel, next =>
      .call (.rest (.free sublevel.paddr PageSize.size4K)) fun _ => next (.ok ())
  | .setEntry self vaddr entry, next =>
      if entryAligned self vaddr entry ∧ self.paddr % 0x1000 = 0 then
        .call (.atomic (.setEntry self vaddr entry)) next
      else .panic
  | .getEntry self vaddr, next =>
      if self.paddr % 0x1000 = 0 then .call (.atomic (.getEntry self vaddr)) next else .panic

/-- The atomic operations of a program. -/
def entries : PagingM α → EntryM α
  | .ret value => .ret value
  | .throw error => .throw error
  | .panic => .panic
  | .call op next => operationEntries op fun answer => entries (next answer)

variable {A : Type} [PageAllocatorTrait PageSize A]

/-- All of them, on the memory and the allocator. -/
abbrev entriesHandler : Handler (specSig entrySig allocSig) (Memory × A) :=
  bothHandlers entryHandler allocHandler

omit [PageAllocatorTrait PageSize A] in
/-- `set_entry` is two assertions and an operation on the memory. -/
theorem handleSetEntry_eq (self : PageTableLevel) (vaddr : Nat)
    (entry : PageTableEntry PageTableLevel) (state : State A) :
    handleSetEntry self vaddr entry state =
      if entryAligned self vaddr entry ∧ self.paddr % 0x1000 = 0 then
        (entryHandler (.setEntry self vaddr entry) state.memory).map fun result =>
          (result.1, { state with memory := result.2 })
      else none := by
  have stored : (if (decide (self.shift > 12) &&
        (state.memory self.paddr (self.index vaddr)).flags.ps) = true then
      some (.error (.mappingOver (state.memory self.paddr (self.index vaddr)).address), state)
      else (self.encode entry).map fun word => (.ok (), { state with
        memory := state.memory.write self.paddr (self.index vaddr) word })) =
      (entryHandler (.setEntry self vaddr entry) state.memory).map fun result =>
        (result.1, { state with memory := result.2 }) := by
    simp only [entryHandler, Bool.and_eq_true, decide_eq_true_eq]
    split
    · rfl
    · rw [Option.map_map]
      rfl
  simp only [handleSetEntry, stored]
  cases entry with
  | level level => simp [entryAligned]
  | page paddr flags =>
      by_cases onRegion : vaddr % regionSize self = 0
      · simp [entryAligned, onRegion]
      · simp [entryAligned, onRegion]

/-- An operation of the page-table model is its atomic operations. -/
theorem run_operationEntries {op : PageTableOp PageTableLevel PageSize} {answer : op.Answer}
    {state after : State A} (handled : handler op state = some (answer, after))
    (next : op.Answer → EntryM α) :
    run entriesHandler (operationEntries op next) (state.memory, state.allocator) =
      run entriesHandler (next answer) (after.memory, after.allocator) := by
  cases op with
  | alloc size =>
      cases handled
      rfl
  | free addr size =>
      cases handled
      rfl
  | freeSublevel self sublevel =>
      cases handled
      rfl
  | getEntry self vaddr =>
      simp only [handler, handleGetEntry] at handled
      split at handled
      next aligned =>
        cases handled
        rw [operationEntries, if_pos aligned]
        rfl
      next => cases handled
  | newSublevel self =>
      simp only [handler, handleNewSublevel] at handled
      rw [operationEntries, Program.run_call_some entriesHandler
        (show entriesHandler (.rest (.alloc PageSize.size4K)) (state.memory, state.allocator) =
          some (_, state.memory, _) from rfl)]
      split at handled
      next allocator allocated =>
        cases handled
        rw [allocated]
      next addr allocator allocated =>
        rw [allocated]
        split at handled
        next aligned =>
          cases handled
          simp only [if_pos aligned]
          rfl
        next => cases handled
  | setEntry self vaddr entry =>
      rw [handler, handleSetEntry_eq] at handled
      split at handled
      next checked =>
        obtain ⟨result, stored, same⟩ := Option.map_eq_some_iff.mp handled
        cases same
        rw [operationEntries, if_pos checked, Program.run_call, entriesHandler,
          bothHandlers_atomic, stored]
        rfl
      next => cases handled

/-- A thread that is alone runs as the page-table model does. -/
theorem run_entries {program : PagingM α} {state after : State A}
    {outcome : Outcome MappingError α} (ran : run handler program state = (outcome, after))
    (returned : outcome ≠ .panic) :
    run entriesHandler (entries program) (state.memory, state.allocator) =
      (outcome, after.memory, after.allocator) := by
  induction program generalizing state with
  | ret value =>
      cases ran
      rfl
  | throw error =>
      cases ran
      rfl
  | panic =>
      cases ran
      exact absurd rfl returned
  | call op next ih =>
      cases handled : handler op state with
      | none =>
          rw [Program.run_call_none handler handled] at ran
          cases ran
          exact absurd rfl returned
      | some result =>
          rw [Program.run_call_some handler handled] at ran
          rw [entries, run_operationEntries handled]
          exact ih result.1 ran

theorem run_operationEntries_none {op : PageTableOp PageTableLevel PageSize} {state : State A}
    (refused : handler op state = none) (next : op.Answer → EntryM α) :
    (run entriesHandler (operationEntries op next) (state.memory, state.allocator)).1 = .panic := by
  cases op with
  | alloc size => cases refused
  | free addr size => cases refused
  | freeSublevel self sublevel => cases refused
  | getEntry self vaddr =>
      simp only [handler, handleGetEntry] at refused
      split at refused
      next => cases refused
      next unaligned =>
        rw [operationEntries, if_neg unaligned]
        rfl
  | newSublevel self =>
      simp only [handler, handleNewSublevel] at refused
      rw [operationEntries, Program.run_call_some entriesHandler
        (show entriesHandler (.rest (.alloc PageSize.size4K)) (state.memory, state.allocator) =
          some (_, state.memory, _) from rfl)]
      split at refused
      next => cases refused
      next addr allocator allocated =>
        rw [allocated]
        split at refused
        next => cases refused
        next unaligned =>
          simp only [if_neg unaligned]
          rfl
  | setEntry self vaddr entry =>
      rw [handler, handleSetEntry_eq] at refused
      rw [operationEntries]
      split at refused
      next checked =>
        rw [if_pos checked, Program.run_call, entriesHandler, bothHandlers_atomic,
          Option.map_eq_none_iff.mp refused]
        rfl
      next failed =>
        rw [if_neg failed]
        rfl

/-- A thread that is alone panics as the page-table model does. -/
theorem run_entries_panic {program : PagingM α} {state : State A}
    (panics : (run handler program state).1 = .panic) :
    (run entriesHandler (entries program) (state.memory, state.allocator)).1 = .panic := by
  induction program generalizing state with
  | ret value => cases panics
  | throw error => cases panics
  | panic => rfl
  | call op next ih =>
      cases handled : handler op state with
      | none => exact run_operationEntries_none handled _
      | some result =>
          rw [Program.run_call_some handler handled] at panics
          rw [entries, run_operationEntries handled]
          exact ih result.1 panics

end Atomic

/-! ## Addresses are machine words -/

/-- The allocator hands out physical addresses. -/
def PhysAddrs (A : Type) [PageAllocatorTrait PageSize A] : Prop :=
  ∀ (allocator : A) (size : PageSize) (addr : Nat),
    (PageAllocatorTrait.alloc allocator size).1 = some addr → addr < 0x100000000

/-- The operation is on a table with a physical address. -/
def OnPhysAddr : PageTableOp PageTableLevel PageSize → Prop
  | .setEntry self _ _ => self.paddr < 0x100000000
  | .getEntry self _ => self.paddr < 0x100000000
  | _ => True

/-- The addresses in an answer are physical addresses. -/
def AnswersPhysAddr : (op : PageTableOp PageTableLevel PageSize) → op.Answer → Prop
  | .alloc _, answer => ∀ addr, answer = some addr → addr < 0x100000000
  | .newSublevel _, answer => ∀ level, answer = some level → level.paddr < 0x100000000
  | .getEntry _ _, answer => ∀ level, answer = .ok (.level level) → level.paddr < 0x100000000
  | _, _ => True

/-- A program that stays on tables with physical addresses. -/
abbrev Addressable {α : Type} (post : α → Prop) (program : PagingM α) : Prop :=
  program.OnlyWith OnPhysAddr AnswersPhysAddr post

section Addressable

variable {self level : PageTableLevel} {vaddr size page length : Nat}

theorem addressable_getEntry (isAddress : self.paddr < 0x100000000) (vaddr : Nat) :
    Addressable (fun entry => ∀ level, entry = .level level → level.paddr < 0x100000000)
      (getEntry self vaddr) := by
  refine ⟨isAddress, fun answer possible => Program.onlyWith_ofExcept ?_⟩
  rintro entry rfl level rfl
  exact possible level rfl

theorem addressable_setEntry (isAddress : self.paddr < 0x100000000) (vaddr : Nat)
    (entry : PageTableEntry PageTableLevel) :
    Addressable (fun _ => True) (setEntry self vaddr entry : PagingM Unit) :=
  ⟨isAddress, fun _ _ => Program.onlyWith_ofExcept fun _ _ => trivial⟩

theorem addressable_free {addr : Nat} {size : PageSize} :
    Addressable (fun _ => True) (free addr size : PagingM Unit) :=
  ⟨trivial, fun _ _ => trivial⟩

theorem addressable_unlinkSublevel (isAddress : self.paddr < 0x100000000) :
    Addressable (fun _ => True) (unlinkSublevel self page level : PagingM Unit) :=
  .bind ⟨trivial, fun _ _ => Program.onlyWith_ofExcept fun _ _ => trivial⟩ fun _ _ =>
    addressable_setEntry isAddress _ _

theorem addressable_checkedAdd {a b : Nat} :
    Addressable (fun _ => True) (checkedAdd a b : PagingM Nat) := by
  rw [checkedAdd]
  split <;> trivial

theorem addressable_checkedMul {a b : Nat} :
    Addressable (fun _ => True) (checkedMul a b : PagingM Nat) := by
  rw [checkedMul]
  split <;> trivial

theorem addressable_checkedSub {a b : Nat} :
    Addressable (fun _ => True) (checkedSub a b : PagingM Nat) := by
  rw [checkedSub]
  split <;> trivial

theorem addressable_alignUp {addr align : Nat} :
    Addressable (fun _ => True) (alignUp addr align : PagingM Nat) :=
  .bind addressable_checkedAdd fun _ _ => .bind addressable_checkedSub fun _ _ => trivial

theorem addressable_cutByRange :
    Addressable (fun _ => True) (cutByRange vaddr size page length : PagingM Bool) := by
  rw [cutByRange]
  split
  next => trivial
  next =>
    refine .bind addressable_checkedAdd fun pageEnd _ => ?_
    exact .bind addressable_checkedAdd fun rangeEnd _ => trivial

theorem addressable_newSublevel :
    Addressable (fun level => level.paddr < 0x100000000) (newSublevel self : PagingM _) := by
  refine ⟨trivial, fun answer possible => ?_⟩
  cases answer with
  | none => trivial
  | some level => exact possible level rfl

theorem addressable_nextLevel (isAddress : self.paddr < 0x100000000) (vaddr : Nat) :
    Addressable (fun level => level.paddr < 0x100000000) (nextLevel self vaddr : PagingM _) := by
  refine .bind (addressable_getEntry isAddress vaddr) fun entry inEntry => ?_
  cases entry with
  | level level => exact inEntry level rfl
  | page addr flags =>
      dsimp only
      split
      next => trivial
      next =>
        refine .bind addressable_newSublevel fun level inLevel => ?_
        exact (addressable_setEntry isAddress _ _).bind fun _ _ => inLevel

theorem addressable_mapPage {depth : Nat} (isAddress : self.paddr < 0x100000000)
    (vaddr paddr : Nat) (size : PageSize) (flags : MappingFlags) :
    Addressable (fun _ => True) (mapPage depth self vaddr paddr size flags) := by
  induction depth generalizing self with
  | zero => trivial
  | succ depth ih =>
      rw [mapPage]
      split
      next => exact addressable_setEntry isAddress _ _
      next => exact (addressable_nextLevel isAddress vaddr).bind fun level => ih

theorem addressable_mapAlloc {depth : Nat} (isAddress : self.paddr < 0x100000000)
    (flags : MappingFlags) :
    Addressable (fun _ => True) (mapAlloc depth self vaddr size flags : PagingM Nat) := by
  refine .bind (Program.onlyWith_forEach fun page => ?_) fun _ _ => trivial
  refine .bind addressable_checkedMul fun offset _ => ?_
  refine .bind addressable_checkedAdd fun target _ => ?_
  refine .bind ⟨trivial, fun _ _ => trivial⟩ fun frame _ => ?_
  cases frame with
  | none => trivial
  | some frame => exact addressable_mapPage isAddress _ _ _ _

theorem addressable_anyMapped (isAddress : level.paddr < 0x100000000) :
    Addressable (fun _ => True) (anyMapped page length level : PagingM Bool) :=
  .bind addressable_checkedAdd fun _ _ => Program.onlyWith_anyOf fun entryAddr =>
    .bind (addressable_getEntry isAddress entryAddr) fun _ _ => trivial

theorem addressable_unmapPart {recurse : PageTableLevel → Nat → Nat → PagingM Unit}
    (inRecurse : ∀ vaddr size, Addressable (fun _ => True) (recurse level vaddr size)) :
    Addressable (fun _ => True) (unmapPart recurse vaddr size page length level) := by
  rw [unmapPart]
  split
  next =>
    refine .bind addressable_checkedAdd fun pageEnd _ => ?_
    exact .bind addressable_checkedSub fun length _ => inRecurse _ _
  next =>
    refine .bind addressable_checkedAdd fun rangeEnd _ => ?_
    exact .bind addressable_checkedSub fun length _ => inRecurse _ _

theorem addressable_unmapRegion {recurse : PageTableLevel → Nat → Nat → PagingM Unit}
    (inRecurse : ∀ level vaddr size, level.paddr < 0x100000000 →
      Addressable (fun _ => True) (recurse level vaddr size))
    (isAddress : self.paddr < 0x100000000) :
    Addressable (fun _ => True) (unmapRegion recurse self vaddr size page) := by
  refine .bind (addressable_getEntry isAddress page) fun entry inEntry => ?_
  refine .bind addressable_cutByRange fun cut _ => ?_
  cases entry with
  | level level =>
      have inLevel := inEntry level rfl
      cases cut with
      | false =>
          exact (inRecurse level _ _ inLevel).bind fun _ _ => addressable_unlinkSublevel isAddress
      | true =>
          refine .bind (addressable_unmapPart fun vaddr size => inRecurse level vaddr size inLevel)
            fun _ _ => ?_
          refine .bind (addressable_anyMapped inLevel) fun mapped _ => ?_
          cases mapped with
          | false => exact addressable_unlinkSublevel isAddress
          | true => trivial
  | page paddr flags =>
      cases cut with
      | false =>
          dsimp only
          split
          next =>
            rw [freePage]
            cases pageSize self with
            | none => trivial
            | some ownSize =>
                rw [Program.unwrap, Program.ret_bind]
                exact addressable_free.bind fun _ _ => addressable_setEntry isAddress _ _
          next => trivial
      | true =>
          dsimp only
          split <;> trivial

theorem addressable_unmapFree {depth : Nat} (isAddress : self.paddr < 0x100000000) :
    Addressable (fun _ => True) (unmapFree depth self vaddr size : PagingM Unit) := by
  induction depth generalizing self vaddr size with
  | zero => trivial
  | succ depth ih =>
      refine .bind addressable_checkedAdd fun rangeEnd _ => ?_
      refine .bind addressable_alignUp fun stop _ => ?_
      exact Program.onlyWith_forEach fun page =>
        addressable_unmapRegion (fun level vaddr size inLevel => ih inLevel) isAddress

/-- Every call. -/
theorem addressable_call {root : Nat} (isAddress : root < 0x100000000) (call : Call) :
    Addressable (fun _ => True) (call.program root) := by
  cases call with
  | mapAlloc vaddr size flags =>
      exact (addressable_mapAlloc isAddress flags).bind fun _ _ => trivial
  | unmapFree vaddr size => exact addressable_unmapFree isAddress

end Addressable

/-! ## Sections -/

theorem tmpPageHandler_total (windowOp : TmpPageOp) (window : Window) :
    ∃ result, tmpPageHandler windowOp window = some result := by
  cases windowOp <;> exact ⟨_, rfl⟩

theorem Window.Mapped.shown {window : Window} {frame : Nat}
    (isMapped : window.Mapped (some frame)) :
    window.shown = some frame := by
  rw [Window.shown, isMapped.walks]
  cases cached : window.cached with
  | none => rfl
  | some other =>
      have agrees := isMapped.agrees other cached
      rw [isMapped.walks] at agrees
      rw [agrees]
      rfl

section Sections

variable {A α : Type} [PageAllocatorTrait PageSize A]

/-- The processor acts on the window. -/
structure ProcessorActs (before after : TmpFrames) : Prop where
  window : Processor before.window after.window
  memory : after.memory = before.memory

/-- The sections, for an allocator that hands out physical addresses. -/
def tmpSections (physAddrs : PhysAddrs A) :
    Sections frameSig entrySig allocSig TmpFrames Memory A where
  handler := frameHandler
  atomicHandler := entryHandler
  restHandler := allocHandler
  disturb := ProcessorActs
  view := TmpFrames.memory
  invariant frames := ∃ mapped, frames.window.Mapped mapped
  possible
    | .alloc _, answer => ∀ addr, answer = some addr → addr < 0x100000000
    | .free _ _, _ => True
  kept := by
    rintro before after ⟨mapped, isMapped⟩ acted
    exact ⟨⟨mapped, isMapped.of_processor acted.window⟩, acted.memory⟩
  answers {op allocator answer after} handled := by
    cases op with
    | alloc size =>
        have allocated : PageAllocatorTrait.alloc allocator size = (answer, after) :=
          Option.some.inj handled
        have fits := physAddrs allocator size
        rw [allocated] at fits
        exact fits
    | free addr size => trivial

variable {physAddrs : PhysAddrs A} {mapped : Option Nat} {frame : Nat} {window : Window}
  {memory before : Memory} {op : EntryOp} {next : op.Answer → EntryM α}

theorem processor_of_disturbed {frames current : TmpFrames}
    (disturbed : (tmpSections physAddrs).Disturbed frames current) :
    Relation.ReflTransGen Processor frames.window current.window ∧
      current.memory = frames.memory := by
  induction disturbed with
  | refl => exact ⟨.refl, rfl⟩
  | tail _ acted ih => exact ⟨ih.1.tail acted.window, acted.memory.trans ih.2⟩

theorem mapped_of_disturbed {frames current : TmpFrames} (isMapped : frames.window.Mapped mapped)
    (disturbed : (tmpSections physAddrs).Disturbed frames current) :
    current.window.Mapped mapped ∧ current.memory = frames.memory := by
  induction disturbed with
  | refl => exact ⟨isMapped, rfl⟩
  | tail _ acted ih => exact ⟨ih.1.of_processor acted.window, acted.memory.trans ih.2⟩

/-- Obligations of code in a section. -/
abbrev Within (physAddrs : PhysAddrs A) (op : EntryOp) (next : op.Answer → EntryM α)
    (before memory : Memory) (window : Window) (code : AccessM α) : Prop :=
  (tmpSections physAddrs).Implements code (.within op next before ⟨window, memory⟩)

/-- Code on the window, which does not touch the memory. -/
theorem within_onWindow {β : Type} {code : TmpPageM β} {rest : β → AccessM α}
    (safe : SafeOnWindow (fun outcome after => ∃ value, outcome = .ok value ∧
      Within physAddrs op next before memory after (rest value)) code window) :
    Within physAddrs op next before memory window (onWindow code rest) := by
  induction code generalizing window with
  | ret value =>
      obtain ⟨_, same, continues⟩ := safe.returned
      cases same
      exact continues
  | throw error => exact error.elim
  | panic =>
      obtain ⟨_, _, same, -⟩ := safe window .refl
      cases same
  | call windowOp rest ih =>
      rintro ⟨current, same⟩ disturbed
      obtain ⟨acted, rfl⟩ := processor_of_disturbed disturbed
      obtain ⟨⟨answer, after⟩, handled⟩ := tmpPageHandler_total windowOp current
      refine ⟨answer, ⟨after, same⟩, ?_, ih answer ((safe current acted).2 answer after handled)⟩
      simp only [tmpSections, frameHandler, handled]
      rfl

theorem within_load {index : Nat} {rest : PTEntry → AccessM α}
    (isMapped : window.Mapped (some frame))
    (continues : ∀ after, after.Mapped (some frame) →
      Within physAddrs op next before memory after (rest (memory frame index))) :
    Within physAddrs op next before memory window (.call (.guarded (.load index)) rest) := by
  rintro ⟨current, same⟩ disturbed
  obtain ⟨stillMapped, rfl⟩ := mapped_of_disturbed isMapped disturbed
  refine ⟨_, _, ?_, continues current stillMapped⟩
  simp only [tmpSections, frameHandler, stillMapped.shown]
  rfl

theorem within_store {index : Nat} {entry : PTEntry} {rest : Unit → AccessM α}
    (isMapped : window.Mapped (some frame))
    (continues : ∀ after, after.Mapped (some frame) →
      Within physAddrs op next before (memory.write frame index entry) after (rest ())) :
    Within physAddrs op next before memory window
      (.call (.guarded (.store index entry)) rest) := by
  rintro ⟨current, same⟩ disturbed
  obtain ⟨stillMapped, rfl⟩ := mapped_of_disturbed isMapped disturbed
  refine ⟨_, _, ?_, continues current stillMapped⟩
  simp only [tmpSections, frameHandler, stillMapped.shown]
  rfl

/-- The end of a section. -/
theorem within_unlock {rest : AccessM α} {answer : op.Answer}
    (isMapped : window.Mapped mapped) (handled : entryHandler op before = some (answer, memory))
    (continues : (tmpSections physAddrs).Implements rest (.between (next answer))) :
    Within physAddrs op next before memory window (tmpPageUnlock rest) := by
  rintro ⟨current, same⟩ disturbed
  obtain ⟨stillMapped, rfl⟩ := mapped_of_disturbed isMapped disturbed
  exact ⟨answer, handled, ⟨mapped, stillMapped⟩, continues⟩

/-- A section. -/
theorem implements_tmpPageLock (aligned : frame % 0x1000 = 0) (isAddress : frame < 0x100000000)
    {body : AccessM α}
    (within : ∀ memory window, window.Mapped (some frame) →
      Within physAddrs op next memory memory window body) :
    (tmpSections physAddrs).Implements (tmpPageLock frame body)
      (.between (.call (.atomic op) next)) := by
  rw [tmpPageLock, if_pos aligned]
  refine ⟨op, next, rfl, ?_⟩
  rintro ⟨window, memory⟩ ⟨mapped, isMapped⟩
  apply within_onWindow
  apply safe_tmpPageMap aligned isAddress isMapped
  exact fun after mappedAfter => ⟨(), rfl, within memory after mappedAfter⟩

/-- The loop over the entries of a table clears it. -/
theorem within_storeNull {indices : List Nat} {code : AccessM α}
    (isMapped : window.Mapped (some frame)) (inside : ∀ i ∈ indices, i < 0x400)
    (cleared : ∀ i < 0x400, i ∈ indices ∨ memory frame i = .NULL)
    (same : memory.clear frame = before.clear frame)
    (continues : ∀ after, after.Mapped (some frame) →
      Within physAddrs op next before (before.clear frame) after code) :
    Within physAddrs op next before memory window (storeNull code indices) := by
  induction indices generalizing memory window with
  | nil =>
      have done : before.clear frame = memory :=
        same.symm.trans (clear_of_cleared fun i below => (cleared i below).resolve_left (by simp))
      rw [← done]
      exact continues window isMapped
  | cons index indices ih =>
      refine within_store isMapped fun after mappedAfter => ih mappedAfter ?_ ?_ ?_
      · exact fun i member => inside i (List.mem_cons_of_mem _ member)
      · intro i below
        by_cases here : i = index
        · exact .inr (by rw [here, Memory.write_self])
        · rw [Memory.write_of_index_ne _ _ _ _ here]
          exact (cleared i below).imp_left fun member =>
            (List.mem_cons.mp member).resolve_left here
      · rw [clear_write (inside index List.mem_cons_self), same]

theorem within_storeEntry {self : PageTableLevel} {vaddr : Nat}
    {entry : PageTableEntry PageTableLevel} {next : MappingResult Unit → EntryM α}
    {rest : MappingResult Unit → AccessM α} (isMapped : window.Mapped (some self.paddr))
    (notRefused : ¬(self.shift > 12 ∧ (before self.paddr (self.index vaddr)).flags.ps))
    (continues : ∀ answer, (tmpSections physAddrs).Implements (rest answer)
      (.between (next answer))) :
    Within physAddrs (.setEntry self vaddr entry) next before before window
      (storeEntry self vaddr entry rest) := by
  have handled : entryHandler (.setEntry self vaddr entry) before =
      (self.encode entry).map fun word =>
        (.ok (), before.write self.paddr (self.index vaddr) word) := if_neg notRefused
  rw [storeEntry]
  cases encoded : self.encode entry with
  | none =>
      rw [encoded] at handled
      exact handled
  | some word =>
      rw [encoded] at handled
      exact within_store isMapped fun after mappedAfter =>
        within_unlock mappedAfter handled (continues _)

omit [PageAllocatorTrait PageSize A] in
/-- The address in an entry is a machine word. -/
theorem decode_bounded {self level : PageTableLevel} {entry : PTEntry}
    (decoded : self.decode entry = .level level) : level.paddr < 0x100000000 := by
  rw [PageTableLevel.decode] at decoded
  split at decoded
  next =>
    cases decoded
    exact BitVec.isLt _
  next => cases decoded

/-- Each operation is one section, or a method of the allocator, or both. -/
theorem implements_operation {op : PageTableOp PageTableLevel PageSize}
    {spec : op.Answer → EntryM α} {rest : op.Answer → AccessM α} (onAddress : OnPhysAddr op)
    (continues : ∀ answer, AnswersPhysAddr op answer →
      (tmpSections physAddrs).Implements (rest answer) (.between (spec answer))) :
    (tmpSections physAddrs).Implements (operationAccesses op rest)
      (.between (operationEntries op spec)) := by
  cases op with
  | alloc size => exact ⟨spec, rfl, continues⟩
  | free addr size => exact ⟨spec, rfl, fun answer _ => continues answer trivial⟩
  | freeSublevel self sublevel => exact ⟨_, rfl, fun _ _ => continues _ trivial⟩
  | newSublevel self =>
      refine ⟨_, rfl, fun answer possible => ?_⟩
      cases answer with
      | none => exact continues none (by simp [AnswersPhysAddr])
      | some addr =>
          have isAddress : addr < 0x100000000 := possible addr rfl
          have continues := continues (some ⟨addr, self.shift - pageLevelBits⟩)
            fun level same => Option.some.inj same ▸ isAddress
          by_cases aligned : addr % 0x1000 = 0
          · simp only [if_pos aligned]
            apply implements_tmpPageLock aligned isAddress
            intro memory window isMapped
            have all (i : Nat) : i ∈ List.range pageTableEntries ↔ i < 0x400 := by
              rw [List.mem_range, show pageTableEntries = 0x400 by decide]
            have cleared : entryHandler (.clear addr) memory = some ((), memory.clear addr) := by
              rw [entryHandler]
            generalize List.range pageTableEntries = indices at all ⊢
            exact within_storeNull isMapped (fun i => (all i).mp)
              (fun i below => .inl ((all i).mpr below)) rfl
              fun after mappedAfter => within_unlock mappedAfter cleared continues
          · simp only [tmpPageLock, if_neg aligned]
            rfl
  | setEntry self vaddr entry =>
      rw [operationAccesses, operationEntries]
      by_cases onRegion : entryAligned self vaddr entry = true
      · by_cases aligned : self.paddr % 0x1000 = 0
        · rw [if_pos onRegion, if_pos (And.intro onRegion aligned)]
          apply implements_tmpPageLock aligned onAddress
          intro memory window isMapped
          have continues (answer : MappingResult Unit) := continues answer trivial
          split
          next above =>
            refine within_load isMapped fun after mappedAfter => ?_
            split
            next ps => exact within_unlock mappedAfter (if_pos ⟨above, ps⟩) (continues _)
            next notPs => exact within_storeEntry mappedAfter (fun both => notPs both.2) continues
          next last => exact within_storeEntry isMapped (fun both => last both.1) continues
        · have failed : ¬(entryAligned self vaddr entry = true ∧ self.paddr % 0x1000 = 0) :=
            fun both => aligned both.2
          rw [if_pos onRegion, if_neg failed, tmpPageLock, if_neg aligned]
          rfl
      · have failed : ¬(entryAligned self vaddr entry = true ∧ self.paddr % 0x1000 = 0) :=
          fun both => onRegion both.1
        rw [if_neg onRegion, if_neg failed]
        rfl
  | getEntry self vaddr =>
      rw [operationAccesses, operationEntries]
      by_cases aligned : self.paddr % 0x1000 = 0
      · rw [if_pos aligned]
        apply implements_tmpPageLock aligned onAddress
        intro memory window isMapped
        refine within_load isMapped fun after mappedAfter => ?_
        refine within_unlock mappedAfter rfl (continues _ ?_)
        intro level same
        exact decode_bounded (Except.ok.inj same)
      · rw [if_neg aligned, tmpPageLock, if_neg aligned]
        rfl

theorem implements_entries {post : α → Prop} {program : PagingM α}
    (addressable : Addressable post program) :
    (tmpSections physAddrs).Implements (accesses program) (.between (entries program)) := by
  induction program with
  | ret value => rfl
  | throw error => rfl
  | panic => rfl
  | call op next ih =>
      exact implements_operation addressable.1 fun answer possible =>
        ih answer (addressable.2 answer possible)

end Sections

/-! ## Threads -/

section Callers

variable {A ι : Type} [PageAllocatorTrait PageSize A] [DecidableEq ι]

/-- Any number of threads, each of them before a call on an address space. -/
def callers (calls : ι → Call) (roots : ι → Nat) (window : Window) (state : State A) :
    Locked frameSig allocSig MappingError Unit ι TmpFrames A :=
  ⟨fun who => accesses ((calls who).program (roots who)), none, ⟨window, state.memory⟩,
    state.allocator⟩

/-- The same threads with atomic operations. -/
def atomicCallers (calls : ι → Call) (roots : ι → Nat) (state : State A) :
    Threads (specSig entrySig allocSig) MappingError Unit ι (Memory × A) :=
  ⟨fun who => entries ((calls who).program (roots who)), (state.memory, state.allocator)⟩

/-- The steps of the threads and of the processor. -/
abbrev CallersReach : Locked frameSig allocSig MappingError Unit ι TmpFrames A →
    Locked frameSig allocSig MappingError Unit ι TmpFrames A → Prop :=
  Relation.ReflTransGen (LockStep frameHandler allocHandler ProcessorActs)

/-- Threads that have ended have ended alike, and only a panic keeps the lock.  Unless a
thread has it, the memories are equal. -/
structure SameResults (config : Locked frameSig allocSig MappingError Unit ι TmpFrames A)
    (threads : Threads (specSig entrySig allocSig) MappingError Unit ι (Memory × A)) : Prop where
  allocator : threads.state.2 = config.outside
  memory : config.holder = none → threads.state.1 = config.inside.memory
  outcomes : ∀ who outcome, (config.programs who).ended = some outcome →
    (threads.programs who).ended = some outcome
  released : ∀ who outcome, (config.programs who).ended = some outcome → outcome ≠ .panic →
    config.holder ≠ some who

variable {calls : ι → Call} {roots : ι → Nat} {window : Window} {mapped : Option Nat}
  {state : State A} {config : Locked frameSig allocSig MappingError Unit ι TmpFrames A}

theorem callers_simulate (physAddrs : PhysAddrs A) (rootsFit : ∀ who, roots who < 0x100000000)
    (isMapped : window.Mapped mapped)
    (reached : CallersReach (callers calls roots window state) config) :
    ∃ schedule, (tmpSections physAddrs).Simulates config
      ((atomicCallers calls roots state).run entriesHandler schedule) := by
  have start : (tmpSections physAddrs).Simulates (callers calls roots window state)
      (atomicCallers calls roots state) :=
    Sections.simulates_start ⟨mapped, isMapped⟩ fun who =>
      implements_entries (addressable_call (rootsFit who) (calls who))
  exact start.run reached

/-- Whatever the threads and the processor do, all of it could be done by threads whose
operations on page tables are atomic.  Unless a thread panics in the middle of an operation,
somebody can move until all have ended. -/
theorem tmp_page_calls_atomic (physAddrs : PhysAddrs A)
    (rootsFit : ∀ who, roots who < 0x100000000) (isMapped : window.Mapped mapped)
    (reached : CallersReach (callers calls roots window state) config) :
    (∃ schedule, SameResults config
      ((atomicCallers calls roots state).run entriesHandler schedule)) ∧
    ((∀ who, config.holder = some who → config.programs who ≠ .panic) →
      (∃ who, (config.programs who).ended = none) →
        ∃ who after, LockMove frameHandler allocHandler who config after) := by
  obtain ⟨schedule, simulates⟩ := callers_simulate physAddrs rootsFit isMapped reached
  constructor
  · refine ⟨schedule, simulates.outside, ?_, fun who outcome => simulates.ended,
      fun who outcome => simulates.released⟩
    exact fun free => (simulates.inside free).2.symm
  · rintro alive ⟨who, unfinished⟩
    exact simulates.progress alive unfinished

end Callers

/-- One of the threads runs to its end. -/
def runCaller {ι A : Type} [PageAllocatorTrait PageSize A] [DecidableEq ι] (who : ι)
    (config : Locked frameSig allocSig MappingError Unit ι TmpFrames A) :
    Locked frameSig allocSig MappingError Unit ι TmpFrames A :=
  let result := run (lockHandler frameHandler allocHandler who) (config.programs who)
    (config.holder, config.inside, config.outside)
  ⟨Function.update config.programs who (.ret ()), result.2.1, result.2.2.1, result.2.2.2⟩

theorem runCaller_reached {ι A : Type} [PageAllocatorTrait PageSize A] [DecidableEq ι] {who : ι}
    {config : Locked frameSig allocSig MappingError Unit ι TmpFrames A}
    (returned : (run (lockHandler frameHandler allocHandler who) (config.programs who)
      (config.holder, config.inside, config.outside)).1 = .ok ()) :
    CallersReach config (runCaller who config) :=
  reaches_of_run rfl (Prod.ext_iff.mpr ⟨returned, rfl⟩)

/-- Nothing is mapped, and the first free frame is at 192 KiB. -/
def callersStart : State (Bump 0x2000) := ⟨fun _ _ => .NULL, .start 0x30000 (by decide) (by decide)⟩

theorem bump_physAddrs : PhysAddrs (Bump 0x2000) := by
  intro allocator size addr allocated
  simp only [PageAllocatorTrait.alloc] at allocated
  split at allocated
  next below =>
    cases allocated
    exact below
  next => cases allocated

theorem unmappedWindow : Window.Mapped none ⟨.NULL, none⟩ :=
  ⟨fun frame cached => absurd cached (Option.some_ne_none frame).symm, by decide⟩

/-- Two pages of one address space. -/
def pageOfEach (who : Bool) : Call := .mapAlloc (if who then 0x5000 else 0x6000) 0x1000 .readWrite

/-- One thread maps a page after the other. -/
theorem tmp_page_calls_atomic_two_threads :
    ∃ config : Locked frameSig allocSig MappingError Unit Bool TmpFrames (Bump 0x2000),
      (∀ who, (config.programs who).ended = some (.ok ())) ∧ ∃ schedule,
        SameResults config ((atomicCallers pageOfEach (fun _ => 0x1000) callersStart).run
          entriesHandler schedule) := by
  let start := callers pageOfEach (fun _ => 0x1000) ⟨.NULL, none⟩ callersStart
  have first : CallersReach start (runCaller true start) :=
    runCaller_reached (by decide +kernel)
  have second : CallersReach (runCaller true start) (runCaller false (runCaller true start)) :=
    runCaller_reached (by decide +kernel)
  refine ⟨_, ?_, (tmp_page_calls_atomic bump_physAddrs (fun _ => by decide) unmappedWindow
    (first.trans second)).1⟩
  intro who
  cases who <;> rfl

section Alone

variable {A : Type} [PageAllocatorTrait PageSize A] {window : Window} {mapped : Option Nat}
  {state : State A}

/-- A call that is alone returns what the page-table model returns, and leaves its memory. -/
theorem tmp_page_call_alone (physAddrs : PhysAddrs A) {call : Call} {root : Nat}
    (rootFits : root < 0x100000000) (isMapped : window.Mapped mapped)
    {config : Locked frameSig allocSig MappingError Unit Unit TmpFrames A}
    {outcome : Outcome MappingError Unit}
    (reached : CallersReach (callers (fun _ => call) (fun _ => root) window state) config)
    (ended : (config.programs ()).ended = some outcome) :
    (run handler (call.program root) state).1 = outcome ∧
      (outcome ≠ .panic →
        (run handler (call.program root) state).2 = ⟨config.inside.memory, config.outside⟩) := by
  obtain ⟨schedule, simulates⟩ := callers_simulate physAddrs (fun _ => rootFits) isMapped reached
  have alone := Threads.run_alone (simulates.ended ended)
  change run entriesHandler (entries (call.program root)) (state.memory, state.allocator) = _
    at alone
  by_cases panics : (run handler (call.program root) state).1 = .panic
  · have alsoPanics := run_entries_panic panics
    rw [alone] at alsoPanics
    exact ⟨panics.trans alsoPanics.symm, fun returned => absurd alsoPanics returned⟩
  · have returned := run_entries (Prod.mk.eta (p := run handler (call.program root) state)).symm
      panics
    rw [alone] at returned
    obtain ⟨same, states⟩ := Prod.mk.inj returned
    refine ⟨same.symm, fun notPanic => ?_⟩
    have free : config.holder = none := by
      cases holder : config.holder with
      | none => rfl
      | some who => exact absurd holder (simulates.released ended notPanic)
    have memory : config.inside.memory = (run handler (call.program root) state).2.memory :=
      (simulates.inside free).2.trans (congrArg Prod.fst states)
    have allocator : config.outside = (run handler (call.program root) state).2.allocator :=
      simulates.outside.symm.trans (congrArg Prod.snd states)
    rw [memory, allocator]

end Alone

/-- A page is mapped through the temporary page. -/
theorem tmp_page_call_alone_page :
    ∃ config : Locked frameSig allocSig MappingError Unit Unit TmpFrames (Bump 0x2000),
      (run handler ((Call.mapAlloc 0x5000 0x1000 .readWrite).program 0x1000) callersStart).2 =
        ⟨config.inside.memory, config.outside⟩ := by
  let start := callers (fun _ : Unit => .mapAlloc 0x5000 0x1000 .readWrite) (fun _ => 0x1000)
    ⟨.NULL, none⟩ callersStart
  have reached : CallersReach start (runCaller () start) := runCaller_reached (by decide +kernel)
  have ended : ((runCaller () start).programs ()).ended = some (.ok ()) := rfl
  exact ⟨_, (tmp_page_call_alone bump_physAddrs (by decide) unmappedWindow reached ended).2
    (by decide)⟩

end SatanKernel.X86
