import SatanKernel.X86.Walk

/-!
# The page-table operations on the directory and on a page table

The two levels of a 32-bit address space are the page directory (shift 22) and the
page tables (shift 12).  Each operation of the handler is restated here at these
two levels, in terms of the word it reads or writes.
-/

namespace SatanKernel.X86

open Lib NestedPageTableLevel
open Lib.Program (run)

/-- The page directory in the frame at `root`. -/
abbrev directory (root : Nat) : PageTableLevel := ⟨root, 22⟩

/-- The page table in the frame at `frame`. -/
abbrev pageTable (frame : Nat) : PageTableLevel := ⟨frame, 12⟩

@[simp] theorem regionSize_directory (root : Nat) :
    regionSize (directory root) = 0x400000 := by
  simp [regionSize]

@[simp] theorem regionSize_pageTable (frame : Nat) :
    regionSize (pageTable frame) = 0x1000 := by
  simp [regionSize]

@[simp] theorem pageSize_directory (root : Nat) :
    pageSize (directory root) = some PageSize.size4M := by
  simp [pageSize, PageSizeTrait.tryFrom]

@[simp] theorem pageSize_pageTable (frame : Nat) :
    pageSize (pageTable frame) = some PageSize.size4K := by
  simp [pageSize, PageSizeTrait.tryFrom]

theorem index_eq (self : PageTableLevel) (vaddr : Nat) :
    self.index vaddr = vaddr / 2 ^ self.shift % 0x400 := by
  have mask : pageTableEntries - 1 = 2 ^ 10 - 1 := by decide
  rw [PageTableLevel.index, mask, Nat.and_two_pow_sub_one_eq_mod,
    Nat.shiftRight_eq_div_pow]

@[simp] theorem index_directory (root vaddr : Nat) :
    (directory root).index vaddr = dirIndex vaddr := index_eq _ _

@[simp] theorem index_pageTable (frame vaddr : Nat) :
    (pageTable frame).index vaddr = tableIndex vaddr := index_eq _ _

theorem decode_directory (root : Nat) (entry : PTEntry) :
    (directory root).decode entry =
      if entry.isTable then .level (pageTable entry.address)
      else .page entry.address entry.flags.toMapping := by
  simp [PageTableLevel.decode, PTEntry.isTable, pageLevelBits]

@[simp] theorem decode_pageTable (frame : Nat) (entry : PTEntry) :
    (pageTable frame).decode entry =
      .page entry.address entry.flags.toMapping := by
  simp [PageTableLevel.decode]

theorem decode_mapped (frame : Nat) (entry : PTEntry) :
    ((pageTable frame).decode entry).mapped = entry.isMapped := by
  simp [PageTableEntry.mapped, PTEntry.isMapped, PTEFlags.toMapping]

section Run

variable {A : Type} [PageAllocatorTrait PageSize A] (state : State A)

/-! ## Rounding to pages and regions -/

theorem alignDown_page {addr : Nat} (bounded : addr < 0x100000000) :
    alignDown addr 0x1000 = addr / 0x1000 * 0x1000 :=
  alignDown_two_pow (k := 12) bounded (by decide)

theorem alignDown_region {addr : Nat} (bounded : addr < 0x100000000) :
    alignDown addr 0x400000 = addr / 0x400000 * 0x400000 :=
  alignDown_two_pow (k := 22) bounded (by decide)

/-! ## Allocator calls -/

theorem run_alloc (size : PageSize) :
    run handler (alloc size) state =
      (.ok (PageAllocatorTrait.alloc state.allocator size).1,
        { state with
          allocator := (PageAllocatorTrait.alloc state.allocator size).2 }) := rfl

theorem run_free (addr : Nat) (size : PageSize) :
    run handler (free addr size) state =
      (.ok (), { state with
        allocator := PageAllocatorTrait.free state.allocator addr size }) := rfl

theorem run_freeSublevel (self sublevel : PageTableLevel) :
    run handler (freeSublevel self sublevel) state =
      (.ok (), { state with
        allocator := PageAllocatorTrait.free state.allocator sublevel.paddr
          PageSize.size4K }) := rfl

/-! ## Reading an entry -/

/-- `get_entry` answers with the decoded word and changes nothing. -/
theorem handler_getEntry_cases {self : PageTableLevel} {vaddr : Nat} {state after : State A}
    {answer : MappingResult (PageTableEntry PageTableLevel)}
    (handled : handler (.getEntry self vaddr) state = some (answer, after)) :
    answer = .ok (self.decode (state.memory self.paddr (self.index vaddr))) ∧
      after = state := by
  simp only [handler, handleGetEntry] at handled
  split at handled
  next =>
    cases handled
    exact ⟨rfl, rfl⟩
  next => cases handled

theorem run_getEntry (self : PageTableLevel) (vaddr : Nat)
    (aligned : self.paddr % 0x1000 = 0) :
    run handler (getEntry self vaddr) state =
      (.ok (self.decode (state.memory self.paddr (self.index vaddr))), state) := by
  have handled : handler (.getEntry self vaddr) state =
      some (.ok (self.decode (state.memory self.paddr (self.index vaddr))), state) :=
    if_pos aligned
  exact Program.run_call_some handler handled _

theorem run_getEntry_directory {root : Nat} (vaddr : Nat)
    (aligned : root % 0x1000 = 0) :
    run handler (getEntry (directory root) vaddr) state =
      (.ok (if (state.memory root (dirIndex vaddr)).isTable then
          .level (pageTable (state.memory root (dirIndex vaddr)).address)
        else .page (state.memory root (dirIndex vaddr)).address
          (state.memory root (dirIndex vaddr)).flags.toMapping), state) := by
  rw [run_getEntry state (directory root) vaddr aligned, index_directory,
    decode_directory]

theorem run_getEntry_pageTable {frame : Nat} (vaddr : Nat)
    (aligned : frame % 0x1000 = 0) :
    run handler (getEntry (pageTable frame) vaddr) state =
      (.ok (.page (state.memory frame (tableIndex vaddr)).address
        (state.memory frame (tableIndex vaddr)).flags.toMapping), state) := by
  rw [run_getEntry state (pageTable frame) vaddr aligned, index_pageTable,
    decode_pageTable]

/-! ## Writing an entry -/

/-- `set_entry` refuses the entry and changes nothing, or stores the encoded entry. -/
theorem handler_setEntry_cases {self : PageTableLevel} {vaddr : Nat}
    {entry : PageTableEntry PageTableLevel} {state after : State A}
    {answer : MappingResult Unit}
    (handled : handler (.setEntry self vaddr entry) state = some (answer, after)) :
    self.paddr % 0x1000 = 0 ∧
      ((∃ error, answer = .error error ∧ after = state) ∨
        ∃ word, self.encode entry = some word ∧ answer = .ok () ∧
          after = { state with
            memory := state.memory.write self.paddr (self.index vaddr) word }) := by
  simp only [handler, handleSetEntry] at handled
  split_ifs at handled with failed refused
  · simp only [Bool.or_eq_true, bne_iff_ne, not_or, not_not] at failed
    cases handled
    exact ⟨failed.2, .inl ⟨_, rfl, rfl⟩⟩
  · simp only [Bool.or_eq_true, bne_iff_ne, not_or, not_not] at failed
    obtain ⟨word, encoded, equal⟩ := Option.map_eq_some_iff.mp handled
    cases equal
    exact ⟨failed.2, .inr ⟨word, encoded, rfl, rfl⟩⟩

/-- Above the last level an entry with `PS` set is never overwritten. -/
theorem handler_setEntry_directory_refused {root vaddr : Nat}
    (aligned : root % 0x1000 = 0) (entry : PageTableEntry PageTableLevel)
    (onRegion : vaddr % 0x400000 = 0 ∨ ∃ level, entry = .level level)
    (ps : (state.memory root (dirIndex vaddr)).flags.ps = true) :
    handler (.setEntry (directory root) vaddr entry) state =
      some (.error (.mappingOver (state.memory root (dirIndex vaddr)).address),
        state) := by
  cases entry with
  | level level => simp [handler, handleSetEntry, aligned, ps]
  | page paddr flags =>
      have onRegion : vaddr % 0x400000 = 0 := by simpa using onRegion
      simp [handler, handleSetEntry, aligned, ps, onRegion]

theorem run_setEntry_directory_refused {root vaddr : Nat}
    (aligned : root % 0x1000 = 0) (entry : PageTableEntry PageTableLevel)
    (onRegion : vaddr % 0x400000 = 0 ∨ ∃ level, entry = .level level)
    (ps : (state.memory root (dirIndex vaddr)).flags.ps = true) :
    run handler (setEntry (directory root) vaddr entry) state =
      (.err (.mappingOver (state.memory root (dirIndex vaddr)).address), state) :=
  Program.run_call_some handler
    (handler_setEntry_directory_refused state aligned entry onRegion ps) _

theorem handler_setEntry_directory_level {root vaddr : Nat}
    (aligned : root % 0x1000 = 0) (level : PageTableLevel)
    (ps : (state.memory root (dirIndex vaddr)).flags.ps = false) :
    handler (.setEntry (directory root) vaddr (.level level)) state =
      some (.ok (), { state with
        memory := state.memory.write root (dirIndex vaddr)
          (.newPageTable level.paddr) }) := by
  simp [handler, handleSetEntry, aligned, ps, PageTableLevel.encode]

theorem run_setEntry_directory_level {root vaddr : Nat}
    (aligned : root % 0x1000 = 0) (level : PageTableLevel)
    (ps : (state.memory root (dirIndex vaddr)).flags.ps = false) :
    run handler (setEntry (directory root) vaddr (.level level)) state =
      (.ok (), { state with
        memory := state.memory.write root (dirIndex vaddr)
          (.newPageTable level.paddr) }) :=
  Program.run_call_some handler
    (handler_setEntry_directory_level state aligned level ps) _

theorem handler_setEntry_directory_page {root vaddr : Nat}
    (aligned : root % 0x1000 = 0) (onRegion : vaddr % 0x400000 = 0) (paddr : Nat)
    (flags : MappingFlags)
    (ps : (state.memory root (dirIndex vaddr)).flags.ps = false) :
    handler (.setEntry (directory root) vaddr (.page paddr flags)) state =
      some (.ok (), { state with
        memory := state.memory.write root (dirIndex vaddr)
          (.newPage paddr .size4M (.ofMapping flags)) }) := by
  simp [handler, handleSetEntry, aligned, ps, onRegion, PageTableLevel.encode]

theorem run_setEntry_directory_page {root vaddr : Nat}
    (aligned : root % 0x1000 = 0) (onRegion : vaddr % 0x400000 = 0) (paddr : Nat)
    (flags : MappingFlags)
    (ps : (state.memory root (dirIndex vaddr)).flags.ps = false) :
    run handler (setEntry (directory root) vaddr (.page paddr flags)) state =
      (.ok (), { state with
        memory := state.memory.write root (dirIndex vaddr)
          (.newPage paddr .size4M (.ofMapping flags)) }) :=
  Program.run_call_some handler
    (handler_setEntry_directory_page state aligned onRegion paddr flags ps) _

/-- At the last level every aligned write succeeds. -/
theorem handler_setEntry_pageTable {frame vaddr : Nat} (aligned : frame % 0x1000 = 0)
    (onPage : vaddr % 0x1000 = 0) (paddr : Nat) (flags : MappingFlags) :
    handler (.setEntry (pageTable frame) vaddr (.page paddr flags)) state =
      some (.ok (), { state with
        memory := state.memory.write frame (tableIndex vaddr)
          (.newPage paddr .size4K (.ofMapping flags)) }) := by
  simp [handler, handleSetEntry, aligned, onPage, PageTableLevel.encode]

theorem run_setEntry_pageTable {frame vaddr : Nat} (aligned : frame % 0x1000 = 0)
    (onPage : vaddr % 0x1000 = 0) (paddr : Nat) (flags : MappingFlags) :
    run handler (setEntry (pageTable frame) vaddr (.page paddr flags)) state =
      (.ok (), { state with
        memory := state.memory.write frame (tableIndex vaddr)
          (.newPage paddr .size4K (.ofMapping flags)) }) :=
  Program.run_call_some handler
    (handler_setEntry_pageTable state aligned onPage paddr flags) _

/-- A page entry at an unaligned address is a failed assertion. -/
theorem run_setEntry_pageTable_unaligned {frame vaddr : Nat}
    (offPage : vaddr % 0x1000 ≠ 0) (paddr : Nat) (flags : MappingFlags) :
    run handler (setEntry (pageTable frame) vaddr (.page paddr flags)) state =
      (.panic, state) := by
  have refused : handler (.setEntry (pageTable frame) vaddr (.page paddr flags)) state =
      none := by
    simp [handler, handleSetEntry, offPage]
  exact Program.run_call_none handler refused _

/-! ## Allocating a table -/

/-- `new_sublevel` finds no frame, or clears the one that it is given. -/
theorem handler_newSublevel_cases {self : PageTableLevel} {state after : State A}
    {answer : Option PageTableLevel}
    (handled : handler (.newSublevel self) state = some (answer, after)) :
    (∃ allocator, PageAllocatorTrait.alloc state.allocator PageSize.size4K =
        (none, allocator) ∧ answer = none ∧ after = { state with allocator }) ∨
      ∃ frame allocator, PageAllocatorTrait.alloc state.allocator PageSize.size4K =
          (some frame, allocator) ∧ frame % 0x1000 = 0 ∧
        answer = some ⟨frame, self.shift - pageLevelBits⟩ ∧
        after = { memory := state.memory.clear frame, allocator } := by
  simp only [handler, handleNewSublevel] at handled
  split at handled
  next allocator answered =>
    cases handled
    exact .inl ⟨allocator, answered, rfl, rfl⟩
  next frame allocator answered =>
    split at handled
    next aligned =>
      cases handled
      exact .inr ⟨frame, allocator, answered, aligned, rfl, rfl⟩
    next => cases handled

theorem run_newSublevel_some {root frame : Nat} {allocator : A}
    (allocated : PageAllocatorTrait.alloc state.allocator PageSize.size4K =
      (some frame, allocator))
    (aligned : frame % 0x1000 = 0) :
    run handler (newSublevel (directory root)) state =
      (.ok (pageTable frame),
        { memory := state.memory.clear frame, allocator }) := by
  have handled : handler (.newSublevel (directory root)) state =
      some (some (pageTable frame),
        { memory := state.memory.clear frame, allocator }) := by
    simp [handler, handleNewSublevel, allocated, aligned, pageLevelBits]
  exact Program.run_call_some handler handled _

theorem run_newSublevel_none {root : Nat} {allocator : A}
    (exhausted : PageAllocatorTrait.alloc state.allocator PageSize.size4K =
      (none, allocator)) :
    run handler (newSublevel (directory root)) state =
      (.err .pageAllocationFailed, { state with allocator }) := by
  have handled : handler (.newSublevel (directory root)) state =
      some (none, { state with allocator }) := by
    simp [handler, handleNewSublevel, exhausted]
  exact Program.run_call_some handler handled _

end Run

end SatanKernel.X86
