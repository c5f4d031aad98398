import SatanKernel.X86.TableUpdates
import SatanKernel.Memory.Allocators

/-!
# Mapping one page

`map_page` on the page directory, for both page sizes.  Its five possible endings
are listed once; the translations and permissions that a call leaves behind are
read off them and compared with the hardware walk.
-/

namespace SatanKernel.X86

open Lib NestedPageTableLevel
open Lib.Program (run)

variable {A : Type} [PageAllocatorTrait PageSize A]

/-- Whatever frame the allocator answers the next request with could become a table
of the address space. -/
def AllocatesFresh (state : State A) (root : Nat) : Prop :=
  ∀ frame allocator,
    PageAllocatorTrait.alloc state.allocator PageSize.size4K =
      (some frame, allocator) → FreshFrame state.memory root frame

/-- The entry that `map_page` writes for a 4 KiB page. -/
def leafEntry (paddr : Nat) (flags : MappingFlags) : PTEntry :=
  .newPage paddr .size4K (.ofMapping flags)

/-- The ways in which the search for a page's table ends. -/
inductive FindsTable (state : State A) (root vaddr : Nat) :
    Outcome MappingError PageTableLevel × State A → Prop where
  | existing (table : (state.memory root (dirIndex vaddr)).isTable = true) :
      FindsTable state root vaddr
        (.ok (pageTable (state.memory root (dirIndex vaddr)).frame), state)
  | largePage (large : (state.memory root (dirIndex vaddr)).isLarge = true) :
      FindsTable state root vaddr
        (.err (.mappingOver (state.memory root (dirIndex vaddr)).address), state)
  | noFrame (absent : (state.memory root (dirIndex vaddr)).flags.p = false)
      {allocator : A}
      (exhausted : PageAllocatorTrait.alloc state.allocator PageSize.size4K =
        (none, allocator)) :
      FindsTable state root vaddr (.err .pageAllocationFailed, { state with allocator })
  | refused (absent : (state.memory root (dirIndex vaddr)).flags.p = false)
      {allocator : A} {frame : Nat}
      (allocated : PageAllocatorTrait.alloc state.allocator PageSize.size4K =
        (some frame, allocator))
      (ps : (state.memory root (dirIndex vaddr)).flags.ps = true) :
      FindsTable state root vaddr
        (.err (.mappingOver (state.memory root (dirIndex vaddr)).address),
          { memory := state.memory.clear frame, allocator })
  | linked (absent : (state.memory root (dirIndex vaddr)).flags.p = false)
      {allocator : A} {frame : Nat}
      (allocated : PageAllocatorTrait.alloc state.allocator PageSize.size4K =
        (some frame, allocator))
      (ps : (state.memory root (dirIndex vaddr)).flags.ps = false) :
      FindsTable state root vaddr
        (.ok (pageTable frame),
          { memory := state.memory.link root (dirIndex vaddr) frame, allocator })

/-- The search finds an existing table. -/
theorem run_nextLevel_table (state : State A) {root vaddr : Nat}
    (wf : WellFormed state.memory root)
    (table : (state.memory root (dirIndex vaddr)).isTable = true) :
    run handler (nextLevel (directory root) vaddr) state =
      (.ok (pageTable (state.memory root (dirIndex vaddr)).frame), state) := by
  simp only [nextLevel, Program.run_bind,
    run_getEntry_directory state vaddr wf.root_aligned, Outcome.andThen_ok, table, if_true,
    Program.run_pure, wf.table_address (dirIndex_lt vaddr) table]

/-- The search stops at a 4 MiB page. -/
theorem run_nextLevel_large (state : State A) {root vaddr : Nat}
    (rootAligned : root % 0x1000 = 0)
    (large : (state.memory root (dirIndex vaddr)).isLarge = true) :
    run handler (nextLevel (directory root) vaddr) state =
      (.err (.mappingOver (state.memory root (dirIndex vaddr)).address), state) := by
  have present := large
  simp only [PTEntry.isLarge, Bool.and_eq_true] at present
  simp only [nextLevel, Program.run_bind, run_getEntry_directory state vaddr rootAligned,
    Outcome.andThen_ok, PTEntry.isLarge_not_isTable large, Bool.false_eq_true, if_false,
    PTEFlags.toMapping, present.1, if_true, Program.run_throw]

theorem findsTable (state : State A) {root : Nat} (vaddr : Nat)
    (wf : WellFormed state.memory root) (fresh : AllocatesFresh state root) :
    FindsTable state root vaddr
      (run handler (nextLevel (directory root) vaddr) state) := by
  rcases (state.memory root (dirIndex vaddr)).isTable_or with table | large | absent
  · rw [run_nextLevel_table state wf table]
    exact .existing table
  · rw [run_nextLevel_large state wf.root_aligned large]
    exact .largePage large
  · simp only [nextLevel, Program.run_bind,
      run_getEntry_directory state vaddr wf.root_aligned, Outcome.andThen_ok,
      PTEntry.not_present_not_isTable absent, Bool.false_eq_true, if_false,
      PTEFlags.toMapping, absent, Program.run_bind]
    rcases answer : PageAllocatorTrait.alloc state.allocator PageSize.size4K with
      ⟨_ | frame, allocator⟩
    · simp only [run_newSublevel_none state answer, Outcome.andThen_err]
      exact .noFrame absent answer
    · have freshFrame := fresh frame allocator answer
      have entrySame : state.memory.clear frame root (dirIndex vaddr) =
          state.memory root (dirIndex vaddr) :=
        Memory.clear_of_frame_ne _ (Ne.symm freshFrame.ne_root) _
      simp only [run_newSublevel_some state answer freshFrame.aligned,
        Outcome.andThen_ok]
      cases ps : (state.memory root (dirIndex vaddr)).flags.ps with
      | true =>
          rw [run_setEntry_directory_refused _ wf.root_aligned _
            (.inr ⟨_, rfl⟩) (by simpa only [entrySame] using ps)]
          simp only [Outcome.andThen_err, entrySame]
          exact .refused absent answer ps
      | false =>
          rw [run_setEntry_directory_level _ wf.root_aligned _
            (by simpa only [entrySame] using ps)]
          simp only [Outcome.andThen_ok, Program.run_pure]
          exact .linked absent answer ps

/-- The ways in which mapping a 4 KiB page ends. -/
inductive MapsSmallPage (state : State A) (root vaddr paddr : Nat)
    (flags : MappingFlags) : Outcome MappingError Unit × State A → Prop where
  | existingTable
      (table : (state.memory root (dirIndex vaddr)).isTable = true) :
      MapsSmallPage state root vaddr paddr flags
        (.ok (), { state with
          memory := state.memory.write (state.memory root (dirIndex vaddr)).frame
            (tableIndex vaddr) (leafEntry paddr flags) })
  | largePage (large : (state.memory root (dirIndex vaddr)).isLarge = true) :
      MapsSmallPage state root vaddr paddr flags
        (.err (.mappingOver (state.memory root (dirIndex vaddr)).address), state)
  | noFrame (absent : (state.memory root (dirIndex vaddr)).flags.p = false)
      {allocator : A}
      (exhausted : PageAllocatorTrait.alloc state.allocator PageSize.size4K =
        (none, allocator)) :
      MapsSmallPage state root vaddr paddr flags
        (.err .pageAllocationFailed, { state with allocator })
  | refused (absent : (state.memory root (dirIndex vaddr)).flags.p = false)
      {allocator : A} {frame : Nat}
      (allocated : PageAllocatorTrait.alloc state.allocator PageSize.size4K =
        (some frame, allocator))
      (ps : (state.memory root (dirIndex vaddr)).flags.ps = true) :
      MapsSmallPage state root vaddr paddr flags
        (.err (.mappingOver (state.memory root (dirIndex vaddr)).address),
          { memory := state.memory.clear frame, allocator })
  | newTable (absent : (state.memory root (dirIndex vaddr)).flags.p = false)
      {allocator : A} {frame : Nat}
      (allocated : PageAllocatorTrait.alloc state.allocator PageSize.size4K =
        (some frame, allocator))
      (ps : (state.memory root (dirIndex vaddr)).flags.ps = false) :
      MapsSmallPage state root vaddr paddr flags
        (.ok (), {
          memory := (state.memory.link root (dirIndex vaddr) frame).write frame
            (tableIndex vaddr) (leafEntry paddr flags), allocator })

/-- The last step: writing the entry of the page into its table. -/
theorem run_mapPage_pageTable (state : State A) {frame vaddr : Nat}
    (aligned : frame % 0x1000 = 0) (onPage : vaddr % 0x1000 = 0) (paddr : Nat)
    (flags : MappingFlags) :
    run handler (mapPage 1 (pageTable frame) vaddr paddr PageSize.size4K flags) state =
      (.ok (), { state with
        memory := state.memory.write frame (tableIndex vaddr)
          (leafEntry paddr flags) }) := by
  simp only [mapPage, pageSize_pageTable, if_true]
  exact run_setEntry_pageTable state aligned onPage paddr flags

/-- Mapping a 4 KiB page at the directory: find or create the table, then write the
entry into it. -/
theorem mapPage_directory_eq (root vaddr paddr : Nat) (flags : MappingFlags) :
    (mapPage levels (directory root) vaddr paddr PageSize.size4K flags : PagingM Unit) =
      nextLevel (directory root) vaddr >>= fun level =>
        mapPage 1 level vaddr paddr PageSize.size4K flags := by
  rw [levels, mapPage, pageSize_directory, if_neg (by decide)]

theorem run_mapPage_small (state : State A) (root vaddr paddr : Nat)
    (flags : MappingFlags) :
    run handler ((AddressSpace.fromPaddr root).mapPage vaddr paddr .size4K flags) state =
      Outcome.andThen (run handler (nextLevel (directory root) vaddr) state)
        fun level after =>
          run handler (mapPage 1 level vaddr paddr PageSize.size4K flags) after := by
  rw [AddressSpace.mapPage, AddressSpace.fromPaddr, mapPage_directory_eq, Program.run_bind]

theorem mapsSmallPage (state : State A) {root vaddr : Nat} (paddr : Nat)
    (flags : MappingFlags) (wf : WellFormed state.memory root)
    (onPage : vaddr % 0x1000 = 0) (fresh : AllocatesFresh state root) :
    MapsSmallPage state root vaddr paddr flags
      (run handler ((AddressSpace.fromPaddr root).mapPage vaddr paddr .size4K flags)
        state) := by
  rw [run_mapPage_small]
  have found := findsTable state vaddr wf fresh
  generalize run handler (nextLevel (directory root) vaddr) state = finished at found ⊢
  cases found with
  | existing table =>
      rw [Outcome.andThen_ok,
        run_mapPage_pageTable _ (PTEntry.frame_aligned _) onPage]
      exact .existingTable table
  | largePage large => exact .largePage large
  | noFrame absent exhausted => exact .noFrame absent exhausted
  | refused absent allocated ps => exact .refused absent allocated ps
  | linked absent allocated ps =>
      rw [Outcome.andThen_ok, run_mapPage_pageTable _ (fresh _ _ allocated).aligned onPage]
      exact .newTable absent allocated ps

/-- At an unaligned address the call fails as at an aligned one, or panics. -/
theorem mapsSmallPage_unaligned (state : State A) {root vaddr : Nat} (paddr : Nat)
    (flags : MappingFlags) (wf : WellFormed state.memory root)
    (offPage : vaddr % 0x1000 ≠ 0) (fresh : AllocatesFresh state root) :
    (run handler ((AddressSpace.fromPaddr root).mapPage vaddr paddr .size4K flags)
        state).1 = .panic ∨
      MapsSmallPage state root vaddr paddr flags
        (run handler ((AddressSpace.fromPaddr root).mapPage vaddr paddr .size4K flags)
          state) := by
  have panics : ∀ frame (after : State A), run handler
      (mapPage 1 (pageTable frame) vaddr paddr PageSize.size4K flags) after =
        (.panic, after) := by
    intro frame after
    simp only [mapPage, pageSize_pageTable, if_true]
    exact run_setEntry_pageTable_unaligned after offPage paddr flags
  rw [run_mapPage_small]
  have found := findsTable state vaddr wf fresh
  generalize run handler (nextLevel (directory root) vaddr) state = finished at found ⊢
  cases found with
  | existing table =>
      rw [Outcome.andThen_ok, panics]
      exact .inl rfl
  | largePage large => exact .inr (.largePage large)
  | noFrame absent exhausted => exact .inr (.noFrame absent exhausted)
  | refused absent allocated ps => exact .inr (.refused absent allocated ps)
  | linked absent allocated ps =>
      rw [Outcome.andThen_ok, panics]
      exact .inl rfl

/-- Mapping a 4 MiB page overwrites the directory entry unless `PS` is set in it. -/
theorem run_mapPage_large (state : State A) {root vaddr : Nat} (paddr : Nat)
    (flags : MappingFlags) (rootAligned : root % 0x1000 = 0)
    (onRegion : vaddr % 0x400000 = 0) :
    run handler ((AddressSpace.fromPaddr root).mapPage vaddr paddr .size4M flags) state =
      if (state.memory root (dirIndex vaddr)).flags.ps then
        (.err (.mappingOver (state.memory root (dirIndex vaddr)).address), state)
      else (.ok (), { state with
        memory := state.memory.write root (dirIndex vaddr)
          (.newPage paddr .size4M (.ofMapping flags)) }) := by
  simp only [AddressSpace.mapPage, AddressSpace.fromPaddr, levels, mapPage,
    pageSize_directory, if_true]
  cases ps : (state.memory root (dirIndex vaddr)).flags.ps with
  | true =>
      rw [run_setEntry_directory_refused _ rootAligned _ (.inl onRegion) ps]
      simp
  | false =>
      rw [run_setEntry_directory_page _ rootAligned onRegion _ _ ps]
      simp

/-! ## What a mapped page translates to -/

/-- Flags of the directory entry that a new 4 KiB page is reached through: those of
the existing table's entry, or those that `new_page_table` gives a new one. -/
def tableFlags (pde : PTEntry) : PTEFlags :=
  if pde.isTable then pde.flags
  else ⟨true, true, false, false, false, false, false⟩

/-- Flags of the entry written for a page. -/
def leafFlags (size : PageSize) (flags : MappingFlags) : PTEFlags :=
  match size with
  | .size4K => .ofMapping flags
  | .size4M => { PTEFlags.ofMapping flags with ps := true }

/-- What an address of a page mapped by `map_page` translates to, given the
directory entry before the call. -/
def pageTranslation (pde : PTEntry) (vaddr paddr : Nat) (size : PageSize)
    (flags : MappingFlags) (query : Nat) : Option Translation :=
  if flags.present then
    some {
      paddr := paddr + (query - vaddr)
      leaf := leafFlags size flags
      user := match size with
        | .size4K => (tableFlags pde).us && flags.user
        | .size4M => flags.user
      writable := match size with
        | .size4K => (tableFlags pde).rw && flags.write
        | .size4M => flags.write }
  else none

/-- A table entry written by `map_page` translates its page. -/
theorem walkEntries_leafEntry {pde before : PTEntry} {vaddr paddr query : Nat}
    {flags : MappingFlags} (table : pde.isTable = true)
    (through : pde.flags = tableFlags before) (bounded : paddr < 0x100000000)
    (aligned : paddr % 0x1000 = 0) (onPage : vaddr % 0x1000 = 0)
    (samePage : query / 0x1000 = vaddr / 0x1000) :
    walkEntries pde (leafEntry paddr flags) query =
      pageTranslation before vaddr paddr .size4K flags query := by
  have leafFlagsEq : (leafEntry paddr flags).flags = .ofMapping flags :=
    PTEntry.newPage_4K_flags aligned _
  have frameEq : (leafEntry paddr flags).frame = paddr :=
    PTEntry.newPage_4K_frame bounded aligned _
  have offset : query % 0x1000 = query - vaddr := by omega
  have ps := PTEntry.isTable_ps table
  have present := PTEntry.isTable_present table
  rw [through] at ps present
  simp [walkEntries, pageTranslation, leafFlags, leafFlagsEq, frameEq, offset, through,
    ps, present, PTEFlags.ofMapping]

/-- A directory entry written by `map_page` translates its region. -/
theorem walkEntries_large {before pte : PTEntry} {vaddr paddr query : Nat}
    {flags : MappingFlags} (bounded : paddr < 0x100000000)
    (aligned : paddr % 0x400000 = 0) (onRegion : vaddr % 0x400000 = 0)
    (sameRegion : query / 0x400000 = vaddr / 0x400000) :
    walkEntries (.newPage paddr .size4M (.ofMapping flags)) pte query =
      pageTranslation before vaddr paddr .size4M flags query := by
  have flagsEq := PTEntry.newPage_4M_flags (show paddr % 0x1000 = 0 by omega)
    (.ofMapping flags)
  have frameEq : (PTEntry.newPage paddr .size4M (.ofMapping flags)).largeFrame = paddr :=
    PTEntry.newPage_4M_frame bounded aligned _
  have offset : query % 0x400000 = query - vaddr := by omega
  simp only [walkEntries, pageTranslation, leafFlags, flagsEq, frameEq, offset]
  simp [PTEFlags.ofMapping]

theorem MapsSmallPage.walk_ok {state after : State A} {root vaddr paddr : Nat}
    {flags : MappingFlags} (wf : WellFormed state.memory root)
    (fresh : AllocatesFresh state root)
    (vaddrBound : vaddr < 0x100000000) (onPage : vaddr % 0x1000 = 0)
    (paddrBound : paddr < 0x100000000) (paddrAligned : paddr % 0x1000 = 0)
    (mapped : MapsSmallPage state root vaddr paddr flags (.ok (), after))
    {query : Nat} (queryBound : query < 0x100000000) :
    walk after.memory root query =
      if query / 0x1000 = vaddr / 0x1000 then
        pageTranslation (state.memory root (dirIndex vaddr)) vaddr paddr .size4K flags
          query
      else walk state.memory root query := by
  have inside := dirIndex_lt vaddr
  cases mapped with
  | existingTable table =>
      rw [walk_write_table wf inside table]
      simp only [indices_eq_iff queryBound vaddrBound]
      split
      next samePage =>
        exact walkEntries_leafEntry table (by simp [tableFlags, table]) paddrBound
          paddrAligned onPage samePage
      next => rfl
  | @newTable absent allocator frame allocated ps =>
      have freshFrame := fresh frame allocator allocated
      -- The written frame is the table of the directory entry linked just before.
      have linked : state.memory.link root (dirIndex vaddr) frame root
          (dirIndex vaddr) = .newPageTable frame := link_directory_self _ _ _ _
      have table : (state.memory.link root (dirIndex vaddr) frame root
          (dirIndex vaddr)).isTable = true := by
        rw [linked]
        exact newPageTable_isTable freshFrame.aligned
      have written := walk_write_table (wf.link freshFrame (dirIndex vaddr)) inside
        table (tableIndex vaddr) (leafEntry paddr flags) query
      rw [linked, newPageTable_frame freshFrame.aligned freshFrame.bounded] at written
      rw [written, walk_link wf freshFrame absent]
      simp only [indices_eq_iff queryBound vaddrBound]
      split
      next samePage =>
        refine walkEntries_leafEntry (newPageTable_isTable freshFrame.aligned) ?_
          paddrBound paddrAligned onPage samePage
        rw [PTEntry.newPageTable_flags freshFrame.aligned, tableFlags,
          PTEntry.not_present_not_isTable absent]
        rfl
      next => rfl

theorem MapsSmallPage.walk_err {state after : State A} {root vaddr paddr : Nat}
    {flags : MappingFlags} {error : MappingError} (fresh : AllocatesFresh state root)
    (failed : MapsSmallPage state root vaddr paddr flags (.err error, after))
    (query : Nat) :
    walk after.memory root query = walk state.memory root query := by
  cases failed with
  | largePage large => rfl
  | noFrame absent exhausted => rfl
  | refused absent allocated ps => exact walk_clear (fresh _ _ allocated) query

theorem MapsSmallPage.not_panic {state after : State A} {root vaddr paddr : Nat}
    {flags : MappingFlags} :
    ¬MapsSmallPage state root vaddr paddr flags (.panic, after) := by
  intro panicked
  cases panicked

/-- A successful `map_page` translates its page as asked and nothing else
differently. -/
theorem walk_of_mapPage_ok {state after : State A} {root vaddr paddr : Nat}
    {size : PageSize} {flags : MappingFlags} (wf : WellFormed state.memory root)
    (fresh : AllocatesFresh state root)
    (vaddrBound : vaddr < 0x100000000) (onPage : vaddr % size.toNat = 0)
    (paddrBound : paddr < 0x100000000) (paddrAligned : paddr % size.toNat = 0)
    (mapped : run handler ((AddressSpace.fromPaddr root).mapPage vaddr paddr size flags)
      state = (.ok (), after))
    {query : Nat} (queryBound : query < 0x100000000) :
    walk after.memory root query =
      if query / size.toNat = vaddr / size.toNat then
        pageTranslation (state.memory root (dirIndex vaddr)) vaddr paddr size flags query
      else walk state.memory root query := by
  cases size with
  | size4K =>
      have cases := mapsSmallPage state paddr flags wf onPage fresh
      rw [mapped] at cases
      exact cases.walk_ok wf fresh vaddrBound onPage paddrBound paddrAligned queryBound
  | size4M =>
      rw [run_mapPage_large state paddr flags wf.root_aligned onPage] at mapped
      split at mapped
      next => simp at mapped
      next ps =>
        simp only [Prod.mk.injEq, true_and] at mapped
        subst after
        split
        next sameRegion =>
          have sameIndex : dirIndex query = dirIndex vaddr :=
            (dirIndex_eq_iff queryBound vaddrBound).mpr sameRegion
          simp only [walk, sameIndex, Memory.write_self]
          exact walkEntries_large paddrBound paddrAligned onPage sameRegion
        next otherRegion =>
          apply walk_write_directory wf
          rw [Ne, dirIndex_eq_iff queryBound vaddrBound]
          exact otherRegion

/-- A failed `map_page` changes no translation. -/
theorem walk_of_mapPage_err {state after : State A} {root vaddr paddr : Nat}
    {size : PageSize} {flags : MappingFlags} {error : MappingError}
    (wf : WellFormed state.memory root) (fresh : AllocatesFresh state root)
    (onPage : vaddr % size.toNat = 0)
    (failed : run handler ((AddressSpace.fromPaddr root).mapPage vaddr paddr size flags)
      state = (.err error, after)) (query : Nat) :
    walk after.memory root query = walk state.memory root query := by
  cases size with
  | size4K =>
      have cases := mapsSmallPage state paddr flags wf onPage fresh
      rw [failed] at cases
      exact cases.walk_err fresh query
  | size4M =>
      rw [run_mapPage_large state paddr flags wf.root_aligned onPage] at failed
      split at failed
      next =>
        simp only [Prod.mk.injEq] at failed
        rw [← failed.2]
      next => simp at failed

/-- On a well-formed address space `map_page` never panics. -/
theorem mapPage_not_panic {state after : State A} {root vaddr paddr : Nat}
    {size : PageSize} {flags : MappingFlags} (wf : WellFormed state.memory root)
    (fresh : AllocatesFresh state root) (onPage : vaddr % size.toNat = 0) :
    run handler ((AddressSpace.fromPaddr root).mapPage vaddr paddr size flags) state ≠
      (.panic, after) := by
  intro panicked
  cases size with
  | size4K =>
      have cases := mapsSmallPage state paddr flags wf onPage fresh
      rw [panicked] at cases
      exact MapsSmallPage.not_panic cases
  | size4M =>
      rw [run_mapPage_large state paddr flags wf.root_aligned onPage] at panicked
      split at panicked <;> simp at panicked

/-! ## Translations and permissions of a call -/

/-- An address outside the page that `map_page` maps. -/
def OutsidePage (vaddr : Nat) (size : PageSize) (query : Nat) : Prop :=
  query < 0x100000000 ∧ (query < vaddr ∨ vaddr + size.toNat ≤ query)

theorem PageSize.toNat_pos (size : PageSize) : 0 < size.toNat := by
  cases size <;> decide

/-- The pages of one size partition the addresses. -/
theorem div_eq_of_aligned {vaddr query align : Nat} (positive : 0 < align)
    (aligned : vaddr % align = 0) :
    query / align = vaddr / align ↔ vaddr ≤ query ∧ query < vaddr + align := by
  have vaddrEq : vaddr = align * (vaddr / align) := by
    have := Nat.div_add_mod vaddr align
    omega
  rw [Nat.div_eq_iff positive]
  rw [Nat.mul_comm, ← vaddrEq]
  omega

theorem page_end_le (size : PageSize) {vaddr : Nat} (bounded : vaddr < 0x100000000)
    (aligned : vaddr % size.toNat = 0) : vaddr + size.toNat ≤ 0x100000000 := by
  cases size <;> simp only [PageSize.toNat] at aligned ⊢ <;> omega

/-- `map_page` implements the hardware translation and nothing else. -/
theorem mapPage_translates (state : State A) {root vaddr paddr : Nat}
    (size : PageSize) (flags : MappingFlags) (wf : WellFormed state.memory root)
    (fresh : AllocatesFresh state root)
    (vaddrBound : vaddr < 0x100000000) (onPage : vaddr % size.toNat = 0)
    (paddrBound : paddr < 0x100000000) (paddrAligned : paddr % size.toNat = 0) :
    match run handler ((AddressSpace.fromPaddr root).mapPage vaddr paddr size flags)
      state with
    | (.ok (), after) =>
        (∀ offset < size.toNat,
          (walk after.memory root (vaddr + offset)).map Translation.paddr =
            if flags.present then some (paddr + offset) else none) ∧
        ∀ query, OutsidePage vaddr size query →
          walk after.memory root query = walk state.memory root query
    | (.err _, after) => ∀ query < 0x100000000,
        walk after.memory root query = walk state.memory root query
    | (.panic, _) => False := by
  have positive := size.toNat_pos
  rcases finished : run handler
    ((AddressSpace.fromPaddr root).mapPage vaddr paddr size flags) state with
    ⟨⟨⟩ | error | _, after⟩
  · have translated := fun {query : Nat} (bound : query < 0x100000000) =>
      walk_of_mapPage_ok wf fresh vaddrBound onPage paddrBound paddrAligned finished
        bound
    constructor
    · intro offset inside
      have fits := page_end_le size vaddrBound onPage
      rw [translated (by omega), if_pos]
      · simp only [pageTranslation]
        split <;> simp
      · rw [div_eq_of_aligned positive onPage]
        omega
    · intro query outside
      rw [translated outside.1, if_neg]
      rw [div_eq_of_aligned positive onPage]
      have := outside.2
      omega
  · exact fun query _ => walk_of_mapPage_err wf fresh onPage finished query
  · exact mapPage_not_panic wf fresh onPage finished

/-- A directory without entries, and a scripted allocator. -/
def emptySpace (script : List (Option Nat)) : State (Scripted 0x1000) where
  memory := fun _ _ => .NULL
  allocator := ⟨script, []⟩

theorem emptySpace_wellFormed (script : List (Option Nat)) {root : Nat}
    (aligned : root % 0x1000 = 0) : WellFormed (emptySpace script).memory root where
  root_aligned := aligned
  table_aligned := by simp [emptySpace, PTEntry.isTable]
  table_ne_root := by simp [emptySpace, PTEntry.isTable]
  table_injective := by simp [emptySpace, PTEntry.isTable]

theorem emptySpace_fresh {frame : Nat} (rest : List (Option Nat))
    (available : Scripted.available 0x1000 [] frame = true) :
    AllocatesFresh (emptySpace (some frame :: rest)) 0x1000 := by
  intro answered allocator allocated
  have same : frame = answered := by
    simp only [emptySpace, PageAllocatorTrait.alloc, Scripted.answer, available, if_true,
      Prod.mk.injEq, Option.some.injEq] at allocated
    exact allocated.1
  subst answered
  simp only [Scripted.available, decide_eq_true_eq] at available
  obtain ⟨aligned, -, bounded, notRoot, -⟩ := available
  refine ⟨aligned, bounded, ?_⟩
  rintro (equal | ⟨i, -, table, -⟩)
  · exact notRoot equal
  · simp [emptySpace, PTEntry.isTable] at table

/-- Mapping a page into an empty directory sends its bytes to the given frame. -/
theorem mapPage_translates_empty :
    ∃ after, run handler
        ((AddressSpace.fromPaddr 0x1000).mapPage 0x5000 0x3000 .size4K .readWrite)
        (emptySpace [some 0x2000]) = (.ok (), after) ∧
      ∀ offset < 0x1000, (walk after.memory 0x1000 (0x5000 + offset)).map
        Translation.paddr = some (0x3000 + offset) := by
  have translates := mapPage_translates (emptySpace [some 0x2000]) .size4K .readWrite
    (emptySpace_wellFormed _ (show 0x1000 % 0x1000 = 0 by decide))
    (emptySpace_fresh [] (by decide))
    (show 0x5000 < 0x100000000 by decide) (by decide)
    (show 0x3000 < 0x100000000 by decide) (by decide)
  have returned : (run handler
      ((AddressSpace.fromPaddr 0x1000).mapPage 0x5000 0x3000 .size4K .readWrite)
      (emptySpace [some 0x2000])).1 = .ok () := by decide +kernel
  rcases finished : run handler
      ((AddressSpace.fromPaddr 0x1000).mapPage 0x5000 0x3000 .size4K .readWrite)
      (emptySpace [some 0x2000]) with ⟨outcome, after⟩
  rw [finished] at returned translates
  subst returned
  exact ⟨after, rfl, translates.1⟩

/-- Under the walk rule a page has exactly the permissions asked for. -/
def HasPermissions (memory : Memory) (root vaddr : Nat) (size : PageSize)
    (flags : MappingFlags) : Prop :=
  ∀ offset < size.toNat, ∃ translation,
    walk memory root (vaddr + offset) = some translation ∧
      translation.user = flags.user ∧ translation.writable = flags.write

/-- The directory entry that a 4 KiB page is reached through grants what the flags ask
for: user access needs a table that is already there and user-accessible, write
access needs a table that is not read-only. -/
def DirectoryGrants (pde : PTEntry) (flags : MappingFlags) : Prop :=
  (flags.user = true → pde.isTable = true ∧ pde.flags.us = true) ∧
    (flags.write = true → pde.isTable = true → pde.flags.rw = true)

theorem tableFlags_us (pde : PTEntry) (user : Bool) :
    ((tableFlags pde).us && user) = user ↔
      (user = true → pde.isTable = true ∧ pde.flags.us = true) := by
  cases table : pde.isTable <;> cases user <;> simp [tableFlags, table]

theorem tableFlags_rw (pde : PTEntry) (write : Bool) :
    ((tableFlags pde).rw && write) = write ↔
      (write = true → pde.isTable = true → pde.flags.rw = true) := by
  cases table : pde.isTable <;> cases write <;> simp [tableFlags, table]

/-- The permissions asked for are the effective ones exactly for 4 MiB pages and for
4 KiB pages below a directory entry that grants them. -/
theorem mapPage_permissions_iff {state after : State A} {root vaddr paddr : Nat}
    (size : PageSize) (flags : MappingFlags) (wf : WellFormed state.memory root)
    (fresh : AllocatesFresh state root)
    (vaddrBound : vaddr < 0x100000000) (onPage : vaddr % size.toNat = 0)
    (paddrBound : paddr < 0x100000000) (paddrAligned : paddr % size.toNat = 0)
    (present : flags.present = true)
    (mapped : run handler ((AddressSpace.fromPaddr root).mapPage vaddr paddr size flags)
      state = (.ok (), after)) :
    HasPermissions after.memory root vaddr size flags ↔
      size = .size4M ∨ DirectoryGrants (state.memory root (dirIndex vaddr)) flags := by
  have positive := size.toNat_pos
  have fits := page_end_le size vaddrBound onPage
  have translated : ∀ offset < size.toNat,
      walk after.memory root (vaddr + offset) =
        pageTranslation (state.memory root (dirIndex vaddr)) vaddr paddr size flags
          (vaddr + offset) := by
    intro offset inside
    rw [walk_of_mapPage_ok wf fresh vaddrBound onPage paddrBound paddrAligned mapped
      (by omega), if_pos]
    rw [div_eq_of_aligned positive onPage]
    omega
  cases size with
  | size4M =>
      simp only [true_or, iff_true]
      intro offset inside
      rw [translated offset inside]
      simp only [pageTranslation, present, if_true]
      exact ⟨_, rfl, rfl, rfl⟩
  | size4K =>
      simp only [reduceCtorEq, false_or, DirectoryGrants, ← tableFlags_us,
        ← tableFlags_rw]
      constructor
      · intro permitted
        obtain ⟨translation, walked, user, writable⟩ := permitted 0 positive
        rw [translated 0 positive] at walked
        simp only [pageTranslation, present, if_true, Option.some.injEq] at walked
        subst translation
        exact ⟨user, writable⟩
      · intro grants offset inside
        rw [translated offset inside]
        simp only [pageTranslation, present, if_true]
        exact ⟨_, rfl, grants.1, grants.2⟩

/-- `PRESENT | WRITE | USER`. -/
def userWrite : MappingFlags := ⟨true, false, true, false, true, false, false⟩

/-- A kernel page mapped into an empty directory has the permissions asked for. -/
theorem mapPage_permissions_kernel :
    HasPermissions (run handler
      ((AddressSpace.fromPaddr 0x1000).mapPage 0x5000 0x3000 .size4K .readWrite)
      (emptySpace [some 0x2000])).2.memory 0x1000 0x5000 .size4K .readWrite := by
  have returned : (run handler
      ((AddressSpace.fromPaddr 0x1000).mapPage 0x5000 0x3000 .size4K .readWrite)
      (emptySpace [some 0x2000])).1 = .ok () := by decide +kernel
  rcases finished : run handler
      ((AddressSpace.fromPaddr 0x1000).mapPage 0x5000 0x3000 .size4K .readWrite)
      (emptySpace [some 0x2000]) with ⟨outcome, after⟩
  rw [finished] at returned
  subst returned
  exact (mapPage_permissions_iff .size4K .readWrite
    (emptySpace_wellFormed _ (by decide))
    (emptySpace_fresh [] (by decide))
    (by decide) (by decide) (by decide) (by decide) rfl finished).mpr
      (.inr ⟨by decide, by decide +kernel⟩)

/-- A user page mapped into an empty directory is not accessible to user mode: the
entry of its new table lacks `US`. -/
theorem mapPage_user_not_accessible :
    (run handler ((AddressSpace.fromPaddr 0x1000).mapPage 0x5000 0x3000 .size4K userWrite)
      (emptySpace [some 0x2000])).1 = .ok () ∧
    ¬HasPermissions (run handler
      ((AddressSpace.fromPaddr 0x1000).mapPage 0x5000 0x3000 .size4K userWrite)
      (emptySpace [some 0x2000])).2.memory 0x1000 0x5000 .size4K userWrite := by
  have walked : (walk (run handler
      ((AddressSpace.fromPaddr 0x1000).mapPage 0x5000 0x3000 .size4K userWrite)
      (emptySpace [some 0x2000])).2.memory 0x1000 (0x5000 + 0)).map Translation.user =
        some false := by decide +kernel
  refine ⟨by decide +kernel, fun permitted => ?_⟩
  obtain ⟨translation, found, user, -⟩ := permitted 0 (by decide)
  rw [found, Option.map_some, user] at walked
  exact absurd walked (by decide)

end SatanKernel.X86
