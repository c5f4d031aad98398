import SatanKernel.Lib.Performs
import SatanKernel.X86.Runs

/-!
# What a step changes

The operations of `map_alloc` and `unmap_free`, one by one.  A table is cleared before it
is linked and holds no present entry when it is unlinked, so the only operation that
changes a translation is the one that writes the entry of a page, and it changes the
translations of this page alone.
-/

namespace SatanKernel.X86

open Lib NestedPageTableLevel
open Lib.Program (run Each Only)

/-- An operation keeps the translations: tables are only read, except that a fresh frame
may be cleared, and that setting an entry may change the translations of its page. -/
def KeepsOthers {A : Type} [PageAllocatorTrait PageSize A] (root : Nat) :
    PageTableOp PageTableLevel PageSize → State A → State A → Prop
  | .newSublevel _, before, _ => AllocatesFresh before root
  | .setEntry _ vaddr _, before, after => ∀ query < 0x100000000,
      query / 0x1000 ≠ vaddr / 0x1000 →
        walk after.memory root query = walk before.memory root query
  | _, before, after => after.memory = before.memory

/-- The operation does not write to tables. -/
def ReadsTables : PageTableOp PageTableLevel PageSize → Prop
  | .newSublevel _ => False
  | .setEntry _ _ _ => False
  | _ => True

section Steps

variable {A : Type} [PageAllocatorTrait PageSize A] {root : Nat} {state after : State A}
  {op : PageTableOp PageTableLevel PageSize}

theorem keepsOthers_reads (reads : ReadsTables op) {answer : op.Answer}
    (handled : handler op state = some (answer, after)) :
    KeepsOthers root op state after := by
  cases op with
  | newSublevel level => exact absurd reads id
  | setEntry level vaddr entry => exact absurd reads id
  | alloc size =>
      cases handled
      rfl
  | free addr size =>
      cases handled
      rfl
  | freeSublevel level sublevel =>
      cases handled
      rfl
  | getEntry level vaddr =>
      obtain ⟨-, rfl⟩ := handler_getEntry_cases handled
      rfl

/-- A program that does not write to tables keeps all translations. -/
theorem each_of_reads {α : Type} {program : PagingM α} (only : program.Only ReadsTables) :
    Each handler (KeepsOthers root) program state :=
  only.each fun _ reads _ _ _ handled => keepsOthers_reads reads handled

theorem only_getEntry (self : PageTableLevel) (vaddr : Nat) :
    (getEntry self vaddr : PagingM _).Only ReadsTables :=
  ⟨trivial, fun answer => Program.only_ofExcept answer⟩

theorem only_freeSublevel (self sublevel : PageTableLevel) :
    (freeSublevel self sublevel : PagingM Unit).Only ReadsTables :=
  ⟨trivial, fun answer => Program.only_ofExcept answer⟩

theorem only_free (addr : Nat) (size : PageSize) :
    (free addr size : PagingM Unit).Only ReadsTables :=
  ⟨trivial, fun answer => Program.only_ret answer⟩

theorem only_alloc (size : PageSize) :
    (alloc size : PagingM (Option Nat)).Only ReadsTables :=
  ⟨trivial, fun answer => Program.only_ret answer⟩

/-- Setting the entry of a page in its table. -/
theorem each_setEntry_table (wf : WellFormed state.memory root) {vaddr frame : Nat}
    (bounded : vaddr < 0x100000000)
    (table : (state.memory root (dirIndex vaddr)).isTable = true)
    (framed : (state.memory root (dirIndex vaddr)).frame = frame)
    (entry : PageTableEntry PageTableLevel) :
    Each handler (KeepsOthers root) (setEntry (pageTable frame) vaddr entry) state := by
  refine .call ?_ fun answer after _ => Program.each_ofExcept answer after
  intro answer after handled
  obtain ⟨-, ⟨error, -, rfl⟩ | ⟨word, -, -, rfl⟩⟩ := handler_setEntry_cases handled
  · exact fun _ _ _ => rfl
  · intro query queryBound otherPage
    have other : ¬(dirIndex query = dirIndex vaddr ∧ tableIndex query = tableIndex vaddr) :=
      fun equal => otherPage ((indices_eq_iff queryBound bounded).mp equal)
    subst framed
    dsimp only
    rw [index_pageTable, walk_write_table wf (dirIndex_lt vaddr) table, if_neg other]

/-- The free entry as `set_entry` stores it in the directory. -/
theorem encode_NULL_directory {word : PTEntry}
    (encoded : (directory root).encode .NULL = some word) : word = unlinkedEntry := by
  simp only [PageTableLevel.encode, PageTableEntry.NULL, pageSize_directory, Option.map_some,
    Option.some.injEq] at encoded
  rw [← encoded]
  decide

/-- Clearing a directory entry through which nothing translates. -/
theorem each_setEntry_unlink (wf : WellFormed state.memory root) {region : Nat}
    (empty : ∀ query, dirIndex query = dirIndex region →
      walk state.memory root query = none) :
    Each handler (KeepsOthers root) (setEntry (directory root) region .NULL) state := by
  refine .call ?_ fun answer after _ => Program.each_ofExcept answer after
  intro answer after handled
  obtain ⟨-, ⟨error, -, rfl⟩ | ⟨word, encoded, -, rfl⟩⟩ := handler_setEntry_cases handled
  · exact fun _ _ _ => rfl
  · rw [encode_NULL_directory encoded]
    intro query _ _
    dsimp only
    rw [index_directory]
    by_cases same : dirIndex query = dirIndex region
    · rw [empty query same]
      apply walk_of_not_present
      rw [same, Memory.write_self]
      decide
    · exact walk_write_directory wf _ _ same

/-! ## Unmapping -/

/-- A present page inside the range. -/
theorem each_freePage_table (wf : WellFormed state.memory root) {page frame : Nat}
    (bounded : page < 0x100000000)
    (table : (state.memory root (dirIndex page)).isTable = true)
    (framed : (state.memory root (dirIndex page)).frame = frame) (paddr : Nat) :
    Each handler (KeepsOthers root) (freePage (pageTable frame) page paddr) state := by
  rw [freePage, pageSize_pageTable]
  change Each handler (KeepsOthers root) (free paddr PageSize.size4K >>= fun _ =>
    setEntry (pageTable frame) page .NULL) state
  refine (each_of_reads (only_free _ _)).bind fun _ after returned => ?_
  rw [run_free] at returned
  cases returned
  apply each_setEntry_table
  · exact wf
  · exact bounded
  · exact table
  · exact framed

/-- An iteration on a page table. -/
theorem each_unmapPage (recurse : PageTableLevel → Nat → Nat → PagingM Unit)
    (wf : WellFormed state.memory root) {frame lo length page : Nat}
    (pageBound : page + 0x1000 < 0x100000000) (rangeBound : lo + length < 0x100000000)
    (table : (state.memory root (dirIndex page)).isTable = true)
    (framed : (state.memory root (dirIndex page)).frame = frame) :
    Each handler (KeepsOthers root)
      (unmapRegion recurse (pageTable frame) lo length page) state := by
  have aligned : frame % 0x1000 = 0 := framed ▸ PTEntry.frame_aligned _
  obtain ⟨next, code, onWord⟩ := unmapPage_eq recurse frame pageBound rangeBound
  rw [code]
  refine (each_of_reads (only_getEntry _ _)).bind fun entry after returned => ?_
  rw [run_getEntry state (pageTable frame) page aligned] at returned
  cases returned
  rw [onWord, unmapLeaf]
  split
  · split
    · exact .throw _ _
    · exact each_freePage_table wf (by omega) table framed _
  · exact .ret () _

variable {vaddr size region : Nat}

/-- The recursive call for the part of a region. -/
theorem each_unmapPart (wf : WellFormed state.memory root) (visits : Visits vaddr size region)
    {frame : Nat} (table : (state.memory root (dirIndex region)).isTable = true)
    (framed : (state.memory root (dirIndex region)).frame = frame) :
    Each handler (KeepsOthers root) (unmapFree 1 (pageTable frame) (partStart vaddr region)
      (partEnd vaddr size region - partStart vaddr region)) state := by
  have stop := partEnd_bounds visits
  have bound := visits.region_bound
  have aligned : frame % 0x1000 = 0 := framed ▸ PTEntry.frame_aligned _
  have notRoot : frame ≠ root := framed ▸ wf.table_ne_root _ (dirIndex_lt region) table
  rw [unmapFree_part_eq visits]
  -- The pages are cleared below an entry of the directory that stays as it is.
  apply Program.each_forEach fun current : State A => WellFormed current.memory root ∧
    current.memory root (dirIndex region) = state.memory root (dirIndex region)
  · exact ⟨wf, rfl⟩
  · rintro page member current ⟨wf, same⟩
    obtain ⟨onPage, pageBound⟩ := partPages_bound visits page member
    obtain ⟨-, lower, upper⟩ := partPages_region visits member
    have selected : dirIndex page = dirIndex region :=
      dirIndex_of_region visits.onRegion lower (by omega)
    refine ⟨each_unmapPage _ wf pageBound (by omega) ?_ ?_, ?_⟩
    · rw [selected, same]
      exact table
    · rw [selected, same]
      exact framed
    · intro after returned
      rw [run_unmapPage current _ aligned onPage pageBound (by omega)] at returned
      split_ifs at returned
      · cases returned
      · cases returned
        refine ⟨wf.write_table notRoot _ _, ?_⟩
        rw [← same]
        exact Memory.write_of_frame_ne _ _ _ (Ne.symm notRoot) _
      · cases returned
        exact ⟨wf, same⟩

/-- What the recursive call has done when it returns. -/
theorem unmapPart_returned {frame : Nat} (aligned : frame % 0x1000 = 0)
    (visits : Visits vaddr size region)
    (returned : run handler (unmapFree 1 (pageTable frame) (partStart vaddr region)
      (partEnd vaddr size region - partStart vaddr region)) state = (.ok (), after)) :
    after.memory = state.memory.clearPages frame (partPages vaddr size region) := by
  cases ending : (partPages vaddr size region).dropWhile
      (proceeds state.memory frame vaddr size region) with
  | nil =>
      rw [run_unmapFree_part_ok state aligned visits ending] at returned
      cases returned
      rfl
  | cons page rest =>
      rw [run_unmapFree_part_err state aligned visits ending] at returned
      cases returned

/-- Unlinking a table through which nothing translates. -/
theorem each_unlinkSublevel (wf : WellFormed state.memory root)
    (empty : ∀ query, dirIndex query = dirIndex region → walk state.memory root query = none)
    (sublevel : PageTableLevel) :
    Each handler (KeepsOthers root) (unlinkSublevel (directory root) region sublevel)
      state := by
  refine (each_of_reads (only_freeSublevel _ _)).bind fun _ after returned => ?_
  rw [run_freeSublevel] at returned
  cases returned
  apply each_setEntry_unlink
  · exact wf
  · exact empty

/-- Nothing translates through a table without mapped entries. -/
theorem walk_none_of_unused {memory : Memory} {query : Nat}
    (unused : tableInUse memory (memory root (dirIndex query)).frame = false)
    (table : (memory root (dirIndex query)).isTable = true) :
    walk memory root query = none := by
  have absent : (memory (memory root (dirIndex query)).frame
      (tableIndex query)).flags.p = false := by
    by_contra present
    rw [Bool.eq_false_iff, Ne, tableInUse_iff] at unused
    refine unused ⟨tableIndex query, tableIndex_lt query, ?_⟩
    simp [PTEntry.isMapped, present]
  rw [walk_of_table table]
  simp [absent]

/-- Nothing translates through a table of which all pages have been cleared. -/
theorem walk_none_of_whole {memory : Memory} {query : Nat} (wf : WellFormed memory root)
    (visits : Visits vaddr size region) (whole : ¬CutsRegion vaddr size region)
    (table : (memory root (dirIndex region)).isTable = true)
    (selected : dirIndex query = dirIndex region) :
    walk (memory.clearPages (memory root (dirIndex region)).frame
      (partPages vaddr size region)) root query = none := by
  obtain ⟨startEq, endEq⟩ := part_of_whole whole
  have inside := tableIndex_lt query
  rw [← selected] at table ⊢
  rw [walk_clearPages wf table, if_pos]
  refine ⟨region + tableIndex query * 0x1000, ?_, tableIndex_add visits.onRegion inside⟩
  have onRegion := visits.onRegion
  rw [mem_partPages, startEq, endEq]
  omega

theorem only_anyMapped (page length : Nat) (level : PageTableLevel) :
    (anyMapped page length level : PagingM Bool).Only ReadsTables := by
  refine Only.bind ?_ fun _ => Program.only_anyOf fun entryAddr _ => ?_
  · unfold checkedAdd
    split <;> exact trivial
  · exact (only_getEntry level entryAddr).bind fun _ => Program.only_ret _

omit [PageAllocatorTrait PageSize A] in
/-- What is known of the state in which the part of a region has been unmapped. -/
theorem directory_of_cleared (wf : WellFormed state.memory root)
    (table : (state.memory root (dirIndex region)).isTable = true) {pages : List Nat}
    (cleared : after.memory =
      state.memory.clearPages (state.memory root (dirIndex region)).frame pages) :
    WellFormed after.memory root ∧
      after.memory root (dirIndex region) = state.memory root (dirIndex region) := by
  have notRoot := wf.table_ne_root _ (dirIndex_lt region) table
  rw [cleared]
  exact ⟨clearPages_wellFormed wf (dirIndex_lt region) table _,
    clearPages_of_frame_ne _ _ (Ne.symm notRoot) _ _⟩

/-- A region whose directory entry is a table. -/
theorem each_unmapTable (wf : WellFormed state.memory root) (visits : Visits vaddr size region)
    (table : (state.memory root (dirIndex region)).isTable = true) :
    Each handler (KeepsOthers root)
      (unmapTable root (state.memory root (dirIndex region)).frame vaddr size region) state := by
  have bound := visits.region_bound
  have aligned := (state.memory root (dirIndex region)).frame_aligned
  rw [unmapTable]
  refine (each_unmapPart wf visits table rfl).bind fun _ middle unmapped => ?_
  have cleared := unmapPart_returned aligned visits unmapped
  obtain ⟨middleWf, same⟩ := directory_of_cleared wf table cleared
  by_cases cut : CutsRegion vaddr size region
  · simp only [cut, if_true]
    refine (each_of_reads (only_anyMapped _ _ _)).bind fun mapped last scanned => ?_
    rw [run_anyMapped middle aligned visits.onRegion (by omega)] at scanned
    have ended := Prod.mk.inj scanned
    rw [← Outcome.ok.inj ended.1, ← ended.2]
    split
    next => exact .ret () _
    next unused =>
      apply each_unlinkSublevel middleWf
      intro query selected
      rw [Bool.not_eq_true, ← same, ← selected] at unused
      rw [← same, ← selected] at table
      exact walk_none_of_unused unused table
  · simp only [cut, if_false]
    apply each_unlinkSublevel middleWf
    intro query selected
    rw [cleared]
    exact walk_none_of_whole wf visits cut table selected

/-- A 4 MiB page inside the range, whose entry `set_entry` does not overwrite. -/
theorem each_freePage_large (wf : WellFormed state.memory root)
    (onRegion : region % 0x400000 = 0)
    (large : (state.memory root (dirIndex region)).isLarge = true) (paddr : Nat) :
    Each handler (KeepsOthers root) (freePage (directory root) region paddr) state := by
  rw [freePage, pageSize_directory]
  change Each handler (KeepsOthers root) (free paddr PageSize.size4M >>= fun _ =>
    setEntry (directory root) region .NULL) state
  refine (each_of_reads (only_free _ _)).bind fun _ middle returned => ?_
  rw [run_free] at returned
  cases returned
  simp only [PTEntry.isLarge, Bool.and_eq_true] at large
  refine .call ?_ fun answer after _ => Program.each_ofExcept answer after
  intro answer after handled
  have refused := handler_setEntry_directory_refused
    ⟨state.memory, PageAllocatorTrait.free state.allocator paddr PageSize.size4M⟩
    wf.root_aligned .NULL (.inl onRegion) large.2
  rw [refused] at handled
  cases handled
  exact fun _ _ _ => rfl

/-- An iteration on the page directory. -/
theorem each_unmapRegion (wf : WellFormed state.memory root)
    (visits : Visits vaddr size region) :
    Each handler (KeepsOthers root)
      (unmapRegion (unmapFree 1) (directory root) vaddr size region) state := by
  obtain ⟨next, code, onWord⟩ := unmapRegion_eq root visits
  rw [code]
  refine (each_of_reads (only_getEntry _ _)).bind fun entry after returned => ?_
  rw [run_getEntry state (directory root) region wf.root_aligned] at returned
  cases returned
  rw [index_directory, onWord]
  cases table : (state.memory root (dirIndex region)).isTable with
  | true =>
      simp only [if_true, wf.table_address (dirIndex_lt region) table]
      exact each_unmapTable wf visits table
  | false =>
      simp only [Bool.false_eq_true, if_false, unmapLeaf]
      split
      next present =>
        split
        · exact .throw _ _
        · have large : (state.memory root (dirIndex region)).isLarge = true := by
            simpa [PTEntry.isTable, PTEntry.isLarge, present] using table
          exact each_freePage_large wf visits.onRegion large _
      next => exact .ret () _

/-- Every operation of `unmap_free`. -/
theorem each_unmapFree (wf : WellFormed state.memory root) (vaddr size : Nat) :
    Each handler (KeepsOthers root) ((AddressSpace.fromPaddr root).unmapFree vaddr size)
      state := by
  by_cases bounded : vaddr + size + 0x400000 < 0x100000000
  · rw [unmapFree_eq bounded]
    apply Program.each_forEach fun current : State A => WellFormed current.memory root
    · exact wf
    · intro region member current wf
      have visits := visits_of_mem bounded member
      refine ⟨each_unmapRegion wf visits, fun after returned => ?_⟩
      rw [run_unmapRegion current wf visits] at returned
      have memoryEq : after.memory =
          (regionEffect current.memory root vaddr size region).memory := by
        rw [← Effect.apply_memory (regionEffect current.memory root vaddr size region)
          current.allocator, returned]
      rw [memoryEq]
      exact regionEffect_wellFormed wf vaddr size region
  · rw [unmapFree_overflow (Nat.not_lt.mp bounded)]
    exact Each.panic state

/-! ## Mapping -/

/-- Allocating and clearing a table. -/
theorem each_newSublevel (fresh : AllocatesFresh state root) :
    Each handler (KeepsOthers root) (newSublevel (directory root)) state := by
  refine .call (fun _ _ _ => fresh) fun answer after _ => ?_
  cases answer with
  | none => exact .throw _ _
  | some level => exact .ret level after

/-- Linking a table that has been cleared. -/
theorem each_linkTable (wf : WellFormed state.memory root) {frame : Nat}
    (fresh : FreshFrame state.memory root frame)
    (absent : (state.memory root (dirIndex vaddr)).flags.p = false) (allocator : A) :
    Each handler (KeepsOthers root) (setEntry (directory root) vaddr (.level (pageTable frame)))
      ⟨state.memory.clear frame, allocator⟩ := by
  refine .call ?_ fun answer after _ => Program.each_ofExcept answer after
  intro answer after handled
  obtain ⟨-, ⟨error, -, rfl⟩ | ⟨word, encoded, -, rfl⟩⟩ := handler_setEntry_cases handled
  · exact fun _ _ _ => rfl
  · simp only [PageTableLevel.encode, Option.some.injEq] at encoded
    subst encoded
    intro query _ _
    dsimp only
    rw [index_directory, walk_clear fresh]
    exact walk_link wf fresh absent query

/-- Finding or creating the table of a page. -/
theorem each_nextLevel (wf : WellFormed state.memory root) (fresh : AllocatesFresh state root)
    (vaddr : Nat) :
    Each handler (KeepsOthers root) (nextLevel (directory root) vaddr) state := by
  rw [nextLevel]
  refine (each_of_reads (only_getEntry _ _)).bind fun entry after returned => ?_
  rw [run_getEntry_directory state vaddr wf.root_aligned] at returned
  cases returned
  cases table : (state.memory root (dirIndex vaddr)).isTable with
  | true =>
      simp only [if_true]
      exact .ret _ _
  | false =>
      simp only [Bool.false_eq_true, if_false]
      split
      next => exact .throw _ _
      next absent =>
        refine (each_newSublevel fresh).bind fun level middle created => ?_
        rcases answered : PageAllocatorTrait.alloc state.allocator PageSize.size4K with
          ⟨_ | frame, allocator⟩
        · rw [run_newSublevel_none state answered] at created
          cases created
        · have freshFrame := fresh frame allocator answered
          rw [run_newSublevel_some state answered freshFrame.aligned] at created
          cases created
          refine (each_linkTable wf freshFrame (Bool.not_eq_true _ ▸ absent) allocator).bind
            fun _ _ _ => .ret _ _

/-- Mapping a page. -/
theorem each_mapPage (wf : WellFormed state.memory root) (fresh : AllocatesFresh state root)
    (bounded : vaddr < 0x100000000) (paddr : Nat) (flags : MappingFlags) :
    Each handler (KeepsOthers root)
      (mapPage levels (directory root) vaddr paddr PageSize.size4K flags) state := by
  rw [mapPage_directory_eq]
  refine (each_nextLevel wf fresh vaddr).bind fun level middle returned => ?_
  have found := findsTable state vaddr wf fresh
  rw [returned] at found
  cases found with
  | existing table =>
      simp only [mapPage, pageSize_pageTable, if_true]
      exact each_setEntry_table wf bounded table rfl _
  | @linked absent allocator frame allocated ps =>
      have freshFrame := fresh frame allocator allocated
      have linked := link_directory_self state.memory root (dirIndex vaddr) frame
      simp only [mapPage, pageSize_pageTable, if_true]
      apply each_setEntry_table
      · exact wf.link freshFrame _
      · exact bounded
      · simp only [linked]
        exact newPageTable_isTable freshFrame.aligned
      · simp only [linked]
        exact newPageTable_frame freshFrame.aligned freshFrame.bounded

/-- An iteration of `map_alloc`, given the address of its page. -/
theorem each_mapFrame {ledger : FrameLedger A root} (ready : MapReady ledger state)
    {page : Nat} (bounded : page < 0x100000000) (flags : MappingFlags) :
    Each handler (KeepsOthers root) (mapFrame root flags page) state := by
  rw [mapFrame]
  refine (each_of_reads (only_alloc _)).bind fun answer after returned => ?_
  rcases answered : PageAllocatorTrait.alloc state.allocator PageSize.size4K with
    ⟨_ | frame, allocator⟩
  · rw [run_alloc, answered] at returned
    cases returned
    exact .panic _
  · rw [run_alloc, answered] at returned
    cases returned
    have ready := ready.alloc answered
    apply each_mapPage
    · exact ready.wf
    · exact ledger.allocatesFresh ready.tables
    · exact bounded

/-- Every operation of `map_alloc`. -/
theorem each_mapAlloc {ledger : FrameLedger A root} (ready : MapReady ledger state)
    (vaddr size : Nat) (flags : MappingFlags) :
    Each handler (KeepsOthers root) ((AddressSpace.fromPaddr root).mapAlloc vaddr size flags)
      state := by
  refine Each.bind ?_ fun _ _ _ => .ret _ _
  apply Program.each_forEach (MapReady ledger) ready
  intro page _ current ready
  by_cases bounded : vaddr + page * 0x1000 < 0x100000000
  · have sameCode : (mapAllocPage levels (AddressSpace.fromPaddr root).topLevel vaddr flags
        page : PagingM Unit) = mapFrame root flags (vaddr + page * 0x1000) :=
      mapAllocPage_eq flags bounded
    rw [sameCode]
    refine ⟨each_mapFrame ready bounded flags, fun after returned => ?_⟩
    have ending := mapsFrame_or_panic ledger (vaddr + page * 0x1000) flags ready.wf ready.tables
    rw [returned] at ending
    rcases ending with panicked | ending
    · cases panicked
    · exact ending.ready ready
  · have sameCode : (mapAllocPage levels (AddressSpace.fromPaddr root).topLevel vaddr flags
        page : PagingM Unit) = .panic := mapAllocPage_overflow flags bounded
    rw [sameCode]
    refine ⟨.panic current, fun after returned => ?_⟩
    rw [Program.run_panic] at returned
    cases returned

/-- Every operation of a call of the address-space interface. -/
theorem each_call {ledger : FrameLedger A root} (ready : MapReady ledger state) (call : Call) :
    Each handler (KeepsOthers root) (call.program root) state := by
  cases call with
  | mapAlloc vaddr size flags =>
      exact (each_mapAlloc ready vaddr size flags).bind fun _ _ _ => .ret _ _
  | unmapFree vaddr size => exact each_unmapFree ready.wf vaddr size

end Steps

end SatanKernel.X86
