import Mathlib.Data.Finset.Card
import SatanKernel.X86.FrameLedger
import SatanKernel.X86.UnmapGuarantees

/-!
# Allocating a mapped range

`map_alloc` asks for a frame for each page of its range and maps it with `map_page`,
which may ask for another frame for the page's table.  This module says when all of
this succeeds, and what a failure leaves behind.
-/

namespace SatanKernel.X86

open Lib NestedPageTableLevel
open Lib.Program (run)

/-- Starts of the pages of a range, in the order in which `map_alloc` maps them. -/
def rangePages (vaddr size : Nat) : List Nat :=
  (List.range (size / 0x1000)).map fun page => vaddr + page * 0x1000

theorem mem_rangePages {vaddr size page : Nat} :
    page ∈ rangePages vaddr size ↔ ∃ k < size / 0x1000, vaddr + k * 0x1000 = page := by
  simp [rangePages]

/-- One iteration of `map_alloc`, given the address of its page. -/
def mapFrame (root : Nat) (flags : MappingFlags) (page : Nat) : PagingM Unit := do
  let frame ← alloc PageSize.size4K
  let frame ← Program.unwrap frame
  (AddressSpace.fromPaddr root).mapPage page frame .size4K flags

/-- The address of a page is computed without overflow if it is in the address space. -/
theorem mapAllocPage_eq {root vaddr page : Nat} (flags : MappingFlags)
    (bounded : vaddr + page * 0x1000 < 0x100000000) :
    (mapAllocPage levels (directory root) vaddr flags page : PagingM Unit) =
      mapFrame root flags (vaddr + page * 0x1000) := by
  have offsetBound : page * 0x1000 < 0x100000000 := by omega
  have minimum : PageSizeTrait.into (PageSizeTrait.MIN : PageSize) = 0x1000 := rfl
  rw [mapAllocPage, minimum, checkedMul_of_lt offsetBound, Program.ret_bind,
    checkedAdd_of_lt bounded, Program.ret_bind]
  rfl

/-- An iteration of `map_alloc` whose address overflows panics. -/
theorem mapAllocPage_overflow {root vaddr page : Nat} (flags : MappingFlags)
    (overflow : ¬ vaddr + page * 0x1000 < 0x100000000) :
    (mapAllocPage levels (directory root) vaddr flags page : PagingM Unit) = .panic := by
  have minimum : PageSizeTrait.into (PageSizeTrait.MIN : PageSize) = 0x1000 := rfl
  rw [mapAllocPage, minimum]
  by_cases offsetBound : page * 0x1000 < 0x100000000
  · rw [checkedMul_of_lt offsetBound, Program.ret_bind, checkedAdd_overflow overflow,
      Program.panic_bind]
  · rw [checkedMul_overflow offsetBound, Program.panic_bind]

section Run

variable {A : Type} [PageAllocatorTrait PageSize A]

/-- `map_alloc` on a range of the address space maps its pages one after the other. -/
theorem run_mapAlloc {root vaddr size : Nat} (flags : MappingFlags) (state : State A)
    (bounded : vaddr + size ≤ 0x100000000) :
    run handler ((AddressSpace.fromPaddr root).mapAlloc vaddr size flags) state =
      Outcome.andThen
        (run handler (Program.forEach (rangePages vaddr size) (mapFrame root flags)) state)
        fun _ after => (.ok vaddr, after) := by
  have minimum : PageSizeTrait.into (PageSizeTrait.MIN : PageSize) = 0x1000 := rfl
  have agree : ∀ page ∈ List.range (size / 0x1000), ∀ state : State A,
      run handler (mapAllocPage levels (directory root) vaddr flags page) state =
        run handler (mapFrame root flags (vaddr + page * 0x1000)) state := by
    intro page member state
    rw [List.mem_range] at member
    rw [mapAllocPage_eq flags (by omega)]
  rw [AddressSpace.mapAlloc, AddressSpace.fromPaddr, mapAlloc, minimum, Program.run_bind,
    Program.run_forEach_map handler _ (fun page => vaddr + page * 0x1000) _
      (mapFrame root flags) agree, rangePages]
  simp only [Program.run_pure]

/-! ## One page -/

/-- The ways in which an iteration ends. -/
inductive MapsFrame (state : State A) (root page : Nat) (flags : MappingFlags) :
    Outcome MappingError Unit × State A → Prop where
  | exhausted {allocator : A}
      (answered : PageAllocatorTrait.alloc state.allocator PageSize.size4K =
        (none, allocator)) :
      MapsFrame state root page flags (.panic, { state with allocator })
  | mapped {allocator : A} {frame : Nat} {finished : Outcome MappingError Unit × State A}
      (answered : PageAllocatorTrait.alloc state.allocator PageSize.size4K =
        (some frame, allocator))
      (ending : MapsSmallPage { state with allocator } root page frame flags finished) :
      MapsFrame state root page flags finished

variable {root : Nat} (ledger : FrameLedger A root)

/-- The tables of the address space stay outstanding when a frame is handed out. -/
theorem tablesOutstanding_alloc {memory : Memory} {allocator after : A}
    {answer : Option Nat}
    (tables : TablesOutstanding memory root (ledger.outstanding allocator))
    (answered : PageAllocatorTrait.alloc allocator PageSize.size4K = (answer, after)) :
    TablesOutstanding memory root (ledger.outstanding after) := by
  intro i inside table
  cases answer with
  | none =>
      rw [ledger.alloc_none answered]
      exact tables i inside table
  | some frame =>
      rw [ledger.alloc_some answered]
      exact Set.mem_insert_of_mem _ (tables i inside table)

theorem run_mapFrame_none {page : Nat} {flags : MappingFlags} {state : State A}
    {allocator : A}
    (answered : PageAllocatorTrait.alloc state.allocator PageSize.size4K =
      (none, allocator)) :
    run handler (mapFrame root flags page) state = (.panic, { state with allocator }) := by
  rw [mapFrame, Program.run_bind, run_alloc, answered, Outcome.andThen_ok,
    Program.run_bind, Program.run_unwrap_none, Outcome.andThen_panic]

theorem run_mapFrame_some {page frame : Nat} {flags : MappingFlags} {state : State A}
    {allocator : A}
    (answered : PageAllocatorTrait.alloc state.allocator PageSize.size4K =
      (some frame, allocator)) :
    run handler (mapFrame root flags page) state =
      run handler ((AddressSpace.fromPaddr root).mapPage page frame .size4K flags)
        { state with allocator } := by
  rw [mapFrame, Program.run_bind, run_alloc, answered, Outcome.andThen_ok,
    Program.run_bind, Program.run_unwrap_some, Outcome.andThen_ok]

theorem mapsFrame {page : Nat} (flags : MappingFlags) {state : State A}
    (wf : WellFormed state.memory root)
    (tables : TablesOutstanding state.memory root (ledger.outstanding state.allocator))
    (onPage : page % 0x1000 = 0) :
    MapsFrame state root page flags (run handler (mapFrame root flags page) state) := by
  rcases answered : PageAllocatorTrait.alloc state.allocator PageSize.size4K with
    ⟨_ | frame, allocator⟩
  · rw [run_mapFrame_none answered]
    exact .exhausted answered
  · rw [run_mapFrame_some answered]
    have stillOutstanding := tablesOutstanding_alloc ledger tables answered
    exact .mapped answered (mapsSmallPage { state with allocator } frame flags wf onPage
      (ledger.allocatesFresh stillOutstanding))

/-- An iteration at any address panics or ends in one of the same ways. -/
theorem mapsFrame_or_panic (page : Nat) (flags : MappingFlags) {state : State A}
    (wf : WellFormed state.memory root)
    (tables : TablesOutstanding state.memory root (ledger.outstanding state.allocator)) :
    (run handler (mapFrame root flags page) state).1 = .panic ∨
      MapsFrame state root page flags (run handler (mapFrame root flags page) state) := by
  by_cases onPage : page % 0x1000 = 0
  · exact .inr (mapsFrame ledger flags wf tables onPage)
  · rcases answered : PageAllocatorTrait.alloc state.allocator PageSize.size4K with
      ⟨_ | frame, allocator⟩
    · rw [run_mapFrame_none answered]
      exact .inl rfl
    · rw [run_mapFrame_some answered]
      have stillOutstanding := tablesOutstanding_alloc ledger tables answered
      rcases mapsSmallPage_unaligned { state with allocator } frame flags wf onPage
        (ledger.allocatesFresh stillOutstanding) with panicked | ending
      · exact .inl panicked
      · exact .inr (.mapped answered ending)

/-! ## What a mapped page leaves behind -/

/-- A successful `map_page` leaves a table for its page and keeps the rest of the
directory. -/
theorem MapsSmallPage.directory_ok {state after : State A} {vaddr paddr : Nat}
    {flags : MappingFlags} (wf : WellFormed state.memory root)
    (fresh : AllocatesFresh state root)
    (mapped : MapsSmallPage state root vaddr paddr flags (.ok (), after)) :
    (after.memory root (dirIndex vaddr)).isTable = true ∧
      ∀ i, i ≠ dirIndex vaddr → after.memory root i = state.memory root i := by
  have inside := dirIndex_lt vaddr
  cases mapped with
  | existingTable table =>
      have notRoot := wf.table_ne_root _ inside table
      have same : ∀ i, state.memory.write (state.memory root (dirIndex vaddr)).frame
          (tableIndex vaddr) (leafEntry paddr flags) root i = state.memory root i :=
        fun i => Memory.write_of_frame_ne _ _ _ (Ne.symm notRoot) i
      simp only [same]
      exact ⟨table, fun _ _ => trivial⟩
  | @newTable absent allocator frame allocated ps =>
      have freshFrame := fresh frame allocator allocated
      have same : ∀ i, (state.memory.link root (dirIndex vaddr) frame).write frame
          (tableIndex vaddr) (leafEntry paddr flags) root i =
            state.memory.link root (dirIndex vaddr) frame root i :=
        fun i => Memory.write_of_frame_ne _ _ _ (Ne.symm freshFrame.ne_root) i
      simp only [same]
      refine ⟨?_, ?_⟩
      · rw [link_directory_self]
        exact newPageTable_isTable freshFrame.aligned
      · intro i different
        rw [Memory.link, Memory.write_of_index_ne _ _ _ _ different,
          Memory.clear_of_frame_ne _ (Ne.symm freshFrame.ne_root)]

/-- `map_page` keeps the tree, whatever it returns. -/
theorem MapsSmallPage.wellFormed {state : State A} {vaddr paddr : Nat}
    {flags : MappingFlags} {finished : Outcome MappingError Unit × State A}
    (wf : WellFormed state.memory root) (fresh : AllocatesFresh state root)
    (mapped : MapsSmallPage state root vaddr paddr flags finished) :
    WellFormed finished.2.memory root := by
  have inside := dirIndex_lt vaddr
  cases mapped with
  | existingTable table =>
      exact wf.write_table (wf.table_ne_root _ inside table) _ _
  | largePage large => exact wf
  | noFrame absent exhausted => exact wf
  | refused absent allocated ps => exact wf.clear (fresh _ _ allocated).ne_root
  | newTable absent allocated ps =>
      exact (wf.link (fresh _ _ allocated) _).write_table (fresh _ _ allocated).ne_root _ _

/-- The page has an entry for a frame of its own with the given flags. -/
def MapsPage (memory : Memory) (root : Nat) (flags : MappingFlags) (page : Nat) : Prop :=
  (memory root (dirIndex page)).isTable = true ∧
    ∃ frame, frame % 0x1000 = 0 ∧ frame < 0x100000000 ∧ frame ≠ 0 ∧
      memory (memory root (dirIndex page)).frame (tableIndex page) = leafEntry frame flags

/-- Mapping a page maps it. -/
theorem MapsSmallPage.mapsPage_self {state after : State A} {vaddr frame : Nat}
    {flags : MappingFlags} (fresh : AllocatesFresh state root)
    (wf : WellFormed state.memory root)
    (aligned : frame % 0x1000 = 0) (bounded : frame < 0x100000000) (nonzero : frame ≠ 0)
    (mapped : MapsSmallPage state root vaddr frame flags (.ok (), after)) :
    MapsPage after.memory root flags vaddr := by
  have table := (mapped.directory_ok wf fresh).1
  refine ⟨table, frame, aligned, bounded, nonzero, ?_⟩
  have inside := dirIndex_lt vaddr
  cases mapped with
  | existingTable existing =>
      have notRoot := wf.table_ne_root _ inside existing
      have same : state.memory.write (state.memory root (dirIndex vaddr)).frame
          (tableIndex vaddr) (leafEntry frame flags) root (dirIndex vaddr) =
            state.memory root (dirIndex vaddr) :=
        Memory.write_of_frame_ne _ _ _ (Ne.symm notRoot) _
      simp only [same]
      exact Memory.write_self _ _ _ _
  | @newTable absent allocator tableFrame allocated ps =>
      have freshFrame := fresh tableFrame allocator allocated
      have linked : (state.memory.link root (dirIndex vaddr) tableFrame).write tableFrame
          (tableIndex vaddr) (leafEntry frame flags) root (dirIndex vaddr) =
            .newPageTable tableFrame := by
        rw [Memory.write_of_frame_ne _ _ _ (Ne.symm freshFrame.ne_root),
          link_directory_self]
      simp only [linked, newPageTable_frame freshFrame.aligned freshFrame.bounded]
      exact Memory.write_self _ _ _ _

/-- Mapping a page keeps what is mapped with the same flags. -/
theorem MapsSmallPage.mapsPage_other {state after : State A} {vaddr frame page : Nat}
    {flags : MappingFlags} (fresh : AllocatesFresh state root)
    (wf : WellFormed state.memory root)
    (aligned : frame % 0x1000 = 0) (bounded : frame < 0x100000000) (nonzero : frame ≠ 0)
    (mapped : MapsSmallPage state root vaddr frame flags (.ok (), after))
    (before : MapsPage state.memory root flags page) :
    MapsPage after.memory root flags page := by
  obtain ⟨pageTable, pageFrame, pageAligned, pageBounded, pageNonzero, entry⟩ := before
  have inside := dirIndex_lt page
  have notRoot := wf.table_ne_root _ inside pageTable
  cases mapped with
  | existingTable table =>
      have tableNotRoot := wf.table_ne_root _ (dirIndex_lt vaddr) table
      have same : state.memory.write (state.memory root (dirIndex vaddr)).frame
          (tableIndex vaddr) (leafEntry frame flags) root (dirIndex page) =
            state.memory root (dirIndex page) :=
        Memory.write_of_frame_ne _ _ _ (Ne.symm tableNotRoot) _
      simp only [MapsPage, same]
      refine ⟨pageTable, ?_⟩
      unfold Memory.write
      split
      · exact ⟨frame, aligned, bounded, nonzero, rfl⟩
      · exact ⟨pageFrame, pageAligned, pageBounded, pageNonzero, entry⟩
  | @newTable absent allocator tableFrame allocated ps =>
      have freshFrame := fresh tableFrame allocator allocated
      have different : dirIndex page ≠ dirIndex vaddr := by
        intro equal
        rw [equal, PTEntry.not_present_not_isTable absent] at pageTable
        cases pageTable
      have same : (state.memory.link root (dirIndex vaddr) tableFrame).write tableFrame
          (tableIndex vaddr) (leafEntry frame flags) root (dirIndex page) =
            state.memory root (dirIndex page) := by
        rw [Memory.write_of_frame_ne _ _ _ (Ne.symm freshFrame.ne_root),
          link_directory_of_ne freshFrame different]
      have otherTable := freshFrame.ne_table inside pageTable
      simp only [MapsPage, same]
      refine ⟨pageTable, pageFrame, pageAligned, pageBounded, pageNonzero, ?_⟩
      rw [Memory.write_of_frame_ne _ _ _ otherTable, link_of_frame_ne _ _ notRoot otherTable]
      exact entry

/-! ## The state between two pages -/

/-- What mapping a page relies on and keeps: the tables form a tree in outstanding
frames. -/
structure MapReady (state : State A) : Prop where
  wf : WellFormed state.memory root
  tables : TablesOutstanding state.memory root (ledger.outstanding state.allocator)

variable {ledger} {state : State A} {page : Nat} {flags : MappingFlags}
  {finished : Outcome MappingError Unit × State A}

theorem MapReady.alloc (ready : MapReady ledger state) {allocator : A}
    {answer : Option Nat}
    (answered : PageAllocatorTrait.alloc state.allocator PageSize.size4K =
      (answer, allocator)) : MapReady ledger { state with allocator } :=
  ⟨ready.wf, tablesOutstanding_alloc ledger ready.tables answered⟩

/-- No call of `map_page` gives a frame back. -/
theorem MapsSmallPage.outstanding_subset (ledger : FrameLedger A root) {paddr : Nat}
    (ending : MapsSmallPage state root page paddr flags finished) :
    ledger.outstanding state.allocator ⊆ ledger.outstanding finished.2.allocator := by
  intro frame outstanding
  cases ending with
  | existingTable table => exact outstanding
  | largePage large => exact outstanding
  | noFrame absent exhausted =>
      rw [ledger.alloc_none exhausted]
      exact outstanding
  | refused absent allocated ps =>
      rw [ledger.alloc_some allocated]
      exact Set.mem_insert_of_mem _ outstanding
  | newTable absent allocated ps =>
      rw [ledger.alloc_some allocated]
      exact Set.mem_insert_of_mem _ outstanding

theorem MapsSmallPage.ready {paddr : Nat} (ready : MapReady ledger state)
    (ending : MapsSmallPage state root page paddr flags finished) :
    MapReady ledger finished.2 := by
  have fresh := ledger.allocatesFresh ready.tables
  refine ⟨ending.wellFormed ready.wf fresh, ?_⟩
  intro i inside table
  have subset := ending.outstanding_subset ledger
  have kept : finished.2.memory root i = state.memory root i →
      (finished.2.memory root i).frame ∈ ledger.outstanding finished.2.allocator := by
    intro same
    rw [same] at table ⊢
    exact subset (ready.tables i inside table)
  cases ending with
  | existingTable existing =>
      apply kept
      exact Memory.write_of_frame_ne _ _ _
        (Ne.symm (ready.wf.table_ne_root _ (dirIndex_lt page) existing)) _
  | largePage large => exact kept rfl
  | noFrame absent exhausted => exact kept rfl
  | refused absent allocated ps =>
      exact kept (Memory.clear_of_frame_ne _ (Ne.symm (fresh _ _ allocated).ne_root) _)
  | @newTable absent allocator tableFrame allocated ps =>
      have freshFrame := fresh tableFrame allocator allocated
      have linked : (state.memory.link root (dirIndex page) tableFrame).write tableFrame
          (tableIndex page) (leafEntry paddr flags) root i =
            state.memory.link root (dirIndex page) tableFrame root i :=
        Memory.write_of_frame_ne _ _ _ (Ne.symm freshFrame.ne_root) _
      by_cases same : i = dirIndex page
      · subst same
        simp only [linked, link_directory_self,
          newPageTable_frame freshFrame.aligned freshFrame.bounded,
          ledger.alloc_some allocated]
        exact Set.mem_insert _ _
      · exact kept (linked.trans (link_directory_of_ne freshFrame same))

theorem MapsFrame.ready (ready : MapReady ledger state)
    (ending : MapsFrame state root page flags finished) : MapReady ledger finished.2 := by
  cases ending with
  | exhausted answered => exact ready.alloc answered
  | mapped answered ending => exact ending.ready (ready.alloc answered)

theorem MapsFrame.outstanding_subset (ledger : FrameLedger A root)
    (ending : MapsFrame state root page flags finished) :
    ledger.outstanding state.allocator ⊆ ledger.outstanding finished.2.allocator := by
  cases ending with
  | exhausted answered => rw [ledger.alloc_none answered]
  | mapped answered ending =>
      refine Set.Subset.trans ?_ (ending.outstanding_subset ledger)
      rw [ledger.alloc_some answered]
      exact Set.subset_insert _ _

/-- An iteration that fails has taken a frame that it does not give back. -/
theorem MapsFrame.err_leaks {error : MappingError} {after : State A}
    (ending : MapsFrame state root page flags (.err error, after)) :
    ∃ frame, frame ∉ ledger.outstanding state.allocator ∧
      frame ∈ ledger.outstanding after.allocator := by
  cases ending with
  | @mapped allocator frame finished answered ending =>
      refine ⟨frame, (ledger.alloc_frame answered).2.2.2.2, ?_⟩
      apply ending.outstanding_subset ledger
      rw [ledger.alloc_some answered]
      exact Set.mem_insert _ _

/-- An iteration that succeeds has mapped its page and kept the others. -/
theorem MapsFrame.mapsPage (ready : MapReady ledger state) {after : State A}
    (ending : MapsFrame state root page flags (.ok (), after)) :
    MapsPage after.memory root flags page ∧
      ∀ other, MapsPage state.memory root flags other →
        MapsPage after.memory root flags other := by
  cases ending with
  | mapped answered ending =>
      obtain ⟨aligned, bounded, nonzero, -, -⟩ := ledger.alloc_frame answered
      have ready := ready.alloc answered
      have fresh := ledger.allocatesFresh ready.tables
      refine ⟨ending.mapsPage_self fresh ready.wf aligned bounded nonzero, ?_⟩
      intro other mapped
      exact ending.mapsPage_other fresh ready.wf aligned bounded nonzero mapped

/-! ## The loop over pages -/

section Loop

/-- A loop that succeeds has mapped its pages and kept what was mapped before. -/
theorem mapsPage_of_loop_ok {pages : List Nat} {after : State A}
    (ready : MapReady ledger state) (onPage : ∀ page ∈ pages, page % 0x1000 = 0)
    (succeeded : run handler (Program.forEach pages (mapFrame root flags)) state =
      (.ok (), after)) :
    ∀ page, page ∈ pages ∨ MapsPage state.memory root flags page →
      MapsPage after.memory root flags page := by
  induction pages generalizing state with
  | nil =>
      rw [Program.run_forEach_nil, Prod.mk.injEq] at succeeded
      rintro page (member | mapped)
      · cases member
      · rw [← succeeded.2]
        exact mapped
  | cons first pages ih =>
      have ending := mapsFrame ledger flags ready.wf ready.tables (onPage first (by simp))
      rw [Program.run_forEach_cons] at succeeded
      generalize run handler (mapFrame root flags first) state = headRun at ending succeeded
      obtain ⟨⟨⟩ | _ | _, middle⟩ := headRun
      · rw [Outcome.andThen_ok] at succeeded
        obtain ⟨mapsFirst, keeps⟩ := ending.mapsPage ready
        have rest := ih (ending.ready ready)
          (fun other member => onPage other (by simp [member])) succeeded
        rintro page (member | mapped)
        · rcases List.mem_cons.mp member with rfl | member
          · exact rest page (.inr mapsFirst)
          · exact rest page (.inl member)
        · exact rest page (.inr (keeps page mapped))
      · cases succeeded
      · cases succeeded

/-- A loop that fails leaks a frame. -/
theorem loop_err_leaks {pages : List Nat} {error : MappingError} {after : State A}
    (ready : MapReady ledger state) (onPage : ∀ page ∈ pages, page % 0x1000 = 0)
    (failed : run handler (Program.forEach pages (mapFrame root flags)) state =
      (.err error, after)) :
    ∃ frame, frame ∉ ledger.outstanding state.allocator ∧
      frame ∈ ledger.outstanding after.allocator := by
  induction pages generalizing state with
  | nil =>
      rw [Program.run_forEach_nil] at failed
      cases failed
  | cons first pages ih =>
      have ending := mapsFrame ledger flags ready.wf ready.tables (onPage first (by simp))
      rw [Program.run_forEach_cons] at failed
      generalize run handler (mapFrame root flags first) state = headRun at ending failed
      obtain ⟨⟨⟩ | _ | _, middle⟩ := headRun
      · rw [Outcome.andThen_ok] at failed
        obtain ⟨frame, notBefore, leaked⟩ := ih (ending.ready ready)
          (fun other member => onPage other (by simp [member])) failed
        exact ⟨frame, fun earlier => notBefore (ending.outstanding_subset ledger earlier),
          leaked⟩
      · rw [Outcome.andThen_err] at failed
        cases failed
        exact ending.err_leaks
      · cases failed

end Loop

/-! ## When the loop succeeds -/

/-- The allocator answers its next `n` requests, with none given back in between. -/
def Supplies (allocator : A) : Nat → Prop
  | 0 => True
  | n + 1 => ∃ frame after,
      PageAllocatorTrait.alloc allocator PageSize.size4K = (some frame, after) ∧
        Supplies after n

/-- Directory entries of the pages that are not tables. -/
def missingTables (memory : Memory) (root : Nat) (pages : List Nat) : Finset Nat :=
  (pages.map dirIndex).toFinset.filter fun i => (memory root i).isTable = false

/-- Frames that mapping the pages asks for: one for each page and one for each missing
table. -/
def framesNeeded (memory : Memory) (root : Nat) (pages : List Nat) : Nat :=
  pages.length + (missingTables memory root pages).card

/-- No directory entry of the pages has `PS` set. -/
def NoPageSizeBit (memory : Memory) (root : Nat) (pages : List Nat) : Prop :=
  ∀ page ∈ pages, (memory root (dirIndex page)).flags.ps = false

section Needed

variable {before after : Memory} {pages : List Nat}

/-- The frames that the remaining pages need once the first one is mapped. -/
theorem framesNeeded_cons
    (table : (after root (dirIndex page)).isTable = true)
    (same : ∀ i, i ≠ dirIndex page → after root i = before root i) :
    framesNeeded before root (page :: pages) =
      framesNeeded after root pages +
        (if (before root (dirIndex page)).isTable then 1 else 2) := by
  have remaining : missingTables after root pages =
      (missingTables before root pages).erase (dirIndex page) := by
    ext i
    simp only [missingTables, Finset.mem_filter, Finset.mem_erase]
    by_cases equal : i = dirIndex page
    · simp [equal, table]
    · simp [equal, same i equal]
  have all : missingTables before root (page :: pages) =
      if (before root (dirIndex page)).isTable then missingTables before root pages
      else insert (dirIndex page) (missingTables before root pages) := by
    rw [missingTables, List.map_cons, List.toFinset_cons, Finset.filter_insert]
    cases (before root (dirIndex page)).isTable <;> simp [missingTables]
  rw [framesNeeded, framesNeeded, all, remaining, List.length_cons]
  cases existing : (before root (dirIndex page)).isTable with
  | true =>
      have absent : dirIndex page ∉ missingTables before root pages := by
        simp [missingTables, existing]
      simp only [if_true, Finset.erase_eq_of_notMem absent]
      omega
  | false =>
      have inserted := Finset.mem_insert_self (dirIndex page)
        (missingTables before root pages)
      have counted := Finset.card_erase_add_one inserted
      rw [Finset.erase_insert_eq_erase] at counted
      simp only [Bool.false_eq_true, if_false, ← counted]
      omega

theorem noPageSizeBit_cons
    (table : (after root (dirIndex page)).isTable = true)
    (same : ∀ i, i ≠ dirIndex page → after root i = before root i)
    (clear : (before root (dirIndex page)).flags.ps = false) :
    NoPageSizeBit before root (page :: pages) ↔ NoPageSizeBit after root pages := by
  have agree : ∀ other, (after root (dirIndex other)).flags.ps =
      (before root (dirIndex other)).flags.ps := by
    intro other
    by_cases equal : dirIndex other = dirIndex page
    · rw [equal, clear]
      exact PTEntry.isTable_ps table
    · rw [same _ equal]
  simp [NoPageSizeBit, agree, clear]

end Needed

theorem supplies_succ_of_none {allocator after : A} {n : Nat}
    (answered : PageAllocatorTrait.alloc allocator PageSize.size4K = (none, after)) :
    ¬Supplies allocator (n + 1) := by
  rintro ⟨frame, supplied, allocated, -⟩
  rw [answered] at allocated
  cases allocated

theorem supplies_succ_of_some {allocator after : A} {frame n : Nat}
    (answered : PageAllocatorTrait.alloc allocator PageSize.size4K = (some frame, after)) :
    Supplies allocator (n + 1) ↔ Supplies after n := by
  constructor
  · rintro ⟨other, supplied, allocated, rest⟩
    rw [answered] at allocated
    cases allocated
    exact rest
  · intro rest
    exact ⟨frame, after, answered, rest⟩

/-- Recording does not change what an allocator supplies. -/
theorem supplies_recorder {allocator : Recorder PageSize A} {n : Nat} :
    Supplies allocator n ↔ Supplies allocator.inner n := by
  induction n generalizing allocator with
  | zero => exact Iff.rfl
  | succ n ih =>
      rcases answered : PageAllocatorTrait.alloc allocator.inner PageSize.size4K with
        ⟨_ | frame, inner⟩
      · have recorded : PageAllocatorTrait.alloc allocator PageSize.size4K =
            (none, { allocator with inner, refused := allocator.refused || true }) := by
          simp only [PageAllocatorTrait.alloc] at answered ⊢
          rw [answered]
          rfl
        exact iff_of_false (supplies_succ_of_none recorded) (supplies_succ_of_none answered)
      · have recorded : PageAllocatorTrait.alloc allocator PageSize.size4K =
            (some frame, { allocator with inner, refused := allocator.refused || false }) := by
          simp only [PageAllocatorTrait.alloc] at answered ⊢
          rw [answered]
          rfl
        rw [supplies_succ_of_some recorded, supplies_succ_of_some answered, ih]

/-- The loop succeeds exactly when no directory entry stands in the way and the allocator
answers every request. -/
theorem loop_ok_iff {pages : List Nat} (ready : MapReady ledger state)
    (onPage : ∀ page ∈ pages, page % 0x1000 = 0) :
    (run handler (Program.forEach pages (mapFrame root flags)) state).1 = .ok () ↔
      NoPageSizeBit state.memory root pages ∧
        Supplies state.allocator (framesNeeded state.memory root pages) := by
  induction pages generalizing state with
  | nil => simp [NoPageSizeBit, framesNeeded, missingTables, Supplies]
  | cons page pages ih =>
      have rest : ∀ other ∈ pages, other % 0x1000 = 0 :=
        fun other member => onPage other (by simp [member])
      have ending := mapsFrame ledger flags ready.wf ready.tables (onPage page (by simp))
      have ready' := ending.ready ready
      rw [Program.run_forEach_cons]
      generalize run handler (mapFrame root flags page) state = headRun at ending ready' ⊢
      have blocked : (state.memory root (dirIndex page)).flags.ps = true →
          ¬NoPageSizeBit state.memory root (page :: pages) := by
        intro ps clear
        rw [clear page (by simp)] at ps
        cases ps
      have positive : framesNeeded state.memory root (page :: pages) =
          framesNeeded state.memory root (page :: pages) - 1 + 1 := by
        simp only [framesNeeded, List.length_cons]
        omega
      cases ending with
      | exhausted answered =>
          refine iff_of_false (by simp) ?_
          rw [positive]
          exact fun both => supplies_succ_of_none answered both.2
      | @mapped allocator frame finished answered ending =>
          have readyAlloc := ready.alloc answered
          have directory : ∀ after : State A,
              MapsSmallPage { state with allocator } root page frame flags (.ok (), after) →
              (after.memory root (dirIndex page)).isTable = true ∧
                ∀ i, i ≠ dirIndex page → after.memory root i = state.memory root i := by
            intro after mapped
            have fresh := ledger.allocatesFresh readyAlloc.tables
            have kept := mapped.directory_ok readyAlloc.wf fresh
            exact kept
          cases ending with
          | largePage large =>
              have ps : (state.memory root (dirIndex page)).flags.ps = true := by
                simp only [PTEntry.isLarge, Bool.and_eq_true] at large
                exact large.2
              exact iff_of_false (by simp) fun both => blocked ps both.1
          | refused absent allocated ps =>
              exact iff_of_false (by simp) fun both => blocked ps both.1
          | noFrame absent exhausted =>
              refine iff_of_false (by simp) ?_
              rintro ⟨-, supplied⟩
              -- One frame for the page, and none for its table.
              have missing : 0 < (missingTables state.memory root (page :: pages)).card := by
                apply Finset.card_pos.mpr
                refine ⟨dirIndex page, ?_⟩
                simp [missingTables, PTEntry.not_present_not_isTable absent]
              have two : framesNeeded state.memory root (page :: pages) =
                  framesNeeded state.memory root (page :: pages) - 2 + 1 + 1 := by
                simp only [framesNeeded, List.length_cons]
                omega
              rw [two, supplies_succ_of_some answered] at supplied
              exact supplies_succ_of_none exhausted supplied
          | existingTable table =>
              obtain ⟨tableAfter, same⟩ := directory _ (.existingTable table)
              rw [Outcome.andThen_ok, ih ready' rest,
                noPageSizeBit_cons tableAfter same (PTEntry.isTable_ps table),
                framesNeeded_cons tableAfter same, if_pos table,
                supplies_succ_of_some answered]
          | newTable absent allocated ps =>
              obtain ⟨tableAfter, same⟩ := directory _ (.newTable absent allocated ps)
              rw [Outcome.andThen_ok, ih ready' rest,
                noPageSizeBit_cons tableAfter same ps,
                framesNeeded_cons tableAfter same,
                if_neg (by simp [PTEntry.not_present_not_isTable absent]),
                supplies_succ_of_some answered, supplies_succ_of_some allocated]

end Run

/-! ## All or nothing -/

section AllOrNothing

variable {A : Type} [PageAllocatorTrait PageSize A] {root : Nat}

/-- What the caller of `map_alloc` expects: every page of the range is mapped, or an error
leaves the translations and the outstanding frames as they were. -/
def AllOrNothing (ledger : FrameLedger A root) (before : State A) (vaddr size : Nat)
    (flags : MappingFlags) :
    Outcome MappingError Nat × State (Recorder PageSize A) → Prop
  | (.ok _, after) =>
      ∀ page ∈ rangePages vaddr size, MapsPage after.memory root flags page
  | (.err error, after) =>
      (after.allocator.refused = true → error = .pageAllocationFailed) ∧
      (∀ query < 0x100000000,
        walk after.memory root query = walk before.memory root query) ∧
      ledger.outstanding after.allocator.inner = ledger.outstanding before.allocator
  | (.panic, _) => False

theorem rangePages_onPage {vaddr size : Nat} (aligned : vaddr % 0x1000 = 0) :
    ∀ page ∈ rangePages vaddr size, page % 0x1000 = 0 := by
  intro page member
  obtain ⟨k, -, rfl⟩ := mem_rangePages.mp member
  omega

/-- `map_alloc` is all or nothing exactly when it succeeds: no directory entry of the range
has `PS` set, and the allocator answers every request. -/
theorem mapAlloc_all_or_nothing_iff (ledger : FrameLedger A root) (state : State A)
    {vaddr size : Nat} (flags : MappingFlags) (wf : WellFormed state.memory root)
    (tables : TablesOutstanding state.memory root (ledger.outstanding state.allocator))
    (aligned : vaddr % 0x1000 = 0) (bounded : vaddr + size ≤ 0x100000000) :
    AllOrNothing ledger state vaddr size flags
        (run handler ((AddressSpace.fromPaddr root).mapAlloc vaddr size flags)
          (recording state)) ↔
      NoPageSizeBit state.memory root (rangePages vaddr size) ∧
        Supplies state.allocator
          (framesNeeded state.memory root (rangePages vaddr size)) := by
  have onPage : ∀ page ∈ rangePages vaddr size, page % 0x1000 = 0 :=
    rangePages_onPage aligned
  have ready : MapReady ledger.recorder (recording state) := ⟨wf, tables⟩
  have succeeds : (run handler (Program.forEach (rangePages vaddr size)
      (mapFrame root flags)) (recording state)).1 = .ok () ↔ _ := loop_ok_iff ready onPage
  rw [supplies_recorder, recording_memory, recording_inner] at succeeds
  rw [← succeeds, run_mapAlloc flags (recording state) bounded]
  rcases finished : run handler (Program.forEach (rangePages vaddr size)
      (mapFrame root flags)) (recording state) with ⟨⟨⟩ | error | _, after⟩
  · refine iff_of_true ?_ rfl
    intro page member
    exact mapsPage_of_loop_ok ready onPage finished page (.inl member)
  · refine iff_of_false ?_ (by simp)
    rintro ⟨-, -, same⟩
    obtain ⟨frame, notBefore, leaked⟩ := loop_err_leaks ready onPage finished
    exact notBefore (same ▸ leaked)
  · exact iff_of_false (fun impossible => impossible) (by simp)

end AllOrNothing

theorem emptySpace_tables (script : List (Option Nat)) (outstanding : Set Nat) :
    TablesOutstanding (emptySpace script).memory 0x1000 outstanding := by
  intro i _ table
  simp [emptySpace, PTEntry.isTable] at table

/-- With a frame for the page and one for its table, a page is mapped. -/
theorem mapAlloc_all_or_nothing_two_frames :
    AllOrNothing (scriptedLedger 0x1000) (emptySpace [some 0x2000, some 0x3000]) 0x5000
      0x1000 .readWrite
      (run handler ((AddressSpace.fromPaddr 0x1000).mapAlloc 0x5000 0x1000 .readWrite)
        (recording (emptySpace [some 0x2000, some 0x3000]))) := by
  have pages : rangePages 0x5000 0x1000 = [0x5000] := by decide
  have needed : framesNeeded (emptySpace [some 0x2000, some 0x3000]).memory 0x1000
      [0x5000] = 2 := by decide +kernel
  refine (mapAlloc_all_or_nothing_iff (scriptedLedger 0x1000) _ .readWrite
    (emptySpace_wellFormed _ (by decide)) (emptySpace_tables _ _) (by decide)
    (by decide)).mpr ⟨?_, ?_⟩
  · intro page _
    exact congrArg PTEFlags.ps PTEntry.flags_NULL
  · rw [pages, needed]
    exact ⟨0x2000, ⟨[some 0x3000], [0x2000]⟩, by decide, 0x3000, ⟨[], [0x3000, 0x2000]⟩,
      by decide, trivial⟩

/-- Without a frame for the page, `map_alloc` panics; with one for the page but none for
its table, it returns an error and the first frame is lost. -/
theorem mapAlloc_panics_without_frame :
    WellFormed (emptySpace []).memory 0x1000 ∧
    ¬AllOrNothing (scriptedLedger 0x1000) (emptySpace []) 0x5000 0x1000 .readWrite
      (run handler ((AddressSpace.fromPaddr 0x1000).mapAlloc 0x5000 0x1000 .readWrite)
        (recording (emptySpace []))) ∧
    ¬AllOrNothing (scriptedLedger 0x1000) (emptySpace [some 0x2000]) 0x5000 0x1000
      .readWrite
      (run handler ((AddressSpace.fromPaddr 0x1000).mapAlloc 0x5000 0x1000 .readWrite)
        (recording (emptySpace [some 0x2000]))) := by
  refine ⟨emptySpace_wellFormed _ (by decide), ?_, ?_⟩
  · have panicked : (run handler ((AddressSpace.fromPaddr 0x1000).mapAlloc 0x5000 0x1000
        .readWrite) (recording (emptySpace []))).1 = .panic := by decide +kernel
    generalize run handler ((AddressSpace.fromPaddr 0x1000).mapAlloc 0x5000 0x1000
      .readWrite) (recording (emptySpace [])) = finished at panicked ⊢
    obtain ⟨outcome, after⟩ := finished
    subst panicked
    exact fun impossible => impossible
  · have failed : (run handler ((AddressSpace.fromPaddr 0x1000).mapAlloc 0x5000 0x1000
        .readWrite) (recording (emptySpace [some 0x2000]))).1 =
          .err .pageAllocationFailed := by decide +kernel
    have lost : (run handler ((AddressSpace.fromPaddr 0x1000).mapAlloc 0x5000 0x1000
        .readWrite) (recording (emptySpace [some 0x2000]))).2.allocator.inner.outstanding =
          [0x2000] := by decide +kernel
    generalize run handler ((AddressSpace.fromPaddr 0x1000).mapAlloc 0x5000 0x1000
      .readWrite) (recording (emptySpace [some 0x2000])) = finished at failed lost ⊢
    obtain ⟨outcome, after⟩ := finished
    subst failed
    rintro ⟨-, -, same⟩
    have leaked : 0x2000 ∈ (scriptedLedger 0x1000).outstanding after.allocator.inner := by
      change 0x2000 ∈ after.allocator.inner.outstanding
      simp only at lost
      simp [lost]
    rw [same] at leaked
    simp [scriptedLedger, emptySpace] at leaked

end SatanKernel.X86
