import SatanKernel.X86.SetupPaging

/-!
# The test of paging

The last part of `setup_paging` maps a page, writes to it and reads it back, unmaps it and
reads it once more.  With two frames to hand out the test ends in a page fault, and all
that it printed is known; with fewer it panics.
-/

namespace SatanKernel.X86

open Lib NestedPageTableLevel
open Lib.Program (run)
open SetupPaging (testPage)

/-- The first word of the page. -/
def testWord : WordAddress := ⟨testPage, by decide, by decide⟩

/-- What the test prints before it maps the page. -/
def totalText (total : Nat) : String := "Total memory: " ++ toString total ++ "\n"

/-- What the test prints after that. -/
def testTexts : List String :=
  ["Mapped!\n", "Allocated memory: 8192\n", "Wrote!\n", "Testing page mapping: 42\n",
    "Allocated memory after freeing: 0\n",
    "Testing page unmapping (You should see a page fault):\n"]

section Operations

variable {B E : Type} {construct : E → Nat → Nat → Option B × E} {buddy : BuddyAlloc B}
  {root : Nat} {state : SetupState buddy E}

namespace SetupState

/-- The state with other memory and allocator, after texts have been printed. -/
def become (state : SetupState buddy E) (space : State (PageAllocator buddy))
    (texts : List String) : SetupState buddy E :=
  { state with space, printed := state.printed ++ texts }

@[simp] theorem become_space (space : State (PageAllocator buddy)) (texts : List String) :
    (state.become space texts).space = space := rfl

@[simp] theorem become_withTexts (space : State (PageAllocator buddy))
    (texts more : List String) :
    (state.become space texts).withTexts more = state.become space (texts ++ more) := by
  simp only [become, withTexts, List.append_assoc]

theorem become_self : state.become state.space [] = state := by
  rw [become, List.append_nil]

end SetupState

variable (state) {space : State (PageAllocator buddy)} (texts : List String)

theorem run_totalMemory_op {total : Nat} {zones : List (Zone B)}
    (counted : run (buddyHandler buddy)
      (ZonedBuddy.totalMemory (space.allocator.zones.map Zone.bounds)) space.allocator.zones =
        (.ok total, zones)) :
    run (ε := Fault) (setupHandler construct root) (.call .totalMemory .ret)
        (state.become space texts) = (.ok total, state.become space texts) := by
  rw [Program.run_call, setupHandler, SetupState.become_space, counted]
  rfl

theorem run_allocatedMemory_op {allocated : Nat} {zones : List (Zone B)}
    (counted : run (buddyHandler buddy)
      (ZonedBuddy.allocatedMemory (space.allocator.zones.map Zone.bounds))
      space.allocator.zones = (.ok allocated, zones)) :
    run (ε := Fault) (setupHandler construct root) (.call .allocatedMemory .ret)
        (state.become space texts) = (.ok allocated, state.become space texts) := by
  rw [Program.run_call, setupHandler, SetupState.become_space, counted]
  rfl

theorem run_println (text : String) :
    run (setupHandler construct root) (SetupPaging.println text) (state.become space texts) =
      (.ok (), state.become space (texts ++ [text ++ "\n"])) := by
  rw [← SetupState.become_withTexts]
  rfl

section Access

variable {address : Nat} {place : WordAddress} (isPlace : wordAddress address = some place)
include isPlace

theorem run_write {word : Word} {memory : Memory}
    (stored : storeWord root kernelAccess place word space.memory = (.stored, memory)) :
    run (setupHandler construct root) (SetupPaging.write address word)
        (state.become space texts) =
      (.ok (), state.become { space with memory } texts) := by
  rw [SetupPaging.write, Program.run_bind, Program.run_call, setupHandler, isPlace,
    Option.map_some, SetupState.become_space, stored]
  rfl

theorem run_read {word : Word}
    (loaded : loadWord root kernelAccess place space.memory = .loaded word) :
    run (setupHandler construct root) (SetupPaging.read address) (state.become space texts) =
      (.ok word, state.become space texts) := by
  rw [SetupPaging.read, Program.run_bind, Program.run_call, setupHandler, isPlace,
    Option.map_some, SetupState.become_space, loaded]
  rfl

theorem run_read_fault
    (faults : loadWord root kernelAccess place space.memory = .pageFault) :
    run (setupHandler construct root) (SetupPaging.read address) (state.become space texts) =
      (.err (.pageFault address 0), state.become space texts) := by
  rw [SetupPaging.read, Program.run_bind, Program.run_call, setupHandler, isPlace,
    Option.map_some, SetupState.become_space, faults]
  rfl

end Access

theorem run_mapAlloc_op (vaddr size : Nat) (flags : MappingFlags) :
    run (ε := Fault) (setupHandler construct root) (.call (.mapAlloc root vaddr size flags) .ret)
        (state.become space texts) =
      match resultOf (run handler ((AddressSpace.fromPaddr root).mapAlloc vaddr size flags)
        space) with
      | some (answer, after) => (.ok answer, state.become after texts)
      | none => (.panic, state.become space texts) := by
  rw [Program.run_call, setupHandler, SetupState.become_space]
  cases resultOf (run handler ((AddressSpace.fromPaddr root).mapAlloc vaddr size flags) space) <;>
    rfl

theorem run_unmapFree_op (vaddr size : Nat) :
    run (ε := Fault) (setupHandler construct root) (.call (.unmapFree root vaddr size) .ret)
        (state.become space texts) =
      match resultOf (run handler ((AddressSpace.fromPaddr root).unmapFree vaddr size) space) with
      | some (answer, after) => (.ok answer, state.become after texts)
      | none => (.panic, state.become space texts) := by
  rw [Program.run_call, setupHandler, SetupState.become_space]
  cases resultOf (run handler ((AddressSpace.fromPaddr root).unmapFree vaddr size) space) <;> rfl

end Operations

section SelfTest

variable {B E : Type} {construct : E → Nat → Nat → Option B × E} {buddy : BuddyAlloc B}
  {spec : BuddySpec (2 ^ 12) buddy} {ranges : List Bounds} {withheld : Set Nat} {root : Nat}

/-- The test can start: the region of its page is empty, and no table is in memory that the
allocator hands out. -/
structure TestReady (spec : BuddySpec (2 ^ 12) buddy) (ranges : List Bounds) (withheld : Set Nat)
    (root : Nat) (space : State (PageAllocator buddy)) : Prop where
  wf : WellFormed space.memory root
  empty : space.memory root (dirIndex testPage) = .NULL
  tables : ∀ frame, IsTableFrame space.memory root frame → frame ∈ withheld
  zones : FrameZones spec ranges [] [] space.allocator

/-- The page is mapped to a frame of its own, through a table of its own. -/
structure TestMapped (spec : BuddySpec (2 ^ 12) buddy) (ranges : List Bounds) (root : Nat)
    (table frame : Block) (space : State (PageAllocator buddy)) : Prop where
  one : OnePageTable space.memory root testPage table.addr frame.addr .readWrite
  frame_ne_root : frame.addr ≠ root
  frame_ne_table : frame.addr ≠ table.addr
  zones : FrameZones spec ranges [] [table, frame] space.allocator

variable {space : State (PageAllocator buddy)}

theorem wordAddress_testPage : wordAddress testPage = some testWord := by decide

/-- `map_alloc` of the page succeeds with two frames. -/
theorem TestReady.run_mapAlloc (places : PlacesBlocks spec)
    (grantable : Grantable ranges [] withheld)
    (ready : TestReady spec ranges withheld root space) (supplies : Supplies space.allocator 2) :
    ∃ mapped table frame,
      run handler ((AddressSpace.fromPaddr root).mapAlloc testPage 0x1000 .readWrite) space =
          (.ok testPage, mapped) ∧
        TestMapped spec ranges root table frame mapped := by
  obtain ⟨frame, middle, first, more⟩ := supplies
  obtain ⟨table, after, second, -⟩ := more
  have firstAnswer : (space.allocator.alloc 0x1000).1 = some frame := congrArg Prod.fst first
  obtain ⟨⟨frameAligned, frameBounded, -, frameFree, -⟩, frameBlock, rfl, oneFrame⟩ :=
    ready.zones.alloc_some places grantable firstAnswer
  have firstZones : (space.allocator.alloc 0x1000).2 = middle := congrArg Prod.snd first
  rw [firstZones] at oneFrame
  have secondAnswer : (middle.alloc 0x1000).1 = some table := congrArg Prod.fst second
  obtain ⟨⟨tableAligned, tableBounded, -, tableFree, different⟩, tableBlock, rfl, twoFrames⟩ :=
    oneFrame.alloc_some places grantable secondAnswer
  have secondZones : (middle.alloc 0x1000).2 = after := congrArg Prod.snd second
  rw [secondZones] at twoFrames
  have fresh : FreshFrame space.memory root tableBlock.addr :=
    ⟨tableAligned, tableBounded, fun isTable => tableFree (ready.tables _ isTable)⟩
  refine ⟨_, tableBlock, frameBlock, run_mapAlloc_page ready.wf (by rw [ready.empty]; rfl)
    (by rw [ready.empty]; rfl) (by decide) (by decide) first second fresh,
    onePageTable_mappedPage ready.wf fresh frameAligned frameBounded, ?_, ?_, twoFrames⟩
  · intro same
    exact frameFree (ready.tables _ (.inl same))
  · intro same
    exact different ⟨frameBlock, List.mem_singleton_self _, same⟩

/-- Without two frames it fails, or panics. -/
theorem TestReady.run_mapAlloc_fails (ready : TestReady spec ranges withheld root space)
    (exhausted : ¬Supplies space.allocator 2) :
    ∃ after,
      run handler ((AddressSpace.fromPaddr root).mapAlloc testPage 0x1000 .readWrite) space =
          (.err .pageAllocationFailed, after) ∨
      run handler ((AddressSpace.fromPaddr root).mapAlloc testPage 0x1000 .readWrite) space =
          (.panic, after) := by
  rcases first : PageAllocatorTrait.alloc space.allocator PageSize.size4K with ⟨_ | frame, middle⟩
  · exact ⟨_, .inr (run_mapAlloc_page_noFrame (by decide) first)⟩
  · rcases second : PageAllocatorTrait.alloc middle PageSize.size4K with ⟨_ | table, after⟩
    · exact ⟨_, .inl (run_mapAlloc_page_noTable ready.wf (by rw [ready.empty]; rfl) (by decide)
        (by decide) first second)⟩
    · exact absurd ⟨frame, middle, first, table, after, second, trivial⟩ exhausted

namespace TestMapped

variable {table frame : Block}

/-- The page is at the start of its frame. -/
theorem walk_testPage (page : TestMapped spec ranges root table frame space) :
    walk space.memory root testPage =
      some ⟨frame.addr, .ofMapping .readWrite, false, true⟩ :=
  page.one.walk_eq rfl rfl

/-- A store to the page does not change how it is mapped. -/
theorem store (page : TestMapped spec ranges root table frame space) (word : Word) :
    TestMapped spec ranges root table frame
      { space with memory := space.memory.writeWord frame.addr word } where
  one := by
    have onFrame : frame.addr / 0x1000 * 0x1000 = frame.addr :=
      Nat.div_mul_cancel (Nat.dvd_of_mod_eq_zero page.one.frame_aligned)
    apply page.one.congr
    · rw [Memory.writeWord, onFrame]
      exact funext (Memory.write_of_frame_ne _ _ _ (Ne.symm page.frame_ne_root))
    · rw [Memory.writeWord, onFrame]
      exact funext (Memory.write_of_frame_ne _ _ _ (Ne.symm page.frame_ne_table))
  frame_ne_root := page.frame_ne_root
  frame_ne_table := page.frame_ne_table
  zones := page.zones

/-- A word is written to the page. -/
theorem run_write (page : TestMapped spec ranges root table frame space)
    (construct : E → Nat → Nat → Option B × E) (state : SetupState buddy E) (word : Word) :
    ∃ written, (∀ texts, run (setupHandler construct root) (SetupPaging.write testPage word)
          (state.become space texts) = (.ok (), state.become written texts)) ∧
        TestMapped spec ranges root table frame written ∧
        written.memory.wordAt frame.addr = word := by
  have walked : walk space.memory root testWord.addr = _ := page.walk_testPage
  have stored : storeWord root kernelAccess testWord word space.memory =
      (.stored, space.memory.writeWord frame.addr word) := by
    rw [storeWord, walked]
    rfl
  exact ⟨_, fun texts => X86.run_write state texts wordAddress_testPage stored, page.store word,
    Memory.wordAt_writeWord _ _ _⟩

/-- The page is read. -/
theorem run_read (page : TestMapped spec ranges root table frame space)
    (state : SetupState buddy E) (texts : List String) :
    run (setupHandler construct root) (SetupPaging.read testPage) (state.become space texts) =
      (.ok (space.memory.wordAt frame.addr), state.become space texts) := by
  have walked : walk space.memory root testWord.addr = _ := page.walk_testPage
  have loaded : loadWord root kernelAccess testWord space.memory =
      .loaded (space.memory.wordAt frame.addr) := by
    rw [loadWord, walked]
    rfl
  exact X86.run_read state texts wordAddress_testPage loaded

/-- `unmap_free` gives both frames back, and the page is gone. -/
theorem run_unmapFree (page : TestMapped spec ranges root table frame space) :
    ∃ unmapped,
      run handler ((AddressSpace.fromPaddr root).unmapFree testPage 4096) space =
          (.ok (), unmapped) ∧
        walk unmapped.memory root testPage = none ∧
        FrameZones spec ranges [] [] unmapped.allocator := by
  obtain ⟨succeeded, freed, directory⟩ :=
    page.one.unmapEffect_page rfl rfl (by decide) (by decide)
  have ran : run handler ((AddressSpace.fromPaddr root).unmapFree testPage 4096) space = _ :=
    X86.run_unmapFree space page.one.wf (by decide)
  rw [Effect.apply, succeeded, freed] at ran
  refine ⟨_, ran, ?_, ?_⟩
  · apply walk_of_not_present
    dsimp only
    rw [directory]
    decide
  · have different : table ≠ frame := fun same =>
      page.frame_ne_table (congrArg Block.addr same.symm)
    have pageFreed := page.zones.free (List.mem_cons_of_mem _ (List.mem_singleton_self frame))
    rw [List.erase_cons_tail (by simpa using different), List.erase_cons_head] at pageFreed
    have tableFreed := pageFreed.free (List.mem_singleton_self table)
    rwa [List.erase_cons_head] at tableFreed

end TestMapped

/-! ## The whole test -/

/-- The test with two frames to hand out. -/
theorem TestReady.run_selfTest (places : PlacesBlocks spec)
    (grantable : Grantable ranges [] withheld)
    (ready : TestReady spec ranges withheld root space) (enough : Supplies space.allocator 2)
    (construct : E → Nat → Nat → Option B × E) (state : SetupState buddy E) :
    ∃ after, run (setupHandler construct root) (SetupPaging.selfTest root)
          (state.become space []) =
        (.err (.pageFault testPage 0), state.become after
          (totalText (space.allocator.zones.map Zone.size).sum :: testTexts)) ∧
      FrameZones spec ranges [] [] after.allocator := by
  have counted : run (buddyHandler buddy) _ space.allocator.zones = _ :=
    run_totalMemory ready.zones.sound.zones.layout
  obtain ⟨mapped, table, frame, ran, page⟩ := ready.run_mapAlloc places grantable enough
  obtain ⟨written, wrote, writtenPage, word⟩ := page.run_write construct state 42
  obtain ⟨unmapped, ranUnmap, gone, zones⟩ := writtenPage.run_unmapFree
  have faults : loadWord root kernelAccess testWord unmapped.memory = .pageFault := by
    have walked : walk unmapped.memory root testWord.addr = none := gone
    rw [loadWord, walked]
  refine ⟨unmapped, ?_, zones⟩
  have both : run (buddyHandler buddy)
      (ZonedBuddy.allocatedMemory (mapped.allocator.zones.map Zone.bounds))
      mapped.allocator.zones = (.ok 8192, mapped.allocator.zones) := page.zones.allocatedMemory
  have none : run (buddyHandler buddy)
      (ZonedBuddy.allocatedMemory (unmapped.allocator.zones.map Zone.bounds))
      unmapped.allocator.zones = (.ok 0, unmapped.allocator.zones) := zones.allocatedMemory
  have pageSize : PageSizeTrait.into (PageSizeTrait.MIN : PageSize) = 0x1000 := rfl
  rw [SetupPaging.selfTest, Program.run_bind, run_totalMemory_op _ _ counted,
    Outcome.andThen_ok, Program.run_bind, run_println, Outcome.andThen_ok,
    Program.run_bind, run_mapAlloc_op, pageSize, ran]
  simp only [resultOf, Outcome.andThen_ok]
  rw [Program.run_bind, SetupPaging.unwrapResult, Program.run_ret, Outcome.andThen_ok]
  rw [Program.run_bind, run_println, Outcome.andThen_ok]
  rw [Program.run_bind, run_allocatedMemory_op _ _ both, Outcome.andThen_ok]
  rw [Program.run_bind, run_println, Outcome.andThen_ok]
  rw [Program.run_bind, wrote, Outcome.andThen_ok]
  rw [Program.run_bind, run_println, Outcome.andThen_ok]
  rw [Program.run_bind, writtenPage.run_read, Outcome.andThen_ok, word]
  rw [Program.run_bind, run_println, Outcome.andThen_ok]
  rw [Program.run_bind, run_unmapFree_op, ranUnmap]
  simp only [resultOf, Outcome.andThen_ok]
  rw [Program.run_bind, SetupPaging.unwrapResult, Program.run_ret, Outcome.andThen_ok]
  rw [Program.run_bind, run_allocatedMemory_op _ _ none, Outcome.andThen_ok]
  rw [Program.run_bind, run_println, Outcome.andThen_ok]
  rw [Program.run_bind, run_println, Outcome.andThen_ok]
  rw [Program.run_bind, run_read_fault _ _ wordAddress_testPage faults, Outcome.andThen_err]
  rfl

/-- The test with fewer frames. -/
theorem TestReady.run_selfTest_exhausted (ready : TestReady spec ranges withheld root space)
    (few : ¬Supplies space.allocator 2) (construct : E → Nat → Nat → Option B × E)
    (state : SetupState buddy E) :
    ∃ after, run (setupHandler construct root) (SetupPaging.selfTest root)
        (state.become space []) =
      (.panic, state.become after [totalText (space.allocator.zones.map Zone.size).sum]) := by
  have counted : run (buddyHandler buddy) _ space.allocator.zones = _ :=
    run_totalMemory ready.zones.sound.zones.layout
  have pageSize : PageSizeTrait.into (PageSizeTrait.MIN : PageSize) = 0x1000 := rfl
  obtain ⟨after, failed | panicked⟩ := ready.run_mapAlloc_fails few
  · refine ⟨after, ?_⟩
    rw [SetupPaging.selfTest, Program.run_bind, run_totalMemory_op _ _ counted,
      Outcome.andThen_ok, Program.run_bind, run_println, Outcome.andThen_ok,
      Program.run_bind, run_mapAlloc_op, pageSize, failed]
    rfl
  · refine ⟨space, ?_⟩
    rw [SetupPaging.selfTest, Program.run_bind, run_totalMemory_op _ _ counted,
      Outcome.andThen_ok, Program.run_bind, run_println, Outcome.andThen_ok,
      Program.run_bind, run_mapAlloc_op, pageSize, panicked]
    rfl

end SelfTest

/-! ## The page tables of the boot code -/

section Boot

variable {symbols : Symbols} {machine : Machine}

theorem Symbols.Linked.offset_le_tables (linked : symbols.Linked) :
    kernelOffset ≤ symbols.kernelTopLevelPageTable := by
  have above := linked.offset_le_start
  have data := linked.start_lt_data
  have tables := linked.data_le_tables
  simp only [kernelOffset] at *
  omega

theorem Symbols.Linked.offset_le_end (linked : symbols.Linked) :
    kernelOffset ≤ symbols.kernelEnd := by
  have above := linked.offset_le_start
  have data := linked.start_lt_data
  have dataEnd := linked.data_lt_end
  simp only [kernelOffset] at *
  omega

/-- Where the page tables of the boot code are. -/
def tableMemory (symbols : Symbols) : Set Nat := Set.Ico (rootOf symbols) (rootOf symbols + 0x4000)

/-- The tables in the directory. -/
theorem Built.directory_table (linked : symbols.Linked)
    (built : Built (rootOf symbols) (slotOf symbols) (bootEntries symbols) machine) {i : Nat}
    (inside : i < 0x400) (isTable : (pageTables machine.memory (rootOf symbols) i).isTable = true) :
    ∃ table, (i = 0 ∧ table = 1 ∨ i = 768 ∧ table = 2 ∨ i = 769 ∧ table = 3) ∧
      pageTables machine.memory (rootOf symbols) i =
        .newPageTable (rootOf symbols + 0x1000 * table) := by
  obtain ⟨aligned, away, fits⟩ := linked.bounds
  have entry : pageTables machine.memory (rootOf symbols) i = _ := built.entry rfl (by omega)
  rw [bootEntries_directory symbols inside] at entry
  rw [entry] at isTable ⊢
  split at isTable
  next last =>
    exact ⟨3, .inr (.inr ⟨last, rfl⟩), by
      rw [if_pos last, ← entry_of_table (by omega) (by omega)]⟩
  next notLast =>
    rw [if_neg notLast]
    split at isTable
    next first => exact ⟨2, .inr (.inl ⟨first, rfl⟩), by
      rw [if_pos first, ← entry_of_table (by omega) (by omega)]⟩
    next notFirst =>
      rw [if_neg notFirst]
      split at isTable
      next large => exact absurd isTable (by decide)
      next small =>
        rw [if_neg small]
        split at isTable
        next lower => exact ⟨1, .inl ⟨lower, rfl⟩, by
          rw [if_pos lower, ← entry_of_table (by omega) (by omega)]⟩
        next none => exact absurd isTable (by decide)

/-- The tables and the directory are in the memory of the tables. -/
theorem Built.tableFrame_mem (linked : symbols.Linked)
    (built : Built (rootOf symbols) (slotOf symbols) (bootEntries symbols) machine) {frame : Nat}
    (isTable : IsTableFrame (pageTables machine.memory) (rootOf symbols) frame) :
    frame ∈ tableMemory symbols := by
  obtain ⟨aligned, away, fits⟩ := linked.bounds
  rw [tableMemory, Set.mem_Ico]
  rcases isTable with isRoot | ⟨i, inside, isTable, isFrame⟩
  · omega
  · rw [← isFrame]
    obtain ⟨table, position, entry⟩ := built.directory_table linked inside isTable
    rw [entry, newPageTable_frame (by omega) (by omega)]
    omega

theorem Built.wellFormed (linked : symbols.Linked)
    (built : Built (rootOf symbols) (slotOf symbols) (bootEntries symbols) machine) :
    WellFormed (pageTables machine.memory) (rootOf symbols) := by
  obtain ⟨aligned, away, fits⟩ := linked.bounds
  constructor
  · exact aligned
  · intro i inside isTable
    obtain ⟨table, position, entry⟩ := built.directory_table linked inside isTable
    rw [entry, newPageTable_address (by omega) (by omega)]
    omega
  · intro i inside isTable
    obtain ⟨table, position, entry⟩ := built.directory_table linked inside isTable
    rw [entry, newPageTable_frame (by omega) (by omega)]
    omega
  · intro i insideLeft j insideRight leftTable rightTable same
    obtain ⟨left, leftAt, leftEntry⟩ := built.directory_table linked insideLeft leftTable
    obtain ⟨right, rightAt, rightEntry⟩ := built.directory_table linked insideRight rightTable
    rw [leftEntry, rightEntry, newPageTable_frame (by omega) (by omega),
      newPageTable_frame (by omega) (by omega)] at same
    omega

/-- The region of the test is not mapped by the boot code. -/
theorem Built.testPage_empty
    (built : Built (rootOf symbols) (slotOf symbols) (bootEntries symbols) machine) :
    pageTables machine.memory (rootOf symbols) (dirIndex testPage) = .NULL := by
  have entry : pageTables machine.memory (rootOf symbols) (dirIndex testPage) = _ :=
    built.entry rfl (by decide)
  have region : dirIndex testPage = 770 := by decide
  rw [entry, region, bootEntries_directory symbols (by decide)]
  rfl

end Boot

/-! ## `setup_paging` on the tables of the boot code -/

section Setup

variable {B E : Type} {construct : E → Nat → Nat → Option B × E} {buddy : BuddyAlloc B}
  {spec : BuddySpec (2 ^ 12) buddy} {symbols : Symbols} {areas : List MemoryArea}

/-- The ranges that the loop over the memory map hands to `add_zone`, the last one first. -/
def loopRanges (symbols : Symbols) (areas : List MemoryArea) : List Bounds :=
  ((reachedAreas (physicalEnd symbols) areas).filterMap (addedRange (physicalEnd symbols))).reverse

/-- The zones that the loop leaves. -/
def loopZones (construct : E → Nat → Nat → Option B × E) (environment : E) (symbols : Symbols)
    (areas : List MemoryArea) : ZoneState B E :=
  (run (zoneHandler construct) (addAreas (physicalEnd symbols) areas) ⟨[], environment⟩).2

theorem mem_loopRanges {range : Bounds} (member : range ∈ loopRanges symbols areas) :
    ∃ area ∈ reachedAreas (physicalEnd symbols) areas,
      range.bytes = contribution (physicalEnd symbols) area := by
  rw [loopRanges, List.mem_reverse] at member
  obtain ⟨area, reached, added⟩ := List.mem_filterMap.mp member
  exact ⟨area, reached, addedRange_bytes added⟩

theorem loopRanges_apart (disjoint : AvailableDisjoint areas)
    (harmless : HighAreasHarmless (physicalEnd symbols) areas) :
    (loopRanges symbols areas).Pairwise fun left right => Disjoint left.bytes right.bytes := by
  have apart := contributions_apart disjoint harmless
  rw [List.pairwise_map] at apart
  rw [loopRanges, List.pairwise_reverse, List.pairwise_filterMap]
  apply apart.imp
  intro left right separate leftRange leftAdded rightRange rightAdded
  rw [addedRange_bytes leftAdded, addedRange_bytes rightAdded]
  exact separate.symm

/-- The kernel and its tables are below the memory that the allocator gets. -/
theorem loopRanges_grantable (linked : symbols.Linked) (areas : List MemoryArea) :
    Grantable (loopRanges symbols areas) [] (tableMemory symbols) := by
  have above : ∀ range ∈ loopRanges symbols areas, ∀ byte ∈ range.bytes,
      rootOf symbols + 0x4000 ≤ byte := by
    intro range member byte inside
    obtain ⟨area, -, bytes⟩ := mem_loopRanges member
    rw [bytes] at inside
    have behind := contribution_aboveKernel inside
    obtain ⟨aligned, away, fits⟩ := linked.bounds
    have stackEnd := linked.stack_le_end
    rw [physicalEnd] at behind
    rw [slotOf] at away
    omega
  constructor
  · intro range member inside
    have := above range member 0 inside
    omega
  · intro frame inTables
    refine .inr fun range member inside => ?_
    have behind := above range member frame inside
    rw [tableMemory, Set.mem_Ico] at inTables
    omega

theorem loop_history (linked : symbols.Linked) (constructs : Constructs construct spec)
    (places : PlacesBlocks spec) (disjoint : AvailableDisjoint areas)
    (harmless : HighAreasHarmless (physicalEnd symbols) areas) (environment : E) :
    ZonedHistory construct spec (loopRanges symbols areas) [] (tableMemory symbols)
      (loopZones construct environment symbols areas) where
  constructs := constructs
  places := places
  reached := by
    have start : Reached construct buddy (2 ^ 12) [] [] ⟨[], environment⟩ := .new environment
    have reached : Reached construct buddy (2 ^ 12) (loopRanges symbols areas ++ []) []
        (loopZones construct environment symbols areas) := reached_addAreas construct areas start
    rwa [List.append_nil] at reached
  apart := loopRanges_apart disjoint harmless
  grantable := loopRanges_grantable linked areas

/-- The memory that the loop takes from the areas. -/
def addedMemory (kernelPhysicalEnd : Nat) (areas : List MemoryArea) : Set Nat :=
  {byte | ∃ area ∈ reachedAreas kernelPhysicalEnd areas,
    byte ∈ contribution kernelPhysicalEnd area}

/-- The total size of the zones is the number of bytes that the loop takes. -/
theorem sum_loopZones (disjoint : AvailableDisjoint areas)
    (harmless : HighAreasHarmless (physicalEnd symbols) areas)
    (succeeds : ¬ConstructionFails construct) (environment : E) :
    ((loopZones construct environment symbols areas).zones.map Zone.size).sum =
      (addedMemory (physicalEnd symbols) areas).ncard := by
  obtain ⟨added, zones, fills⟩ :=
    run_addAreas construct (physicalEnd symbols) areas ⟨[], environment⟩
  have apart := pairwise_flatten_of_fills fills (contributions_apart disjoint harmless)
  rw [loopZones, zones, List.nil_append]
  obtain ⟨positions, card, mem⟩ := exists_card_eq_sum apart
  rw [← card, ← Set.ncard_coe_finset]
  congr 1
  ext byte
  rw [Finset.mem_coe, mem]
  constructor
  · rintro ⟨zone, member, inside⟩
    obtain ⟨target, inTargets, subset⟩ := exists_target_of_fills fills member
    obtain ⟨area, reached, rfl⟩ := List.mem_map.mp inTargets
    exact ⟨area, reached, subset inside⟩
  · rintro ⟨area, reached, inside⟩
    exact exists_zone_of_fills fills succeeds (List.mem_map_of_mem reached) inside

/-- What is known once the loop has gone over the whole memory map: how many lines about
failures it printed, and how much memory the allocator has. -/
structure LoopDone (construct : E → Nat → Nat → Option B × E) (environment : E)
    (symbols : Symbols) (areas : List MemoryArea) (failures total : Nat) : Prop where
  reached : ∀ area ∈ areas, ¬startOverflows (physicalEnd symbols) area
  failures_le : failures ≤ areas.length
  total_eq : total = ((loopZones construct environment symbols areas).zones.map Zone.size).sum
  exact : ¬ConstructionFails construct →
    failures = 0 ∧ total = (addedMemory (physicalEnd symbols) areas).ncard

/-- The allocator that the loop leaves. -/
def loopAllocator (construct : E → Nat → Nat → Option B × E) (buddy : BuddyAlloc B)
    (environment : E) (symbols : Symbols) (areas : List MemoryArea) : PageAllocator buddy :=
  ⟨(loopZones construct environment symbols areas).zones, false⟩

/-- The end of `setup_paging`, with all that was printed. -/
inductive SetupEnding (construct : E → Nat → Nat → Option B × E) (spec : BuddySpec (2 ^ 12) buddy)
    (environment : E) (symbols : Symbols) (areas : List MemoryArea) :
    Outcome Fault Unit × SetupState buddy E → Prop where
  | overflowed (after : SetupState buddy E)
      (overflows : ∃ area ∈ areas, startOverflows (physicalEnd symbols) area) :
      SetupEnding construct spec environment symbols areas (.panic, after)
  | exhausted (after : SetupState buddy E) (failures total : Nat)
      (done : LoopDone construct environment symbols areas failures total)
      (few : ¬Supplies (loopAllocator construct buddy environment symbols areas) 2)
      (printed : after.printed = List.replicate failures failureText ++ [totalText total]) :
      SetupEnding construct spec environment symbols areas (.panic, after)
  | faulted (after : SetupState buddy E) (failures total : Nat)
      (done : LoopDone construct environment symbols areas failures total)
      (enough : Supplies (loopAllocator construct buddy environment symbols areas) 2)
      (printed : after.printed =
        List.replicate failures failureText ++ totalText total :: testTexts)
      (zones : FrameZones spec (loopRanges symbols areas) [] [] after.space.allocator) :
      SetupEnding construct spec environment symbols areas (.err (.pageFault testPage 0), after)

theorem run_setupPaging (linked : symbols.Linked) (constructs : Constructs construct spec)
    (places : PlacesBlocks spec) (disjoint : AvailableDisjoint areas)
    (harmless : HighAreasHarmless (physicalEnd symbols) areas) {machine : Machine}
    (built : Built (rootOf symbols) (slotOf symbols) (bootEntries symbols) machine)
    (environment : E) :
    SetupEnding construct spec environment symbols areas
      (run (setupHandler construct (rootOf symbols))
        (SetupPaging.setupPaging symbols (some areas))
        (SetupState.start buddy (pageTables machine.memory) environment)) := by
  have tablesAbove := linked.offset_le_tables
  have endAbove := linked.offset_le_end
  have history := loop_history linked constructs places disjoint harmless environment
  obtain ⟨failures, atMost, quiet, ran⟩ := run_setupAreas construct (rootOf symbols) endAbove areas
    (SetupState.start buddy (pageTables machine.memory) environment)
  rw [SetupPaging.setupPaging, Program.run_bind, SetupPaging.kernelVirt2phys,
    run_checkedSub_of_le _ tablesAbove, Outcome.andThen_ok, Program.run_bind, Program.unwrap,
    Program.run_ret, Outcome.andThen_ok, Program.run_bind, ran]
  by_cases overflows : ∃ area ∈ areas, startOverflows (physicalEnd symbols) area
  · rw [if_pos overflows, Outcome.andThen_panic]
    exact .overflowed _ overflows
  · rw [if_neg overflows, Outcome.andThen_ok]
    generalize startEq : ((SetupState.start buddy (pageTables machine.memory)
      environment).withZones (run (zoneHandler construct) (addAreas (physicalEnd symbols) areas)
        (SetupState.start buddy (pageTables machine.memory) environment).zoneState).2).withTexts
          (List.replicate failures failureText) = state
    have allocator : state.space.allocator =
        loopAllocator construct buddy environment symbols areas := by
      rw [← startEq]
      rfl
    have printed : state.printed = List.replicate failures failureText := by
      rw [← startEq]
      rfl
    have memory : state.space.memory = pageTables machine.memory := by
      rw [← startEq]
      rfl
    have ready : TestReady spec (loopRanges symbols areas) (tableMemory symbols) (rootOf symbols)
        state.space := by
      constructor
      · rw [memory]
        exact built.wellFormed linked
      · rw [memory]
        exact built.testPage_empty
      · intro frame isTable
        rw [memory] at isTable
        exact built.tableFrame_mem linked isTable
      · rw [allocator]
        exact history.frameZones
    have done : LoopDone construct environment symbols areas failures
        (state.space.allocator.zones.map Zone.size).sum := by
      rw [allocator]
      exact ⟨fun area member overflow => overflows ⟨area, member, overflow⟩, atMost, rfl,
        fun succeeds => ⟨quiet succeeds, sum_loopZones disjoint harmless succeeds environment⟩⟩
    have unchanged := state.become_self
    change SetupEnding construct spec environment symbols areas (run (setupHandler construct
      (rootOf symbols)) (SetupPaging.selfTest (rootOf symbols)) state)
    by_cases enough : Supplies state.space.allocator 2
    · obtain ⟨after, ranTest, zones⟩ := ready.run_selfTest places history.grantable
        enough construct state
      rw [unchanged] at ranTest
      rw [ranTest]
      rw [allocator] at enough
      refine .faulted _ failures _ done enough ?_ zones
      rw [SetupState.become, printed]
    · obtain ⟨after, ranTest⟩ := ready.run_selfTest_exhausted enough construct state
      rw [unchanged] at ranTest
      rw [ranTest]
      rw [allocator] at enough
      refine .exhausted _ failures _ done enough ?_
      rw [SetupState.become, printed]

end Setup

end SatanKernel.X86
