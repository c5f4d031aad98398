import SatanKernel.Memory.ZonedPages
import SatanKernel.X86.Accounting
import SatanKernel.X86.Guarded

/-!
# Page tables over the zoned allocator

The kernel gives its address spaces the zoned allocator with blocks of 4 KiB.  This
allocator keeps its promises as long as only blocks that are outstanding are given back,
so it is a `ConditionalLedger`, and address spaces over it refine flat memories.  The
blocks of other users of the allocator stay out of the way.
-/

namespace SatanKernel.X86

open Lib
open Lib.Program (run)

/-- `PageAllocator`. -/
abbrev PageAllocator {B : Type} (buddy : BuddyAlloc B) := PageZones buddy (2 ^ 12)

section Ledger

variable {B : Type} {buddy : BuddyAlloc B}

/-- The zones while frames of 4 KiB and the blocks of other users are outstanding. -/
structure FrameZones (spec : BuddySpec (2 ^ 12) buddy) (ranges : List Bounds)
    (others frames : List Block) (allocator : PageAllocator buddy) : Prop where
  sound : PageZones.Sound spec ranges (frames ++ others) allocator
  small : ∀ block ∈ frames, block.size = 0x1000
  aligned : ∀ zone ∈ allocator.zones, zone.start % 0x1000 = 0

/-- The frames on record with the buddies that do not belong to other users. -/
def frameSet (spec : BuddySpec (2 ^ 12) buddy) (others : List Block)
    (allocator : PageAllocator buddy) : Set Nat :=
  {frame | (∃ zone ∈ allocator.zones, ∃ count, (frame, count) ∈ spec.blocks zone.buddy) ∧
    frame ∉ Block.starts others}

/-- The ranges leave out the frame at 0, which stands for no frame, and the frames that are
withheld are in blocks of other users or outside of the ranges. -/
structure Grantable (ranges : List Bounds) (others : List Block) (withheld : Set Nat) : Prop where
  nonzero : ∀ range ∈ ranges, 0 ∉ range.bytes
  withheld : ∀ frame ∈ withheld, (∃ block ∈ others, frame ∈ block.bytes) ∨
    ∀ range ∈ ranges, frame ∉ range.bytes

variable {spec : BuddySpec (2 ^ 12) buddy} {ranges : List Bounds} {others frames : List Block}
  {allocator : PageAllocator buddy} {withheld : Set Nat}

theorem wholeBlocks_page : WholeBlocks (2 ^ 12) 0x1000 := ⟨by decide, 0, by decide⟩

theorem alloc_size4K (allocator : PageAllocator buddy) :
    PageAllocatorTrait.alloc allocator PageSize.size4K = allocator.alloc 0x1000 := rfl

theorem free_size4K (allocator : PageAllocator buddy) (addr : Nat) :
    PageAllocatorTrait.free allocator addr PageSize.size4K = allocator.free addr 0x1000 := rfl

/-- Zones keep their places. -/
theorem aligned_of_bounds {zones after : List (Zone B)}
    (aligned : ∀ zone ∈ zones, zone.start % 0x1000 = 0)
    (same : after.map Zone.bounds = zones.map Zone.bounds) :
    ∀ zone ∈ after, zone.start % 0x1000 = 0 := by
  intro zone member
  have placed : zone.bounds ∈ zones.map Zone.bounds := by
    rw [← same]
    exact List.mem_map_of_mem member
  obtain ⟨before, beforeMember, boundsEq⟩ := List.mem_map.mp placed
  have startEq : before.start = zone.start := congrArg Bounds.start boundsEq
  rw [← startEq]
  exact aligned before beforeMember

namespace FrameZones

theorem frameSet_eq (zones : FrameZones spec ranges others frames allocator) :
    frameSet spec others allocator = Block.starts frames := by
  ext frame
  have disjoint : frame ∈ Block.starts frames → frame ∉ Block.starts others :=
    fun outstanding => Set.disjoint_left.mp zones.sound.apart.starts_disjoint outstanding
  have recorded : frame ∈ Block.starts (frames ++ others) ↔ _ := zones.sound.mem_starts_iff
  rw [Block.starts_append, Set.mem_union] at recorded
  rw [frameSet, Set.mem_ofPred_eq, ← recorded]
  tauto

theorem apart (zones : FrameZones spec ranges others frames allocator) : Block.Apart frames :=
  ⟨fun block member => zones.sound.apart.positive block (List.mem_append_left _ member),
    (List.pairwise_append.mp zones.sound.apart.disjoint).1⟩

theorem alloc (zones : FrameZones spec ranges others frames allocator) :
    FrameZones spec ranges others
      (Block.granted 0 0x1000 frames (askZones buddy (2 ^ 12) 0x1000 allocator.zones).1)
      (allocator.alloc 0x1000).2 where
  sound := by
    rw [← Block.granted_append]
    exact zones.sound.alloc wholeBlocks_page
  small := by
    intro block member
    cases granted : (askZones buddy (2 ^ 12) 0x1000 allocator.zones).1 with
    | none =>
        rw [granted] at member
        exact zones.small block member
    | some found =>
        rw [granted] at member
        rcases List.mem_cons.mp member with rfl | old
        · rfl
        · exact zones.small block old
  aligned := by
    rw [PageZones.alloc_eq]
    exact aligned_of_bounds zones.aligned (askZones_bounds buddy (2 ^ 12) 0x1000 _)

theorem free (zones : FrameZones spec ranges others frames allocator) {block : Block}
    (isOutstanding : block ∈ frames) :
    FrameZones spec ranges others (frames.erase block) (allocator.free block.addr 0x1000) where
  sound := by
    have freed := zones.sound.free (List.mem_append_left others isOutstanding)
    rwa [List.erase_append_left others isOutstanding, zones.small block isOutstanding] at freed
  small := fun other member => zones.small other (List.mem_of_mem_erase member)
  aligned := by
    have onRecord := List.mem_append_left others isOutstanding
    obtain ⟨zone, found, returned⟩ := zones.sound.run_free onRecord
    rw [zones.small block isOutstanding] at returned
    rw [PageZones.free, returned]
    exact aligned_of_bounds zones.aligned (bounds_set found (takeBack_bounds _ _ _))

/-- `allocated_memory` counts the frames and the blocks of other users. -/
theorem allocatedMemory (zones : FrameZones spec ranges others frames allocator) :
    run (buddyHandler buddy) (ZonedBuddy.allocatedMemory (allocator.zones.map Zone.bounds))
        allocator.zones =
      (.ok (0x1000 * frames.length + (others.map Block.size).sum), allocator.zones) := by
  have sizes : frames.map Block.size = List.replicate frames.length 0x1000 := by
    rw [List.eq_replicate_iff, List.length_map]
    refine ⟨rfl, fun size member => ?_⟩
    obtain ⟨block, isFrame, rfl⟩ := List.mem_map.mp member
    exact zones.small block isFrame
  rw [zones.sound.allocatedMemory, List.map_append, List.sum_append, sizes,
    List.sum_replicate_nat, Nat.mul_comm]

/-- A frame that is outstanding lies in grantable memory. -/
theorem mem_range (zones : FrameZones spec ranges others frames allocator) {block : Block}
    (isOutstanding : block ∈ frames) :
    block.addr < 0x100000000 ∧ ∃ range ∈ ranges, block.addr ∈ range.bytes := by
  obtain ⟨zone, found, holds, -⟩ :=
    zones.sound.zones.exists_zone (List.mem_append_left others isOutstanding)
  have member : zone.bounds ∈ allocator.zones.map Zone.bounds :=
    List.mem_map_of_mem (List.mem_of_getElem? found)
  have size := zones.small block isOutstanding
  obtain ⟨after, below⟩ := holds
  constructor
  · have fits := zones.sound.zones.layout.fits _ member
    rw [usizeBits] at fits
    omega
  · obtain ⟨range, inRanges, covered⟩ := zones.sound.zones.layout.covered _ member
    refine ⟨range, inRanges, covered ⟨after, ?_⟩⟩
    exact Nat.lt_of_lt_of_le (by omega) below

/-- The frames that are handed out. -/
theorem alloc_some (places : PlacesBlocks spec) (grantable : Grantable ranges others withheld)
    (zones : FrameZones spec ranges others frames allocator) {frame : Nat}
    (answered : (allocator.alloc 0x1000).1 = some frame) :
    (frame % 0x1000 = 0 ∧ frame < 0x100000000 ∧ frame ≠ 0 ∧ frame ∉ withheld ∧
        frame ∉ Block.starts frames) ∧
      ∃ block : Block, block.addr = frame ∧
        FrameZones spec ranges others (block :: frames) (allocator.alloc 0x1000).2 := by
  have after := zones.alloc
  rw [PageZones.alloc_eq, Option.map_eq_some_iff] at answered
  obtain ⟨⟨index, addr⟩, granted, rfl⟩ := answered
  rw [granted, Block.granted] at after
  obtain ⟨bounded, range, inRanges, inside⟩ := after.mem_range List.mem_cons_self
  refine ⟨⟨?_, bounded, ?_, ?_, ?_⟩, _, rfl, after⟩
  · obtain ⟨zone, member, given⟩ := askZones_some granted
    obtain ⟨place, addrEq⟩ := places _ _ _ wholeBlocks_page.power given
    rw [zones.sound.zones.books.range zone member] at addrEq
    have aligned := zones.aligned zone member
    dsimp only at addrEq ⊢
    omega
  · rintro rfl
    exact grantable.nonzero range inRanges inside
  · intro isWithheld
    rcases grantable.withheld _ isWithheld with ⟨block, isOther, inBlock⟩ | outside
    · have disjoint := (List.pairwise_cons.mp after.sound.apart.disjoint).1 block
        (List.mem_append_right frames isOther)
      exact Set.disjoint_left.mp disjoint (Block.mem_bytes (Nat.succ_pos _)) inBlock
    · exact outside range inRanges inside
  · have fresh : addr ∉ Block.starts (frames ++ others) := after.sound.apart.not_mem_starts
    rw [Block.starts_append, Set.mem_union, not_or] at fresh
    exact fresh.1

theorem alloc_none (zones : FrameZones spec ranges others frames allocator)
    (answered : (allocator.alloc 0x1000).1 = none) :
    FrameZones spec ranges others frames (allocator.alloc 0x1000).2 := by
  have after := zones.alloc
  rw [PageZones.alloc_eq, Option.map_eq_none_iff] at answered
  rwa [answered, Block.granted] at after

end FrameZones

/-- The zoned allocator keeps its promises to the address spaces. -/
def frameLedger (places : PlacesBlocks spec) (grantable : Grantable ranges others withheld) :
    ConditionalLedger (PageAllocator buddy) withheld where
  Sound allocator := ∃ frames, FrameZones spec ranges others frames allocator
  outstanding := frameSet spec others
  alloc_sound := fun ⟨_, zones⟩ => ⟨_, zones.alloc⟩
  alloc_none := by
    rintro allocator ⟨frames, zones⟩ answered
    rw [alloc_size4K, (zones.alloc_none answered).frameSet_eq, zones.frameSet_eq]
  alloc_some := by
    rintro allocator frame ⟨frames, zones⟩ answered
    obtain ⟨promised, block, rfl, after⟩ := zones.alloc_some places grantable answered
    rw [alloc_size4K, after.frameSet_eq, zones.frameSet_eq, Block.starts_cons]
    exact ⟨promised, rfl⟩
  free_sound := by
    rintro allocator addr ⟨frames, zones⟩ owned
    rw [zones.frameSet_eq] at owned
    obtain ⟨block, member, rfl⟩ := owned
    exact ⟨_, zones.free member⟩
  free_eq := by
    rintro allocator addr ⟨frames, zones⟩ owned
    rw [zones.frameSet_eq] at owned ⊢
    obtain ⟨block, member, rfl⟩ := owned
    rw [free_size4K, (zones.free member).frameSet_eq, zones.apart.starts_erase member]

end Ledger

/-! ## Runs after a history of the allocator -/

section Runs

variable {B E : Type} {construct : E → Nat → Nat → Option B × E} {buddy : BuddyAlloc B}

/-- A history of the allocator before address spaces use it: its zones are of disjoint and
grantable ranges, and blocks of other users are outstanding. -/
structure ZonedHistory (construct : E → Nat → Nat → Option B × E)
    (spec : BuddySpec (2 ^ 12) buddy) (ranges : List Bounds) (others : List Block)
    (withheld : Set Nat) (zones : ZoneState B E) : Prop where
  constructs : Constructs construct spec
  places : PlacesBlocks spec
  reached : Reached construct buddy (2 ^ 12) ranges others zones
  apart : ranges.Pairwise fun left right => Disjoint left.bytes right.bytes
  grantable : Grantable ranges others withheld

variable {spec : BuddySpec (2 ^ 12) buddy} {ranges : List Bounds} {others : List Block}
  {withheld : Set Nat} {zones : ZoneState B E}

theorem ZonedHistory.mono {fewer : Set Nat}
    (history : ZonedHistory construct spec ranges others withheld zones)
    (subset : fewer ⊆ withheld) : ZonedHistory construct spec ranges others fewer zones :=
  { history with
    grantable := ⟨history.grantable.nonzero, fun frame member =>
      history.grantable.withheld frame (subset member)⟩ }

theorem ZonedHistory.frameZones
    (history : ZonedHistory construct spec ranges others withheld zones) :
    FrameZones spec ranges others [] ⟨zones.zones, false⟩ where
  sound := history.reached.pageZones history.constructs history.apart
  small := by simp
  aligned := history.reached.zones_aligned history.constructs

variable {ι : Type} {roots : ι → Nat} {memory : Memory} {after : State (PageAllocator buddy)}
  {labels : List (ι × Request × Response)}

/-- What holds beside the ghost of the zoned allocator at the end of a run. -/
theorem ZonedHistory.traced
    (history : ZonedHistory construct spec ranges others (Set.range roots) zones)
    (directories : EmptyDirectories roots memory)
    (trace : Trace (plainSteps roots) ⟨memory, ⟨zones.zones, false⟩⟩ labels after) :
    Shadowed (frameLedger history.places history.grantable) Set.mem_range_self after ∧
      Trace (FlatMemory.steps ι) (flatMemories roots memory) labels
        (flatMemories roots after.memory) :=
  (plainRefinement _ Set.mem_range_self).trace trace
    (directories.shadowed Set.mem_range_self ⟨[], history.frameZones⟩)

/-! ## Two address spaces over one zone -/

/-- A zone of eight frames; another user has taken the first one. -/
def oneZone : ZoneState FirstFit Unit :=
  ⟨[⟨0x10000, 0x8000, 0x1000, ⟨0x10000, 8, [(0x10000, 1)]⟩⟩], ()⟩

theorem oneZone_history : ZonedHistory FirstFit.construct
    (FirstFit.spec (2 ^ 12) fun _ => true) [⟨0x10000, 0x8000⟩] [⟨0, 0x10000, 0x1000⟩]
    (Set.range twoRoots) oneZone where
  constructs := FirstFit.constructs _ _
  places := FirstFit.placesBlocks _ _
  reached := by
    have added : Reached FirstFit.construct (FirstFit.buddy (2 ^ 12) fun _ => true) (2 ^ 12)
        [⟨0x10000, 0x8000⟩] []
        (run (zoneHandler FirstFit.construct) (addZone (2 ^ 12) 0x10000 0x8000) ⟨[], ()⟩).2 :=
      Reached.addZone (Reached.new ()) rfl rfl (by decide)
    rw [run_addZone FirstFit.construct rfl rfl (by decide)] at added
    exact Reached.allocSome added wholeBlocks_page rfl rfl
  apart := List.pairwise_singleton _ _
  grantable := by
    constructor
    · intro range member
      rw [List.mem_singleton.mp member]
      exact fun inside => absurd inside.1 (by decide)
    · rintro _ ⟨i, rfl⟩
      refine .inr fun range member => ?_
      rw [List.mem_singleton.mp member]
      exact fun inside => absurd inside.1 (by cases i <;> decide)

/-- Empty memory over the zone. -/
def oneZoneStart : State (PageAllocator (FirstFit.buddy (2 ^ 12) fun _ => true)) :=
  ⟨fun _ _ => .NULL, ⟨oneZone.zones, false⟩⟩

theorem oneZone_directories : EmptyDirectories twoRoots oneZoneStart.memory where
  aligned := by decide
  distinct := by decide
  empty _ _ _ := rfl

theorem oneZone_trace : Trace (plainSteps twoRoots) oneZoneStart twoSpacesLabels
    (serveAll twoRoots twoSpacesRequests oneZoneStart).2 := by
  have labels : (serveAll twoRoots twoSpacesRequests oneZoneStart).1 = twoSpacesLabels := by
    decide +kernel
  have served : Trace (spaceSteps twoRoots) oneZoneStart twoSpacesLabels
      (serveAll twoRoots twoSpacesRequests oneZoneStart).2 := by
    rw [← labels]
    apply trace_serveAll
    rw [labels]
    decide
  apply served.restrict
  intro label member
  simp only [twoSpacesLabels, List.mem_cons, List.not_mem_nil, or_false] at member
  rcases member with rfl | rfl | rfl | rfl | rfl
  · rfl
  · trivial
  · rfl
  · trivial
  · trivial

/-! ## What runs keep -/

/-- Address spaces over the zoned allocator refine flat memories in every run. -/
theorem zoned_spaces_refine_flat_memories
    (history : ZonedHistory construct spec ranges others (Set.range roots) zones)
    (directories : EmptyDirectories roots memory)
    (trace : Trace (plainSteps roots) ⟨memory, ⟨zones.zones, false⟩⟩ labels after) :
    Trace (FlatMemory.steps ι) (fun _ _ => none) labels (flatMemories roots after.memory) := by
  rw [← directories.flatMemories]
  exact (history.traced directories trace).2

theorem zoned_spaces_refine_flat_memories_one_zone :
    Trace (FlatMemory.steps Bool) (fun _ _ => none) twoSpacesLabels
      (flatMemories twoRoots (serveAll twoRoots twoSpacesRequests oneZoneStart).2.memory) :=
  zoned_spaces_refine_flat_memories oneZone_history oneZone_directories oneZone_trace

/-- The blocks of address spaces and of other users, and what the page tables reach. -/
structure FramesApart (spec : BuddySpec (2 ^ 12) buddy) (others frames : List Block)
    (roots : ι → Nat) (state : State (PageAllocator buddy)) : Prop where
  /-- Every block is on record with the buddy of its zone. -/
  recorded : ∀ block ∈ frames ++ others, ∃ zone,
    state.allocator.zones[block.zone]? = some zone ∧
      block.entry (2 ^ 12) ∈ spec.blocks zone.buddy
  disjoint : (frames ++ others).Pairwise fun left right => Disjoint left.bytes right.bytes
  /-- Page tables and pages are in frames that were handed out for them. -/
  uses : ∀ i frame, Uses state.memory (roots i) frame → frame = roots i ∨
    ∃ block ∈ frames, block.addr = frame ∧ block.size = 0x1000
  /-- No address leads to a block of another user. -/
  foreign : ∀ i vaddr translation, walk state.memory (roots i) vaddr = some translation →
    ∀ block ∈ others, translation.paddr ∉ block.bytes

theorem framesApart_of_shadowed (places : PlacesBlocks spec)
    (grantable : Grantable ranges others withheld) {frames : List Block} {state : State (PageAllocator buddy)}
    {sound : ∃ frames, FrameZones spec ranges others frames state.allocator}
    {reserved : ∀ i, roots i ∈ withheld}
    (spaces : Spaces PlainLeaf (sharedGuard (frameLedger places grantable) reserved)
      (shadow (frameLedger places grantable) state sound))
    (frameZones : FrameZones spec ranges others frames state.allocator) :
    FramesApart spec others frames roots state := by
  have owned : ∀ i place entry, Refers state.memory (roots i) place entry →
      ∃ block ∈ frames, block.addr = entry.frame ∧ block.size = 0x1000 := by
    intro i place entry refers
    have outstanding : entry.frame ∈ frameSet spec others state.allocator :=
      (spaces.owned i).owned place entry refers
    rw [frameZones.frameSet_eq] at outstanding
    obtain ⟨block, member, start⟩ := outstanding
    exact ⟨block, member, start, frameZones.small block member⟩
  constructor
  · intro block member
    obtain ⟨zone, found, -⟩ := frameZones.sound.zones.exists_zone member
    exact ⟨zone, found, frameZones.sound.zones.books.entry_mem member found⟩
  · exact frameZones.sound.apart.disjoint
  · rintro i frame (root | ⟨place, entry, refers, rfl⟩)
    · exact .inl root
    · exact .inr (owned i place entry refers)
  · intro i vaddr translation walked other isOther
    obtain ⟨entry, refers, paddrEq⟩ := (spaces.owned i).page_of_walk walked
    obtain ⟨block, member, start, size⟩ := owned i _ entry refers
    have inBlock : translation.paddr ∈ block.bytes := by
      constructor
      · rw [paddrEq, start]
        exact Nat.le_add_right _ _
      · rw [paddrEq, start, size]
        exact Nat.add_lt_add_left (Nat.mod_lt _ (by decide)) _
    have disjoint := (List.pairwise_append.mp frameZones.sound.apart.disjoint).2.2
    exact Set.disjoint_left.mp (disjoint block member other isOther) inBlock

end Runs

/-! ## What orderly runs leave allocated -/

section Orderly

variable {A : Type} [PageAllocatorTrait PageSize A] {withheld base : Set Nat} {root : Nat}
  {conditional : ConditionalLedger A withheld} {state after : State A}

theorem Accounted.plain {memory : Memory} {outstanding : Set Nat}
    (accounted : Accounted base memory root outstanding) :
    Owned PlainLeaf memory root outstanding :=
  ⟨accounted.owned.wf, accounted.owned.directory, accounted.owned.owned, accounted.owned.once,
    accounted.owned.not_root, fun i index entry refers =>
      (accounted.owned.shaped i index entry refers).plain⟩

/-- An orderly run over an allocator that must be used correctly keeps all frames
accounted for. -/
theorem OrderlyRun.accounted_guarded (reserved : root ∈ withheld) {calls : List Call}
    (orderly : OrderlyRun root state calls after) (sound : conditional.Sound state.allocator)
    (accounted : Accounted base state.memory root (conditional.outstanding state.allocator)) :
    conditional.Sound after.allocator ∧
      Accounted base after.memory root (conditional.outstanding after.allocator) := by
  induction orderly with
  | nil state => exact ⟨sound, accounted⟩
  | @mapAlloc state middle after vaddr size value flags calls free present notGlobal returned
      rest ih =>
      have ghost : Accounted base (shadow conditional state sound).memory root
          ((Guarded.ledger reserved).outstanding (shadow conditional state sound).allocator) :=
        accounted
      obtain ⟨middleSound, ran⟩ := run_shadow _ sound
        (alive_of_only (only_mapAlloc root vaddr size flags) id)
      rw [returned] at middleSound
      simp only [returned] at ran
      exact ih middleSound (accounted_mapAlloc ghost free present notGlobal ran)
  | @unmapFree state middle after vaddr size calls onPage wholePages returned rest ih =>
      have ghost : Accounted base (shadow conditional state sound).memory root
          ((Guarded.ledger reserved).outstanding (shadow conditional state sound).allocator) :=
        accounted
      have owned : Owned PlainLeaf (shadow conditional state sound).memory root
          (shadow conditional state sound).allocator.outstanding := ghost.plain
      obtain ⟨middleSound, ran⟩ := run_shadow _ sound (alive_unmapFree owned id)
      rw [returned] at middleSound
      simp only [returned] at ran
      exact ih middleSound (accounted_unmapFree ghost ran)

theorem referenced_of_inUse {memory : Memory} {frame : Nat} (inUse : InUse memory root frame) :
    Referenced memory root frame := by
  obtain ⟨i, inside, table, rfl | ⟨index, indexInside, present, rfl⟩⟩ := inUse
  · exact ⟨.table i, _, ⟨inside, rfl, table⟩, rfl⟩
  · refine ⟨.leaf i index, _, ⟨inside, indexInside, table, rfl, ?_⟩, rfl⟩
    rw [PTEntry.isMapped, present, Bool.true_or]

/-- With nothing outstanding in the beginning, the outstanding frames are those in use. -/
theorem Accounted.inUse_iff {memory : Memory} {outstanding : Set Nat} {frame : Nat}
    (accounted : Accounted ∅ memory root outstanding) :
    frame ∈ outstanding ↔ InUse memory root frame := by
  constructor
  · intro isOutstanding
    exact accounted.inUse ((accounted.noLeak frame isOutstanding).resolve_left id)
  · intro inUse
    obtain ⟨place, entry, refers, rfl⟩ := referenced_of_inUse inUse
    exact accounted.owned.owned place entry refers

variable {B E : Type} {construct : E → Nat → Nat → Option B × E} {buddy : BuddyAlloc B}
  {spec : BuddySpec (2 ^ 12) buddy} {ranges : List Bounds} {others : List Block}
  {zones : ZoneState B E} {memory : Memory} {after : State (PageAllocator buddy)}

/-- After an orderly run `allocated_memory` returns the size of the frames in use and of
the blocks of other users, to the byte. -/
theorem zoned_allocatedMemory_exact
    (history : ZonedHistory construct spec ranges others {root} zones)
    (rootAligned : root % 0x1000 = 0) (empty : ∀ i < 0x400, memory root i = .NULL)
    {calls : List Call} (orderly : OrderlyRun root ⟨memory, ⟨zones.zones, false⟩⟩ calls after) :
    run (buddyHandler buddy) (ZonedBuddy.allocatedMemory (after.allocator.zones.map Zone.bounds))
        after.allocator.zones =
      (.ok (0x1000 * {frame | InUse after.memory root frame}.ncard +
        (others.map Block.size).sum), after.allocator.zones) := by
  have initial : frameSet spec others ⟨zones.zones, false⟩ = ∅ := by
    rw [history.frameZones.frameSet_eq]
    simp [Block.starts]
  have accounted : Accounted ∅ memory root
      ((frameLedger history.places history.grantable).outstanding ⟨zones.zones, false⟩) := by
    have start := accounted_empty rootAligned empty (frameSet spec others ⟨zones.zones, false⟩)
    rw [initial] at start
    exact initial ▸ start
  have sound : (frameLedger history.places history.grantable).Sound ⟨zones.zones, false⟩ :=
    ⟨[], history.frameZones⟩
  obtain ⟨⟨frames, frameZones⟩, afterAccounted⟩ :=
    orderly.accounted_guarded (Set.mem_singleton root) sound accounted
  have inUse : {frame | InUse after.memory root frame} = Block.starts frames := by
    ext frame
    rw [← frameZones.frameSet_eq, Set.mem_ofPred_eq]
    exact afterAccounted.inUse_iff.symm
  rw [frameZones.allocatedMemory, inUse, frameZones.apart.ncard_starts]

/-- Two pages and their table are allocated, and one page is given back. -/
theorem zoned_allocatedMemory_exact_one_zone :
    ∃ middle after,
      run handler ((AddressSpace.fromPaddr 0x1000).mapAlloc 0x5000 0x2000 .readWrite)
        oneZoneStart = (.ok 0x5000, middle) ∧
      run handler ((AddressSpace.fromPaddr 0x1000).unmapFree 0x6000 0x1000) middle =
        (.ok (), after) ∧
      run (buddyHandler (FirstFit.buddy (2 ^ 12) fun _ => true))
          (ZonedBuddy.allocatedMemory (after.allocator.zones.map Zone.bounds))
          after.allocator.zones =
        (.ok (0x1000 * {frame | InUse after.memory 0x1000 frame}.ncard + 0x1000),
          after.allocator.zones) := by
  have mapReturned : (run handler
      ((AddressSpace.fromPaddr 0x1000).mapAlloc 0x5000 0x2000 .readWrite) oneZoneStart).1 =
        .ok 0x5000 := by decide +kernel
  rcases mapped : run handler
    ((AddressSpace.fromPaddr 0x1000).mapAlloc 0x5000 0x2000 .readWrite) oneZoneStart with
      ⟨outcome, middle⟩
  rw [mapped] at mapReturned
  subst mapReturned
  have unmapReturned : (run handler ((AddressSpace.fromPaddr 0x1000).unmapFree 0x6000 0x1000)
      (run handler ((AddressSpace.fromPaddr 0x1000).mapAlloc 0x5000 0x2000 .readWrite)
        oneZoneStart).2).1 = .ok () := by decide +kernel
  rcases unmapped : run handler ((AddressSpace.fromPaddr 0x1000).unmapFree 0x6000 0x1000)
    middle with ⟨outcome, after⟩
  rw [mapped, unmapped] at unmapReturned
  subst unmapReturned
  have history : ZonedHistory FirstFit.construct (FirstFit.spec (2 ^ 12) fun _ => true)
      [⟨0x10000, 0x8000⟩] [⟨0, 0x10000, 0x1000⟩] {0x1000} oneZone :=
    oneZone_history.mono (by rintro _ rfl; exact ⟨false, rfl⟩)
  have nothingMapped : ∀ query, walk oneZoneStart.memory 0x1000 query = none := by
    intro query
    apply walk_of_not_present
    change PTEntry.NULL.flags.p = false
    decide
  exact ⟨middle, after, rfl, unmapped, zoned_allocatedMemory_exact history (by decide)
    (fun _ _ => rfl) (.mapAlloc (fun query _ _ _ => nothingMapped query) rfl rfl mapped
      (.unmapFree (by decide) (by decide) unmapped (.nil _)))⟩

end Orderly

end SatanKernel.X86
