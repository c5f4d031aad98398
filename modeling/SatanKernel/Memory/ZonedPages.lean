import Mathlib.Data.Set.Card
import SatanKernel.Memory.ZonedAlignment
import SatanKernel.Memory.ZonedCounters

/-!
# The zoned allocator as a page allocator

`ZonedBuddy` implements `PageAllocatorTrait` by its own `alloc` and `free`, with the page
size in bytes.  `PageZones.Sound` says what its zones and counters are while certain blocks
are outstanding; every call that gives back one of these blocks, and every call of `alloc`,
keeps it.
-/

namespace SatanKernel

open Lib
open Lib.Program (run)

/-! ## Counters over histories -/

section Counters

variable {B : Type} {buddy : BuddyAlloc B} {blockSize size : Nat}

/-- What a call of `alloc` adds to the counter of a zone. -/
def grantedAt (size index : Nat) : Option (Nat × Nat) → Nat
  | some (position, _) => if position = index then size else 0
  | none => 0

theorem grantedAt_map_succ (index : Nat) (answer : Option (Nat × Nat)) :
    grantedAt size (index + 1) (answer.map fun found => (found.1 + 1, found.2)) =
      grantedAt size index answer := by
  cases answer with
  | none => rfl
  | some found => simp only [Option.map_some, grantedAt, Nat.add_right_cancel_iff]

theorem grantedAt_map_zero (answer : Option (Nat × Nat)) :
    grantedAt size 0 (answer.map fun found => (found.1 + 1, found.2)) = 0 := by
  cases answer with
  | none => rfl
  | some found => simp [grantedAt]

theorem askZones_allocated {zones : List (Zone B)} {index : Nat} {after : Zone B}
    (found : (askZones buddy blockSize size zones).2[index]? = some after)
    (small : ∀ zone ∈ zones, zone.allocated < 2 ^ usizeBits) :
    ∃ zone, zones[index]? = some zone ∧ after.allocated =
      (zone.allocated + grantedAt size index (askZones buddy blockSize size zones).1) %
        2 ^ usizeBits := by
  induction zones generalizing index with
  | nil => simp [askZones] at found
  | cons zone rest ih =>
      have here := small zone (by simp)
      have later : ∀ zone ∈ rest, zone.allocated < 2 ^ usizeBits :=
        fun other member => small other (by simp [member])
      rcases answered : buddy.alloc zone.buddy (size / blockSize) with ⟨_ | addr, made⟩
      · rw [askZones_cons_none rest answered] at found ⊢
        cases index with
        | zero =>
            rw [List.getElem?_cons_zero, Option.some.injEq] at found
            refine ⟨zone, rfl, ?_⟩
            rw [← found, grantedAt_map_zero, Nat.add_zero, Nat.mod_eq_of_lt here]
        | succ index =>
            rw [List.getElem?_cons_succ] at found
            obtain ⟨before, position, allocated⟩ := ih found later
            refine ⟨before, position, ?_⟩
            rw [allocated, grantedAt_map_succ]
      · rw [askZones_cons_some rest answered] at found ⊢
        cases index with
        | zero =>
            rw [List.getElem?_cons_zero, Option.some.injEq] at found
            refine ⟨zone, rfl, ?_⟩
            rw [← found, grantedAt, if_pos rfl]
        | succ index =>
            rw [List.getElem?_cons_succ] at found
            refine ⟨after, found, ?_⟩
            have unchanged := later after (List.mem_of_getElem? found)
            rw [grantedAt, if_neg (Nat.succ_ne_zero index).symm, Nat.add_zero,
              Nat.mod_eq_of_lt unchanged]

theorem sizeAt_granted (index : Nat) (blocks : List Block) (answer : Option (Nat × Nat)) :
    sizeAt index (Block.granted 0 size blocks answer) =
      sizeAt index blocks + grantedAt size index answer := by
  cases answer with
  | none => rfl
  | some found =>
      obtain ⟨position, addr⟩ := found
      by_cases same : position = index
      · subst same
        have counted := sizeAt_cons_self ⟨0 + position, addr, size⟩ blocks
        simp only [Nat.zero_add] at counted
        rw [Block.granted, grantedAt, if_pos rfl, Nat.zero_add, counted, Nat.add_comm]
      · rw [Block.granted, grantedAt, if_neg same, Nat.zero_add,
          sizeAt_cons_of_ne same, Nat.add_zero]

theorem Counters.small {zones : List (Zone B)} {blocks : List Block}
    (counters : Counters zones blocks) : ∀ zone ∈ zones, zone.allocated < 2 ^ usizeBits := by
  intro zone member
  obtain ⟨index, found⟩ := List.getElem?_of_mem member
  rw [counters index zone found]
  exact Nat.mod_lt _ (Nat.two_pow_pos _)

theorem Block.granted_append (blocks others : List Block) (answer : Option (Nat × Nat)) :
    Block.granted 0 size (blocks ++ others) answer =
      Block.granted 0 size blocks answer ++ others := by
  cases answer <;> rfl

/-- `alloc` counts what it hands out. -/
theorem Counters.ask {zones : List (Zone B)} {blocks : List Block}
    (counters : Counters zones blocks) (buddy : BuddyAlloc B) (blockSize size : Nat) :
    Counters (askZones buddy blockSize size zones).2
      (Block.granted 0 size blocks (askZones buddy blockSize size zones).1) := by
  intro index after found
  obtain ⟨zone, position, allocated⟩ := askZones_allocated found counters.small
  rw [allocated, counters index zone position, Nat.mod_add_mod, sizeAt_granted]

theorem takeBack_bounds (size addr : Nat) (zone : Zone B) :
    (takeBack buddy blockSize size addr zone).bounds = zone.bounds := rfl

/-- `free` counts what it takes back. -/
theorem Counters.takeBack {zones : List (Zone B)} {blocks : List Block} {block : Block}
    {zone : Zone B} (counters : Counters zones blocks) (isOutstanding : block ∈ blocks)
    (found : zones[block.zone]? = some zone) (fits : block.size < 2 ^ usizeBits) :
    Counters (zones.set block.zone
      (SatanKernel.takeBack buddy blockSize block.size block.addr zone))
      (blocks.erase block) := by
  have ordered := counters.perm (List.perm_cons_erase isOutstanding)
  obtain ⟨inRange, _⟩ := List.getElem?_eq_some_iff.mp found
  have subtracted := (ordered.subtract found fits).set_same (List.getElem?_set_self inRange)
    (SatanKernel.takeBack buddy blockSize block.size block.addr zone) rfl
  rwa [List.set_set] at subtracted

/-- Zones that are not counted yet join the others. -/
theorem Counters.append {zones added : List (Zone B)} {blocks : List Block}
    (counters : Counters zones blocks) (unused : ∀ zone ∈ added, zone.allocated = 0)
    (inside : ∀ block ∈ blocks, block.zone < zones.length) :
    Counters (zones ++ added) blocks := by
  intro index zone found
  by_cases old : index < zones.length
  · rw [List.getElem?_append_left old] at found
    exact counters index zone found
  · rw [List.getElem?_append_right (by omega)] at found
    have nothing : blocks.filter (·.zone = index) = [] := by
      apply List.filter_eq_nil_iff.mpr
      intro block member
      have := inside block member
      simp only [decide_eq_true_eq]
      omega
    rw [unused zone (List.mem_of_getElem? found), sizeAt, nothing]
    rfl

end Counters

section History

variable {B E : Type} {construct : E → Nat → Nat → Option B × E} {buddy : BuddyAlloc B} {k : Nat}
  {spec : BuddySpec (2 ^ k) buddy} {ranges : List Bounds} {outstanding : List Block}

theorem ZonesSound.zone_lt {zones : List (Zone B)}
    (sound : ZonesSound spec ranges outstanding zones) {block : Block} (isOutstanding : block ∈ outstanding) : block.zone < zones.length := by
  obtain ⟨bounds, position, _⟩ := sound.books.inside block isOutstanding
  obtain ⟨inside, _⟩ := List.getElem?_eq_some_iff.mp position
  rwa [List.length_map] at inside

/-- A zone with an outstanding block holds the block. -/
theorem ZonesSound.exists_zone {zones : List (Zone B)}
    (sound : ZonesSound spec ranges outstanding zones) {block : Block}
    (isOutstanding : block ∈ outstanding) :
    ∃ zone, zones[block.zone]? = some zone ∧
      ZonedBuddy.Holds block.addr block.size zone.bounds ∧ block.size < 2 ^ usizeBits := by
  obtain ⟨bounds, position, holds⟩ := sound.books.inside block isOutstanding
  have fits := sound.layout.fits bounds (List.mem_of_getElem? position)
  rw [List.getElem?_map, Option.map_eq_some_iff] at position
  obtain ⟨zone, found, rfl⟩ := position
  have below : block.addr + block.size ≤ zone.bounds.start + zone.bounds.size := holds.2
  exact ⟨zone, found, holds, by omega⟩

/-- The counters are right after every history. -/
theorem Reached.counters (constructs : Constructs construct spec) {state : ZoneState B E}
    (reached : Reached construct buddy (2 ^ k) ranges outstanding state)
    (rangesApart : ranges.Pairwise fun left right => Disjoint left.bytes right.bytes) :
    Counters state.zones outstanding := by
  induction reached with
  | new environment => simp [Counters]
  | @addZone ranges outstanding state before start size startAligned sizeAligned fits ih =>
      obtain ⟨-, earlierApart⟩ := List.pairwise_cons.mp rangesApart
      have sound := before.sound constructs earlierApart
      have ending := addZone_ending construct startAligned sizeAligned fits state
      generalize run (zoneHandler construct) (SatanKernel.addZone (2 ^ k) start size) state =
        finished at ending ⊢
      have joined : ∀ {after : ZoneState B E} {stop : Nat},
          Appends construct (2 ^ k) state after start stop →
            Counters after.zones outstanding := by
        rintro after stop ⟨added, zones, -, regular⟩
        rw [zones]
        exact (ih earlierApart).append (fun zone member => (regular zone member).unused)
          fun block member => sound.zone_lt member
      cases ending with
      | covered after appends => exact joined appends
      | failed after covered less appends fails => exact joined appends
  | @allocNone ranges outstanding state before size zones whole returned ih =>
      have counted := (ih rangesApart).ask buddy (2 ^ k) size
      rw [run_alloc, Prod.mk.injEq, Outcome.ok.injEq, Option.map_eq_none_iff] at returned
      rw [returned.1, returned.2] at counted
      exact counted
  | @allocSome ranges outstanding state before size index addr zones whole returned granted ih =>
      have counted := (ih rangesApart).ask buddy (2 ^ k) size
      rw [run_alloc, Prod.mk.injEq] at returned
      rw [granted, returned.2, Block.granted, Nat.zero_add] at counted
      exact counted
  | @free ranges outstanding state before block zones isOutstanding returned ih =>
      have sound := before.sound constructs rangesApart
      obtain ⟨zone, found, holds, fits⟩ := sound.exists_zone isOutstanding
      rw [run_free buddy (2 ^ k) block.size (sound.books.whole block isOutstanding).positive
        found holds sound.layout.fits sound.layout.apart, Prod.mk.injEq] at returned
      rw [← returned.2]
      exact (ih rangesApart).takeBack isOutstanding found fits

end History

/-! ## Where zones start -/

section Alignment

variable {B E : Type} {construct : E → Nat → Nat → Option B × E} {buddy : BuddyAlloc B} {k : Nat}
  {spec : BuddySpec (2 ^ k) buddy} {ranges : List Bounds} {outstanding : List Block}
  {state : ZoneState B E}

theorem Reached.ranges_aligned
    (reached : Reached construct buddy (2 ^ k) ranges outstanding state) :
    ∀ range ∈ ranges, range.start % 2 ^ k = 0 ∧ range.size % 2 ^ k = 0 := by
  induction reached with
  | new environment => simp
  | addZone before startAligned sizeAligned fits ih =>
      intro range member
      rcases List.mem_cons.mp member with rfl | earlier
      · exact ⟨startAligned, sizeAligned⟩
      · exact ih range earlier
  | allocNone before whole returned ih => exact ih
  | allocSome before whole returned granted ih => exact ih
  | free before isOutstanding returned ih => exact ih

/-- Zones start at blocks. -/
theorem Reached.zones_aligned (constructs : Constructs construct spec)
    (reached : Reached construct buddy (2 ^ k) ranges outstanding state) :
    ∀ zone ∈ state.zones, zone.start % 2 ^ k = 0 := by
  intro zone member
  obtain ⟨⟨range, inRanges, isPiece⟩, -⟩ := reached.ofSplit constructs zone member
  obtain ⟨startAligned, sizeAligned⟩ := reached.ranges_aligned range inRanges
  obtain ⟨bit, -, set, bounds⟩ := mem_piecesBelow.mp isPiece
  have startEq : zone.start = range.start + range.size % 2 ^ bit := congrArg Bounds.start bounds
  have large : k ≤ bit := by
    by_contra below
    rw [testBit_of_aligned sizeAligned (Nat.not_le.mp below)] at set
    cases set
  rw [startEq, piece_start_mod large, Nat.add_mod, startAligned, sizeAligned, Nat.zero_add,
    Nat.zero_mod]

end Alignment

/-! ## Where blocks start -/

section Starts

/-- The first addresses of blocks. -/
def Block.starts (blocks : List Block) : Set Nat :=
  {addr | ∃ block ∈ blocks, block.addr = addr}

/-- Blocks with addresses, apart from each other. -/
structure Block.Apart (blocks : List Block) : Prop where
  positive : ∀ block ∈ blocks, 0 < block.size
  disjoint : blocks.Pairwise fun left right => Disjoint left.bytes right.bytes

namespace Block

variable {block : Block} {blocks others : List Block}

theorem starts_cons (block : Block) (blocks : List Block) :
    starts (block :: blocks) = insert block.addr (starts blocks) := by
  ext addr
  simp only [starts, List.mem_cons, exists_eq_or_imp, Set.mem_ofPred_eq, Set.mem_insert_iff]
  rw [eq_comm]

theorem starts_append (blocks others : List Block) :
    starts (blocks ++ others) = starts blocks ∪ starts others := by
  ext addr
  simp only [starts, List.mem_append, Set.mem_ofPred_eq, Set.mem_union, or_and_right, exists_or]

theorem starts_perm (same : blocks.Perm others) : starts blocks = starts others := by
  ext addr
  simp only [starts, Set.mem_ofPred_eq, same.mem_iff]

theorem mem_bytes (positive : 0 < block.size) : block.addr ∈ block.bytes :=
  ⟨Nat.le_refl _, Nat.lt_add_of_pos_right positive⟩

namespace Apart

theorem perm (apart : Apart blocks) (same : blocks.Perm others) : Apart others where
  positive := fun block member => apart.positive block (same.mem_iff.mpr member)
  disjoint := by
    apply (same.pairwise_iff _).mp apart.disjoint
    intro left right disjoint
    exact disjoint.symm

theorem tail (apart : Apart (block :: blocks)) : Apart blocks where
  positive := fun other member => apart.positive other (List.mem_cons_of_mem _ member)
  disjoint := (List.pairwise_cons.mp apart.disjoint).2

theorem not_mem_starts (apart : Apart (block :: blocks)) : block.addr ∉ starts blocks := by
  rintro ⟨other, member, same⟩
  have disjoint := (List.pairwise_cons.mp apart.disjoint).1 other member
  apply Set.disjoint_left.mp disjoint (mem_bytes (apart.positive block (by simp)))
  rw [← same]
  exact mem_bytes (apart.positive other (by simp [member]))

theorem starts_disjoint (apart : Apart (blocks ++ others)) :
    Disjoint (starts blocks) (starts others) := by
  induction blocks with
  | nil => simp [starts]
  | cons block blocks ih =>
      rw [List.cons_append] at apart
      have fresh := apart.not_mem_starts
      rw [starts_append, Set.mem_union, not_or] at fresh
      rw [starts_cons, Set.disjoint_insert_left]
      exact ⟨fresh.2, ih apart.tail⟩

theorem starts_erase (apart : Apart blocks) (member : block ∈ blocks) :
    starts (blocks.erase block) = starts blocks \ {block.addr} := by
  have ordered := List.perm_cons_erase member
  rw [starts_perm ordered, starts_cons, Set.insert_sdiff_of_mem _ (Set.mem_singleton _),
    Set.sdiff_singleton_eq_self (apart.perm ordered).not_mem_starts]

/-- Blocks that start at different addresses are counted by their addresses. -/
theorem ncard_starts (apart : Apart blocks) : (starts blocks).ncard = blocks.length := by
  induction blocks with
  | nil => simp [starts]
  | cons block blocks ih =>
      have finite : (starts blocks).Finite := by
        apply (List.finite_toSet (blocks.map Block.addr)).subset
        rintro addr ⟨other, member, rfl⟩
        exact List.mem_map_of_mem member
      rw [starts_cons, Set.ncard_insert_of_notMem apart.not_mem_starts finite, ih apart.tail,
        List.length_cons]

end Apart

end Block

end Starts

/-! ## The page allocator -/

/-- `ZonedBuddy<BLOCK_SIZE>` in use: its zones, and whether one of its calls has panicked. -/
structure PageZones {B : Type} (buddy : BuddyAlloc B) (blockSize : Nat) where
  zones : List (Zone B)
  panicked : Bool

namespace PageZones

variable {B : Type} {buddy : BuddyAlloc B} {blockSize : Nat}

/-- A call of the allocator that ends in a panic leaves the zones as they are then. -/
def finish {α : Type} (allocator : PageZones buddy blockSize) :
    Outcome Empty α × List (Zone B) → Option α × PageZones buddy blockSize
  | (.ok answer, zones) => (some answer, { allocator with zones })
  | (.err error, _) => error.elim
  | (.panic, zones) => (none, ⟨zones, true⟩)

def alloc (allocator : PageZones buddy blockSize) (size : Nat) :
    Option Nat × PageZones buddy blockSize :=
  let (answer, after) := allocator.finish (run (buddyHandler buddy)
    (ZonedBuddy.alloc blockSize (allocator.zones.map Zone.bounds) size) allocator.zones)
  (answer.join, after)

def free (allocator : PageZones buddy blockSize) (allocation size : Nat) :
    PageZones buddy blockSize :=
  (allocator.finish (run (buddyHandler buddy)
    (ZonedBuddy.free blockSize (allocator.zones.map Zone.bounds) allocation size)
    allocator.zones)).2

/-- `impl PageAllocatorTrait<PageSize> for ZonedBuddy<BLOCK_SIZE>`. -/
instance {S : Type} [PageSizeTrait S] : PageAllocatorTrait S (PageZones buddy blockSize) where
  alloc allocator size := allocator.alloc (PageSizeTrait.into size)
  free allocator allocation size := allocator.free allocation (PageSizeTrait.into size)

/-- `alloc` never panics. -/
theorem alloc_eq (allocator : PageZones buddy blockSize) (size : Nat) :
    allocator.alloc size =
      ((askZones buddy blockSize size allocator.zones).1.map Prod.snd,
        { allocator with zones := (askZones buddy blockSize size allocator.zones).2 }) := by
  rw [alloc, run_alloc]
  rfl

end PageZones

/-- The zones and the counters while blocks are outstanding; no call has panicked. -/
structure PageZones.Sound {B : Type} {buddy : BuddyAlloc B} {k : Nat}
    (spec : BuddySpec (2 ^ k) buddy) (ranges : List Bounds) (outstanding : List Block)
    (allocator : PageZones buddy (2 ^ k)) : Prop where
  zones : ZonesSound spec ranges outstanding allocator.zones
  counters : Counters allocator.zones outstanding
  running : allocator.panicked = false

namespace PageZones.Sound

variable {B : Type} {buddy : BuddyAlloc B} {k : Nat} {spec : BuddySpec (2 ^ k) buddy}
  {ranges : List Bounds} {outstanding : List Block} {allocator : PageZones buddy (2 ^ k)}

theorem perm {others : List Block} (sound : Sound spec ranges outstanding allocator)
    (same : outstanding.Perm others) : Sound spec ranges others allocator where
  zones := ⟨sound.zones.layout, sound.zones.books.perm same⟩
  counters := sound.counters.perm same
  running := sound.running

theorem alloc (sound : Sound spec ranges outstanding allocator) {size : Nat}
    (whole : WholeBlocks (2 ^ k) size) :
    Sound spec ranges
      (Block.granted 0 size outstanding (askZones buddy (2 ^ k) size allocator.zones).1)
      (allocator.alloc size).2 := by
  rw [PageZones.alloc_eq]
  exact ⟨sound.zones.alloc whole (run_alloc buddy (2 ^ k) size allocator.zones),
    sound.counters.ask buddy (2 ^ k) size, sound.running⟩

/-- The block goes back to the zone that handed it out. -/
theorem run_free (sound : Sound spec ranges outstanding allocator) {block : Block}
    (isOutstanding : block ∈ outstanding) :
    ∃ zone, allocator.zones[block.zone]? = some zone ∧
      run (buddyHandler buddy) (ZonedBuddy.free (2 ^ k) (allocator.zones.map Zone.bounds)
          block.addr block.size) allocator.zones =
        (.ok (), allocator.zones.set block.zone
          (takeBack buddy (2 ^ k) block.size block.addr zone)) := by
  obtain ⟨zone, found, holds, -⟩ := sound.zones.exists_zone isOutstanding
  exact ⟨zone, found, SatanKernel.run_free buddy (2 ^ k) block.size
    (sound.zones.books.whole block isOutstanding).positive found holds
    sound.zones.layout.fits sound.zones.layout.apart⟩

theorem free (sound : Sound spec ranges outstanding allocator) {block : Block}
    (isOutstanding : block ∈ outstanding) :
    Sound spec ranges (outstanding.erase block) (allocator.free block.addr block.size) := by
  obtain ⟨zone, found, returned⟩ := sound.run_free isOutstanding
  obtain ⟨-, -, -, fits⟩ := sound.zones.exists_zone isOutstanding
  rw [PageZones.free, returned]
  exact ⟨sound.zones.free isOutstanding returned,
    sound.counters.takeBack isOutstanding found fits, sound.running⟩

theorem apart (sound : Sound spec ranges outstanding allocator) : Block.Apart outstanding where
  positive := fun block member => (sound.zones.books.whole block member).positive
  disjoint := sound.zones.books.apart

/-- The buddies have on record exactly the outstanding blocks. -/
theorem mem_starts_iff (sound : Sound spec ranges outstanding allocator) {addr : Nat} :
    addr ∈ Block.starts outstanding ↔
      ∃ zone ∈ allocator.zones, ∃ count, (addr, count) ∈ spec.blocks zone.buddy := by
  constructor
  · rintro ⟨block, isOutstanding, rfl⟩
    obtain ⟨zone, found, -⟩ := sound.zones.exists_zone isOutstanding
    exact ⟨zone, List.mem_of_getElem? found, block.size / 2 ^ k,
      sound.zones.books.entry_mem isOutstanding found⟩
  · rintro ⟨zone, member, count, recorded⟩
    obtain ⟨index, found⟩ := List.getElem?_of_mem member
    rw [sound.zones.books.recorded index zone found, Multiset.mem_coe] at recorded
    obtain ⟨block, inZone, entry⟩ := List.mem_map.mp recorded
    exact ⟨block, (List.mem_filter.mp inZone).1, congrArg Prod.fst entry⟩

/-- `allocated_memory` returns the total of the outstanding blocks. -/
theorem allocatedMemory (sound : Sound spec ranges outstanding allocator) :
    run (buddyHandler buddy) (ZonedBuddy.allocatedMemory (allocator.zones.map Zone.bounds))
        allocator.zones =
      (.ok (outstanding.map Block.size).sum, allocator.zones) := by
  have quiet : Ledger.Sound spec ranges ⟨allocator.zones, [], outstanding⟩ :=
    ⟨sound.zones.layout, sound.zones.books, sound.counters, by simp⟩
  exact quiet.quiet rfl

end PageZones.Sound

/-- After every history of the allocator. -/
theorem Reached.pageZones {B E : Type} {construct : E → Nat → Nat → Option B × E}
    {buddy : BuddyAlloc B} {k : Nat} {spec : BuddySpec (2 ^ k) buddy} {ranges : List Bounds}
    {outstanding : List Block} (constructs : Constructs construct spec)
    {state : ZoneState B E}
    (reached : Reached construct buddy (2 ^ k) ranges outstanding state)
    (rangesApart : ranges.Pairwise fun left right => Disjoint left.bytes right.bytes) :
    PageZones.Sound spec ranges outstanding ⟨state.zones, false⟩ :=
  ⟨reached.sound constructs rangesApart, reached.counters constructs rangesApart, rfl⟩

end SatanKernel
