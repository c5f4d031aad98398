import Mathlib.Data.Multiset.MapFold
import SatanKernel.Memory.FirstFit
import SatanKernel.Memory.ZonedSplit

/-!
# Histories of the zoned allocator

Calls of `add_zone`, `alloc` and `free`, one after the other.  The zones that the calls
of `add_zone` leave are disjoint, and each of them keeps its own books: an outstanding
block is in the zone that handed it out, and goes back there.
-/

namespace SatanKernel

open Lib
open Lib.Program (run)

/-! ## The effect of a call -/

section Effect

variable {B : Type} (buddy : BuddyAlloc B) (blockSize size : Nat)

/-- Ask the zones in turn: the index of the zone that has a block with the block's address,
and the zones afterwards. -/
def askZones : List (Zone B) → Option (Nat × Nat) × List (Zone B)
  | [] => (none, [])
  | zone :: rest =>
      match buddy.alloc zone.buddy (size / blockSize) with
      | (some addr, buddy) => (some (0, addr), { zone with
          buddy, allocated := (zone.allocated + size) % 2 ^ usizeBits } :: rest)
      | (none, buddy) =>
          let (answer, rest) := askZones rest
          (answer.map fun found => (found.1 + 1, found.2), { zone with buddy } :: rest)

variable {buddy blockSize size} in
theorem askZones_cons_none {zone : Zone B} {after : B} (rest : List (Zone B))
    (answered : buddy.alloc zone.buddy (size / blockSize) = (none, after)) :
    askZones buddy blockSize size (zone :: rest) =
      ((askZones buddy blockSize size rest).1.map fun found => (found.1 + 1, found.2),
        { zone with buddy := after } :: (askZones buddy blockSize size rest).2) := by
  rw [askZones, answered]

variable {buddy blockSize size} in
theorem askZones_cons_some {zone : Zone B} {after : B} {addr : Nat} (rest : List (Zone B))
    (answered : buddy.alloc zone.buddy (size / blockSize) = (some addr, after)) :
    askZones buddy blockSize size (zone :: rest) = (some (0, addr), { zone with
      buddy := after, allocated := (zone.allocated + size) % 2 ^ usizeBits } :: rest) := by
  rw [askZones, answered]

theorem run_firstSome (done rest : List (Zone B)) :
    run (buddyHandler buddy) (Program.firstSome (List.range' done.length rest.length)
        (ZonedBuddy.allocIn blockSize size)) (done ++ rest) =
      (.ok ((askZones buddy blockSize size rest).1.map Prod.snd),
        done ++ (askZones buddy blockSize size rest).2) := by
  induction rest generalizing done with
  | nil => rfl
  | cons zone rest ih =>
      have found : (done ++ zone :: rest)[done.length]? = some zone := by simp
      have replaced : ∀ after, (done ++ zone :: rest).set done.length after =
          done ++ after :: rest := by simp
      rw [List.length_cons, List.range'_succ, ZonedBuddy.firstSome_cons,
        Program.run_call_some _ (onZone_of_get found _), replaced]
      rcases answered : buddy.alloc zone.buddy (size / blockSize) with ⟨_ | addr, after⟩
      · rw [askZones_cons_none rest answered]
        have continued := ih (done ++ [{ zone with buddy := after }])
        rw [List.length_append, List.length_singleton, List.append_assoc,
          List.singleton_append, List.append_assoc, List.singleton_append] at continued
        simp only [continued, Option.map_map]
        rfl
      · have stillFound : (done ++ { zone with buddy := after } :: rest)[done.length]? =
            some { zone with buddy := after } := by simp
        rw [askZones_cons_some rest answered,
          Program.run_call_some _ (onZone_of_get stillFound _), Program.run_ret]
        simp

/-- `alloc` asks the zones in turn. -/
theorem run_alloc (zones : List (Zone B)) :
    run (buddyHandler buddy) (ZonedBuddy.alloc blockSize (zones.map Zone.bounds) size) zones =
      (.ok ((askZones buddy blockSize size zones).1.map Prod.snd),
        (askZones buddy blockSize size zones).2) := by
  have whole := run_firstSome buddy blockSize size [] zones
  rw [List.nil_append, List.nil_append, List.length_nil, ← List.range_eq_range'] at whole
  rw [ZonedBuddy.alloc, List.length_map]
  exact whole

/-- A block goes back to a zone. -/
def takeBack (addr : Nat) (zone : Zone B) : Zone B :=
  { zone with
    buddy := buddy.free zone.buddy addr (size / blockSize)
    allocated := (zone.allocated + (2 ^ usizeBits - size)) % 2 ^ usizeBits }

/-- `free` changes the zone that the block is in, and no other. -/
theorem run_free {zones : List (Zone B)} {index addr : Nat} {zone : Zone B}
    (positive : 0 < size) (found : zones[index]? = some zone)
    (inside : ZonedBuddy.Holds addr size zone.bounds)
    (fits : ∀ bounds ∈ zones.map Zone.bounds, bounds.start + bounds.size < 2 ^ usizeBits)
    (apart : (zones.map Zone.bounds).Pairwise fun left right =>
      Disjoint left.bytes right.bytes) :
    run (buddyHandler buddy)
        (ZonedBuddy.free blockSize (zones.map Zone.bounds) addr size) zones =
      (.ok (), zones.set index (takeBack buddy blockSize size addr zone)) := by
  have bounds : (zones.map Zone.bounds)[index]? = some zone.bounds := by
    rw [List.getElem?_map, found, Option.map_some]
  obtain ⟨inRange, _⟩ := List.getElem?_eq_some_iff.mp found
  rw [ZonedBuddy.free_eq positive bounds inside fits apart,
    Program.run_call_some _ (onZone_of_get found _)]
  have stillFound : (zones.set index { zone with
      buddy := buddy.free zone.buddy addr (size / blockSize) })[index]? = some { zone with
        buddy := buddy.free zone.buddy addr (size / blockSize) } :=
    List.getElem?_set_self inRange
  rw [Program.run_call_some _ (onZone_of_get stillFound _), Program.run_ret, List.set_set]
  rfl

theorem askZones_bounds (zones : List (Zone B)) :
    (askZones buddy blockSize size zones).2.map Zone.bounds = zones.map Zone.bounds := by
  induction zones with
  | nil => rfl
  | cons zone rest ih =>
      rw [askZones]
      split
      next => rfl
      next => simp only [List.map_cons, ih, Zone.bounds]

end Effect

/-! ## Blocks and their zones -/

/-- A block that is outstanding, and the index of the zone that handed it out. -/
structure Block where
  zone : Nat
  addr : Nat
  size : Nat
  deriving DecidableEq, Repr

/-- The addresses of a block. -/
def Block.bytes (block : Block) : Set Nat := extent Block.addr Block.size block

/-- A size that is a power of two of blocks, as page sizes are. -/
structure WholeBlocks (blockSize size : Nat) : Prop where
  aligned : size % blockSize = 0
  power : (size / blockSize).isPowerOfTwo

theorem WholeBlocks.blocks_mul {blockSize size : Nat} (whole : WholeBlocks blockSize size) :
    size / blockSize * blockSize = size :=
  Nat.div_mul_cancel (Nat.dvd_of_mod_eq_zero whole.aligned)

theorem WholeBlocks.positive {blockSize size : Nat} (whole : WholeBlocks blockSize size) :
    0 < size := by
  have blocks := Nat.pos_of_isPowerOfTwo whole.power
  exact Nat.pos_of_ne_zero fun zero => by simp [zero] at blocks

/-- Where zones lie: each inside of one of the ranges, and apart from each other. -/
structure Layout (blockSize : Nat) (ranges zones : List Bounds) : Prop where
  fits : ∀ zone ∈ zones, zone.start + zone.size < 2 ^ usizeBits
  aligned : ∀ zone ∈ zones, zone.size % blockSize = 0
  covered : ∀ zone ∈ zones, ∃ range ∈ ranges, zone.bytes ⊆ range.bytes
  apart : zones.Pairwise fun left right => Disjoint left.bytes right.bytes

theorem Layout.disjoint {blockSize : Nat} {ranges zones : List Bounds}
    (layout : Layout blockSize ranges zones) {first second : Nat} {left right : Bounds}
    (leftFound : zones[first]? = some left) (rightFound : zones[second]? = some right)
    (different : first ≠ second) : Disjoint left.bytes right.bytes := by
  obtain ⟨firstInside, leftEq⟩ := List.getElem?_eq_some_iff.mp leftFound
  obtain ⟨secondInside, rightEq⟩ := List.getElem?_eq_some_iff.mp rightFound
  have ordered := List.pairwise_iff_getElem.mp layout.apart
  rw [← leftEq, ← rightEq]
  cases Nat.lt_or_gt_of_ne different with
  | inl before => exact ordered first second firstInside secondInside before
  | inr behind => exact (ordered second first secondInside firstInside behind).symm

/-- How the buddy of its zone records a block. -/
def Block.entry (blockSize : Nat) (block : Block) : Nat × Nat :=
  (block.addr, block.size / blockSize)

/-- The outstanding blocks after an answer from zones that start at index `base`. -/
def Block.granted (base size : Nat) (outstanding : List Block) :
    Option (Nat × Nat) → List Block
  | some (index, addr) => ⟨base + index, addr, size⟩ :: outstanding
  | none => outstanding

theorem Block.granted_map (base size : Nat) (outstanding : List Block)
    (answer : Option (Nat × Nat)) :
    Block.granted base size outstanding (answer.map fun found => (found.1 + 1, found.2)) =
      Block.granted (base + 1) size outstanding answer := by
  cases answer with
  | none => rfl
  | some found =>
      rw [Option.map_some, Block.granted, Block.granted, Nat.add_comm found.1, Nat.add_assoc]

section Books

variable {B : Type} {blockSize : Nat} {buddy : BuddyAlloc B}

/-- The buddies of the zones manage their zones, and have exactly the outstanding blocks
on record. -/
structure Books (spec : BuddySpec blockSize buddy) (zones : List (Zone B))
    (outstanding : List Block) : Prop where
  range : ∀ zone ∈ zones, spec.range zone.buddy = (zone.start, zone.size / blockSize)
  whole : ∀ block ∈ outstanding, WholeBlocks blockSize block.size
  inside : ∀ block ∈ outstanding, ∃ bounds, (zones.map Zone.bounds)[block.zone]? = some bounds ∧
    ZonedBuddy.Holds block.addr block.size bounds
  apart : outstanding.Pairwise fun left right => Disjoint left.bytes right.bytes
  recorded : ∀ index zone, zones[index]? = some zone → spec.blocks zone.buddy =
    ((outstanding.filter (·.zone = index)).map (Block.entry blockSize) : Multiset (Nat × Nat))

theorem Block.bytes_subset {block : Block} {bounds : Bounds}
    (inside : ZonedBuddy.Holds block.addr block.size bounds) : block.bytes ⊆ bounds.bytes :=
  Set.Ico_subset_Ico inside.1 inside.2

theorem Block.blockBytes_entry {block : Block} (whole : WholeBlocks blockSize block.size) :
    blockBytes blockSize (block.entry blockSize) = block.bytes := by
  rw [blockBytes, Block.entry, whole.blocks_mul]
  rfl

namespace Books

variable {spec : BuddySpec blockSize buddy} {zones : List (Zone B)} {outstanding : List Block}
  {index : Nat} {zone : Zone B}

/-- The order of the blocks does not matter. -/
theorem perm {others : List Block} (books : Books spec zones outstanding)
    (same : outstanding.Perm others) : Books spec zones others where
  range := books.range
  whole := fun block member => books.whole block (same.mem_iff.mpr member)
  inside := fun block member => books.inside block (same.mem_iff.mpr member)
  apart := by
    apply (same.pairwise_iff _).mp books.apart
    intro left right disjoint
    exact disjoint.symm
  recorded := by
    intro index zone found
    rw [books.recorded index zone found, Multiset.coe_eq_coe]
    exact (same.filter _).map _

/-- A zone changes, and with it what is on record for it. -/
theorem set (books : Books spec zones outstanding) (found : zones[index]? = some zone)
    (after : Zone B) (bounds : after.bounds = zone.bounds)
    (range : spec.range after.buddy = spec.range zone.buddy) {others : List Block}
    (whole : ∀ block ∈ others, WholeBlocks blockSize block.size)
    (inside : ∀ block ∈ others, ∃ bounds, (zones.map Zone.bounds)[block.zone]? = some bounds ∧
      ZonedBuddy.Holds block.addr block.size bounds)
    (apart : others.Pairwise fun left right => Disjoint left.bytes right.bytes)
    (elsewhere : ∀ other, other ≠ index →
      (others.filter (·.zone = other)).Perm (outstanding.filter (·.zone = other)))
    (recorded : spec.blocks after.buddy =
      ((others.filter (·.zone = index)).map (Block.entry blockSize) : Multiset (Nat × Nat))) :
    Books spec (zones.set index after) others where
  range := by
    intro other member
    cases List.mem_or_eq_of_mem_set member with
    | inl old => exact books.range other old
    | inr equal =>
        have startEq : after.start = zone.start := congrArg Bounds.start bounds
        have sizeEq : after.size = zone.size := congrArg Bounds.size bounds
        rw [equal, range, books.range zone (List.mem_of_getElem? found), startEq, sizeEq]
  whole := whole
  inside := by
    rw [bounds_set found bounds]
    exact inside
  apart := apart
  recorded := by
    intro other current position
    rw [List.getElem?_set] at position
    split at position
    next equal =>
      subst equal
      split at position
      next => cases position; exact recorded
      next => cases position
    next different =>
      rw [books.recorded other current position, Multiset.coe_eq_coe]
      exact ((elsewhere other (Ne.symm different)).map _).symm

/-- A zone changes, but not what is on record for it. -/
theorem set_same (books : Books spec zones outstanding) (found : zones[index]? = some zone)
    (after : Zone B) (bounds : after.bounds = zone.bounds)
    (range : spec.range after.buddy = spec.range zone.buddy)
    (blocks : spec.blocks after.buddy = spec.blocks zone.buddy) :
    Books spec (zones.set index after) outstanding := by
  apply books.set found after bounds range books.whole books.inside books.apart
  · intro other different
    exact List.Perm.refl _
  · rw [blocks, books.recorded index zone found]

/-- The buddy of its zone has an outstanding block on record. -/
theorem entry_mem (books : Books spec zones outstanding) {block : Block}
    (isOutstanding : block ∈ outstanding) (found : zones[block.zone]? = some zone) :
    block.entry blockSize ∈ spec.blocks zone.buddy := by
  rw [books.recorded block.zone zone found, Multiset.mem_coe]
  exact List.mem_map_of_mem (List.mem_filter.mpr ⟨isOutstanding, decide_eq_true rfl⟩)

/-- A buddy hands out a block. -/
theorem handOut {ranges : List Bounds} (books : Books spec zones outstanding)
    (layout : Layout blockSize ranges (zones.map Zone.bounds))
    (found : zones[index]? = some zone) {size addr : Nat} {after : B}
    (whole : WholeBlocks blockSize size)
    (answered : buddy.alloc zone.buddy (size / blockSize) = (some addr, after)) :
    Books spec (zones.set index { zone with buddy := after })
      (⟨index, addr, size⟩ :: outstanding) := by
  have position : (zones.map Zone.bounds)[index]? = some zone.bounds := by
    rw [List.getElem?_map, found, Option.map_some]
  have member := List.mem_of_getElem? found
  have newBytes : blockBytes blockSize (addr, size / blockSize) =
      Block.bytes ⟨index, addr, size⟩ := @Block.blockBytes_entry _ ⟨index, addr, size⟩ whole
  have holds : ZonedBuddy.Holds addr size zone.bounds := by
    have subset := spec.alloc_inside whole.power answered
    have sizeAligned := layout.aligned zone.bounds (List.mem_of_getElem? position)
    have managed : zone.size / blockSize * blockSize = zone.size :=
      Nat.div_mul_cancel (Nat.dvd_of_mod_eq_zero sizeAligned)
    rw [books.range zone member, blockBytes, blockBytes, whole.blocks_mul, managed] at subset
    exact (Set.Ico_subset_Ico_iff (Nat.lt_add_of_pos_right whole.positive)).mp subset
  have newApart : ∀ block ∈ outstanding,
      Disjoint (Block.bytes ⟨index, addr, size⟩) block.bytes := by
    intro block blockMember
    by_cases here : block.zone = index
    · have onRecord := books.entry_mem blockMember (here ▸ found)
      have apart := spec.alloc_apart whole.power answered _ onRecord
      rwa [newBytes, Block.blockBytes_entry (books.whole block blockMember)] at apart
    · obtain ⟨bounds, place, blockHolds⟩ := books.inside block blockMember
      have zonesApart := layout.disjoint position place (Ne.symm here)
      exact zonesApart.mono (Block.bytes_subset holds) (Block.bytes_subset blockHolds)
  apply books.set found { zone with buddy := after } rfl
  · have range := spec.alloc_range zone.buddy (size / blockSize)
    rwa [answered] at range
  · intro block blockMember
    cases List.mem_cons.mp blockMember with
    | inl equal => rw [equal]; exact whole
    | inr old => exact books.whole block old
  · intro block blockMember
    cases List.mem_cons.mp blockMember with
    | inl equal => rw [equal]; exact ⟨zone.bounds, position, holds⟩
    | inr old => exact books.inside block old
  · exact List.Pairwise.cons newApart books.apart
  · intro other different
    rw [List.filter_cons_of_neg (by simpa using Ne.symm different)]
  · rw [spec.alloc_some answered, List.filter_cons_of_pos (by simp), List.map_cons,
      ← Multiset.cons_coe, books.recorded index zone found]
    rfl

/-- A block goes back to the buddy of its zone. -/
theorem giveBack (books : Books spec zones outstanding) {block : Block}
    (isOutstanding : block ∈ outstanding) (found : zones[block.zone]? = some zone)
    (after : Zone B) (bounds : after.bounds = zone.bounds)
    (freed : after.buddy = buddy.free zone.buddy block.addr (block.size / blockSize)) :
    Books spec (zones.set block.zone after) (outstanding.erase block) := by
  have subset : outstanding.erase block ⊆ outstanding := List.erase_subset
  have present : block ∈ outstanding.filter (·.zone = block.zone) :=
    List.mem_filter.mpr ⟨isOutstanding, decide_eq_true rfl⟩
  have onRecord := books.entry_mem isOutstanding found
  have range := spec.free_range zone.buddy block.addr (block.size / blockSize)
  rw [← freed] at range
  apply books.set found after bounds range
  · intro other member
    exact books.whole other (subset member)
  · intro other member
    exact books.inside other (subset member)
  · exact books.apart.sublist List.erase_sublist
  · intro other different
    have absent : block ∉ outstanding.filter (·.zone = other) := by
      intro inFilter
      exact different (of_decide_eq_true (List.mem_filter.mp inFilter).2).symm
    rw [← List.erase_filter, List.erase_of_not_mem absent]
  · rw [freed, spec.free_blocks onRecord, books.recorded block.zone zone found, ← List.erase_filter,
      ← Multiset.map_coe, ← Multiset.map_coe, ← Multiset.coe_erase,
      Multiset.map_erase_of_mem _ _ (Multiset.mem_coe.mpr present)]
    rfl

/-- The zones are asked for a block. -/
theorem ask {ranges : List Bounds} {size : Nat} (whole : WholeBlocks blockSize size)
    (done rest : List (Zone B)) (books : Books spec (done ++ rest) outstanding)
    (layout : Layout blockSize ranges ((done ++ rest).map Zone.bounds)) :
    Books spec (done ++ (askZones buddy blockSize size rest).2)
      (Block.granted done.length size outstanding (askZones buddy blockSize size rest).1) := by
  induction rest generalizing done with
  | nil => exact books
  | cons zone rest ih =>
      have found : (done ++ zone :: rest)[done.length]? = some zone := by simp
      have replaced : ∀ after, (done ++ zone :: rest).set done.length after =
          done ++ after :: rest := by simp
      rcases answered : buddy.alloc zone.buddy (size / blockSize) with ⟨_ | addr, after⟩
      · have range := spec.alloc_range zone.buddy (size / blockSize)
        rw [answered] at range
        have skipped := books.set_same found { zone with buddy := after } rfl range
          (spec.alloc_none answered)
        have sameBounds := bounds_set found
          (show Zone.bounds { zone with buddy := after } = zone.bounds from rfl)
        rw [replaced, List.append_cons] at skipped sameBounds
        have continued := ih _ skipped (sameBounds ▸ layout)
        rw [← List.append_cons, List.length_append, List.length_singleton] at continued
        rw [askZones_cons_none rest answered, Block.granted_map]
        exact continued
      · have handed := books.handOut layout found whole answered
        rw [replaced] at handed
        have stillFound : (done ++ { zone with buddy := after } :: rest)[done.length]? =
            some { zone with buddy := after } := by simp
        have counted := handed.set_same stillFound { zone with
          buddy := after, allocated := (zone.allocated + size) % 2 ^ usizeBits } rfl rfl rfl
        rw [List.set_append_right _ _ (Nat.le_refl _), Nat.sub_self] at counted
        rw [askZones_cons_some rest answered]
        exact counted

end Books

end Books

/-! ## Histories -/

section History

variable {B E : Type} (construct : E → Nat → Nat → Option B × E) (buddy : BuddyAlloc B)
  (blockSize : Nat)

/-- What calls of the allocator lead to, with the ranges that were passed to `add_zone` and
the blocks that are outstanding. -/
inductive Reached : List Bounds → List Block → ZoneState B E → Prop where
  | new (environment : E) : Reached [] [] ⟨[], environment⟩
  | addZone {ranges : List Bounds} {outstanding : List Block} {state : ZoneState B E}
      (before : Reached ranges outstanding state) {start size : Nat}
      (startAligned : start % blockSize = 0) (sizeAligned : size % blockSize = 0)
      (fits : start + size < 2 ^ usizeBits) :
      Reached (⟨start, size⟩ :: ranges) outstanding
        (run (zoneHandler construct) (addZone blockSize start size) state).2
  | allocNone {ranges : List Bounds} {outstanding : List Block} {state : ZoneState B E}
      (before : Reached ranges outstanding state) {size : Nat} {zones : List (Zone B)}
      (whole : WholeBlocks blockSize size)
      (returned : run (buddyHandler buddy)
        (ZonedBuddy.alloc blockSize (state.zones.map Zone.bounds) size) state.zones =
          (.ok none, zones)) :
      Reached ranges outstanding { state with zones }
  | allocSome {ranges : List Bounds} {outstanding : List Block} {state : ZoneState B E}
      (before : Reached ranges outstanding state) {size index addr : Nat}
      {zones : List (Zone B)} (whole : WholeBlocks blockSize size)
      (returned : run (buddyHandler buddy)
        (ZonedBuddy.alloc blockSize (state.zones.map Zone.bounds) size) state.zones =
          (.ok (some addr), zones))
      (granted : (askZones buddy blockSize size state.zones).1 = some (index, addr)) :
      Reached ranges (⟨index, addr, size⟩ :: outstanding) { state with zones }
  | free {ranges : List Bounds} {outstanding : List Block} {state : ZoneState B E}
      (before : Reached ranges outstanding state) {block : Block} {zones : List (Zone B)}
      (isOutstanding : block ∈ outstanding)
      (returned : run (buddyHandler buddy)
        (ZonedBuddy.free blockSize (state.zones.map Zone.bounds) block.addr block.size)
          state.zones = (.ok (), zones)) :
      Reached ranges (outstanding.erase block) { state with zones }

variable {buddy blockSize}

/-- A new buddy manages the range that it was made for, and has handed out nothing. -/
def Constructs (spec : BuddySpec blockSize buddy) : Prop :=
  ∀ environment start blocks made, (construct environment start blocks).1 = some made →
    spec.range made = (start, blocks) ∧ spec.blocks made = 0

end History

section Sound

variable {B E : Type} {construct : E → Nat → Nat → Option B × E} {buddy : BuddyAlloc B} {k : Nat}
  {spec : BuddySpec (2 ^ k) buddy} {ranges : List Bounds} {outstanding : List Block}

/-- New zones go inside of a range that is apart from the earlier ones. -/
theorem Layout.append {zones added : List Bounds} (layout : Layout (2 ^ k) ranges zones)
    {range : Bounds} (fits : range.start + range.size < 2 ^ usizeBits)
    (aligned : ∀ zone ∈ added, zone.size % 2 ^ k = 0)
    (inside : ∀ zone ∈ added, zone.bytes ⊆ range.bytes)
    (bounded : ∀ zone ∈ added, zone.start + zone.size ≤ range.start + range.size)
    (addedApart : added.Pairwise fun left right => Disjoint left.bytes right.bytes)
    (rangeApart : ∀ other ∈ ranges, Disjoint range.bytes other.bytes) :
    Layout (2 ^ k) (range :: ranges) (zones ++ added) where
  fits := by
    intro zone member
    cases List.mem_append.mp member with
    | inl old => exact layout.fits zone old
    | inr new => exact lt_of_le_of_lt (bounded zone new) fits
  aligned := by
    intro zone member
    cases List.mem_append.mp member with
    | inl old => exact layout.aligned zone old
    | inr new => exact aligned zone new
  covered := by
    intro zone member
    cases List.mem_append.mp member with
    | inl old =>
        obtain ⟨other, otherMember, subset⟩ := layout.covered zone old
        exact ⟨other, List.mem_cons_of_mem _ otherMember, subset⟩
    | inr new => exact ⟨range, List.mem_cons_self, inside zone new⟩
  apart := by
    apply List.pairwise_append.mpr
    refine ⟨layout.apart, addedApart, ?_⟩
    intro left leftMember right rightMember
    obtain ⟨other, otherMember, subset⟩ := layout.covered left leftMember
    exact ((rangeApart other otherMember).mono (inside right rightMember) subset).symm

/-- New zones have nothing on record. -/
theorem Books.append {zones added : List (Zone B)} (books : Books spec zones outstanding)
    (range : ∀ zone ∈ added, spec.range zone.buddy = (zone.start, zone.size / 2 ^ k))
    (unused : ∀ zone ∈ added, spec.blocks zone.buddy = 0) :
    Books spec (zones ++ added) outstanding where
  range := by
    intro zone member
    cases List.mem_append.mp member with
    | inl old => exact books.range zone old
    | inr new => exact range zone new
  whole := books.whole
  inside := by
    intro block member
    obtain ⟨bounds, found, holds⟩ := books.inside block member
    obtain ⟨position, _⟩ := List.getElem?_eq_some_iff.mp found
    rw [List.map_append, List.getElem?_append_left position]
    exact ⟨bounds, found, holds⟩
  apart := books.apart
  recorded := by
    intro index zone found
    by_cases old : index < zones.length
    · rw [List.getElem?_append_left old] at found
      exact books.recorded index zone found
    · rw [List.getElem?_append_right (Nat.not_lt.mp old)] at found
      have nothing : outstanding.filter (·.zone = index) = [] := by
        rw [List.filter_eq_nil_iff]
        intro block member here
        obtain ⟨bounds, position, _⟩ := books.inside block member
        obtain ⟨inRange, _⟩ := List.getElem?_eq_some_iff.mp position
        rw [List.length_map, of_decide_eq_true here] at inRange
        exact old inRange
      rw [unused zone (List.mem_of_getElem? found), nothing]
      rfl

/-- The zones are laid out in the ranges, and their buddies have the outstanding blocks on
record. -/
structure ZonesSound (spec : BuddySpec (2 ^ k) buddy) (ranges : List Bounds)
    (outstanding : List Block) (zones : List (Zone B)) : Prop where
  layout : Layout (2 ^ k) ranges (zones.map Zone.bounds)
  books : Books spec zones outstanding

/-- Whatever `add_zone` has pushed, with or without an error. -/
theorem ZonesSound.appends (constructs : Constructs construct spec)
    {before after : ZoneState B E} {start size covered : Nat}
    (sound : ZonesSound spec ranges outstanding before.zones)
    (appends : Appends construct (2 ^ k) before after start (start + covered))
    (less : covered ≤ size) (fits : start + size < 2 ^ usizeBits)
    (rangeApart : ∀ other ∈ ranges, Disjoint (Bounds.bytes ⟨start, size⟩) other.bytes) :
    ZonesSound spec (⟨start, size⟩ :: ranges) outstanding after.zones := by
  obtain ⟨added, zonesEq, tiles, regular⟩ := appends
  have subset : ∀ zone ∈ added, zone.bounds.bytes ⊆ Set.Ico start (start + size) := by
    intro zone member
    exact (tiles.extent_subset member).trans (Set.Ico_subset_Ico_right (by omega))
  have built : ∀ zone ∈ added, spec.range zone.buddy = (zone.start, zone.size / 2 ^ k) ∧
      spec.blocks zone.buddy = 0 := by
    intro zone member
    obtain ⟨environment, made⟩ := (regular zone member).built
    exact constructs environment zone.start _ zone.buddy made
  rw [zonesEq]
  constructor
  · rw [List.map_append]
    apply sound.layout.append fits _ _ _ _ rangeApart
    · intro bounds member
      obtain ⟨zone, zoneMember, equal⟩ := List.mem_map.mp member
      rw [← equal]
      exact (regular zone zoneMember).sizeAligned
    · intro bounds member
      obtain ⟨zone, zoneMember, equal⟩ := List.mem_map.mp member
      rw [← equal]
      exact subset zone zoneMember
    · intro bounds member
      obtain ⟨zone, zoneMember, equal⟩ := List.mem_map.mp member
      rw [← equal]
      have positive := Nat.pos_of_isPowerOfTwo (regular zone zoneMember).power
      exact ((Set.Ico_subset_Ico_iff (Nat.lt_add_of_pos_right positive)).mp
        (subset zone zoneMember)).2
    · rw [List.pairwise_map]
      exact tiles.pairwise_disjoint
  · exact sound.books.append (fun zone member => (built zone member).1)
      fun zone member => (built zone member).2

/-- `free` reaches the zone that handed the block out, and no other. -/
theorem ZonesSound.free_eq {zones : List (Zone B)}
    (sound : ZonesSound spec ranges outstanding zones) {block : Block}
    (isOutstanding : block ∈ outstanding) :
    ZonedBuddy.free (2 ^ k) (zones.map Zone.bounds) block.addr block.size =
      .call (.buddyFree block.zone block.addr (block.size / 2 ^ k)) fun _ =>
        .call (.fetchSub block.zone block.size) fun _ => .ret () := by
  obtain ⟨bounds, found, holds⟩ := sound.books.inside block isOutstanding
  exact ZonedBuddy.free_eq (sound.books.whole block isOutstanding).positive found holds
    sound.layout.fits sound.layout.apart

/-- A call of `alloc`. -/
theorem ZonesSound.alloc {zones after : List (Zone B)} {size : Nat} {answer : Option Nat}
    (sound : ZonesSound spec ranges outstanding zones) (whole : WholeBlocks (2 ^ k) size)
    (returned : run (buddyHandler buddy)
      (ZonedBuddy.alloc (2 ^ k) (zones.map Zone.bounds) size) zones = (.ok answer, after)) :
    ZonesSound spec ranges
      (Block.granted 0 size outstanding (askZones buddy (2 ^ k) size zones).1) after := by
  rw [run_alloc, Prod.mk.injEq] at returned
  rw [← returned.2]
  constructor
  · rw [askZones_bounds]
    exact sound.layout
  · exact Books.ask whole [] zones sound.books sound.layout

/-- A call of `free` with an outstanding block. -/
theorem ZonesSound.free {zones after : List (Zone B)} {block : Block}
    (sound : ZonesSound spec ranges outstanding zones) (isOutstanding : block ∈ outstanding)
    (returned : run (buddyHandler buddy)
      (ZonedBuddy.free (2 ^ k) (zones.map Zone.bounds) block.addr block.size) zones =
        (.ok (), after)) :
    ZonesSound spec ranges (outstanding.erase block) after := by
  obtain ⟨bounds, position, holds⟩ := sound.books.inside block isOutstanding
  rw [List.getElem?_map, Option.map_eq_some_iff] at position
  obtain ⟨zone, found, boundsEq⟩ := position
  subst boundsEq
  rw [run_free buddy (2 ^ k) block.size (sound.books.whole block isOutstanding).positive found
    holds sound.layout.fits sound.layout.apart, Prod.mk.injEq] at returned
  rw [← returned.2]
  constructor
  · rw [bounds_set found
      (show (takeBack buddy (2 ^ k) block.size block.addr zone).bounds = zone.bounds from rfl)]
    exact sound.layout
  · exact sound.books.giveBack isOutstanding found _ rfl rfl

/-- The zones are sound after every history. -/
theorem Reached.sound (constructs : Constructs construct spec) {state : ZoneState B E}
    (reached : Reached construct buddy (2 ^ k) ranges outstanding state)
    (rangesApart : ranges.Pairwise fun left right => Disjoint left.bytes right.bytes) :
    ZonesSound spec ranges outstanding state.zones := by
  induction reached with
  | new environment =>
      exact ⟨⟨by simp, by simp, by simp, List.Pairwise.nil⟩,
        ⟨by simp, by simp, by simp, List.Pairwise.nil, by simp⟩⟩
  | @addZone ranges outstanding state before start size startAligned sizeAligned fits ih =>
      obtain ⟨rangeApart, earlierApart⟩ := List.pairwise_cons.mp rangesApart
      have ending := addZone_ending construct startAligned sizeAligned fits state
      generalize run (zoneHandler construct) (SatanKernel.addZone (2 ^ k) start size) state =
        finished at ending ⊢
      cases ending with
      | covered after appends =>
          exact (ih earlierApart).appends constructs appends (Nat.le_refl _) fits rangeApart
      | failed after covered less appends fails =>
          exact (ih earlierApart).appends constructs appends less.le fits rangeApart
  | allocNone before whole returned ih =>
      have after := (ih rangesApart).alloc whole returned
      rw [run_alloc, Prod.mk.injEq, Outcome.ok.injEq, Option.map_eq_none_iff] at returned
      rw [returned.1] at after
      exact after
  | allocSome before whole returned granted ih =>
      have after := (ih rangesApart).alloc whole returned
      rw [granted, Block.granted, Nat.zero_add] at after
      exact after
  | free before isOutstanding returned ih => exact (ih rangesApart).free isOutstanding returned

/-- The zones make one correct allocator: after every history the outstanding blocks are
disjoint and inside of the ranges that were added, and `free` of an outstanding block
reaches exactly the buddy that handed it out, which has it on record. -/
theorem zonedBuddy_sound (constructs : Constructs construct spec) {state : ZoneState B E}
    (reached : Reached construct buddy (2 ^ k) ranges outstanding state)
    (rangesApart : ranges.Pairwise fun left right => Disjoint left.bytes right.bytes) :
    (outstanding.Pairwise fun left right => Disjoint left.bytes right.bytes) ∧
    (∀ block ∈ outstanding, ∃ range ∈ ranges, block.bytes ⊆ range.bytes) ∧
    ∀ block ∈ outstanding,
      (∃ zone, state.zones[block.zone]? = some zone ∧
        block.entry (2 ^ k) ∈ spec.blocks zone.buddy) ∧
      ZonedBuddy.free (2 ^ k) (state.zones.map Zone.bounds) block.addr block.size =
        .call (.buddyFree block.zone block.addr (block.size / 2 ^ k)) fun _ =>
          .call (.fetchSub block.zone block.size) fun _ => .ret () := by
  have sound := reached.sound constructs rangesApart
  refine ⟨sound.books.apart, ?_, ?_⟩
  · intro block member
    obtain ⟨bounds, position, holds⟩ := sound.books.inside block member
    obtain ⟨range, rangeMember, subset⟩ :=
      sound.layout.covered bounds (List.mem_of_getElem? position)
    exact ⟨range, rangeMember, (Block.bytes_subset holds).trans subset⟩
  · intro block member
    obtain ⟨bounds, position, _⟩ := sound.books.inside block member
    rw [List.getElem?_map, Option.map_eq_some_iff] at position
    obtain ⟨zone, found, _⟩ := position
    exact ⟨⟨zone, found, sound.books.entry_mem member found⟩, sound.free_eq member⟩

end Sound

theorem FirstFit.constructs (blockSize : Nat) (serves : Nat → Bool) :
    Constructs FirstFit.construct (FirstFit.spec blockSize serves) := by
  intro environment start blocks made constructed
  cases constructed
  exact ⟨rfl, rfl⟩

/-- A range that is split into two zones, with a block of each zone outstanding. -/
theorem zonedBuddy_sound_adjacent_zones : ∃ state,
    Reached FirstFit.construct (FirstFit.buddy (2 ^ 12) fun _ => true) (2 ^ 12)
      [⟨0x1000, 0x3000⟩] [⟨1, 0x2000, 0x2000⟩, ⟨0, 0x1000, 0x1000⟩] state ∧
    ZonedBuddy.free (2 ^ 12) (state.zones.map Zone.bounds) 0x2000 0x2000 =
      .call (.buddyFree 1 0x2000 2) fun _ => .call (.fetchSub 1 0x2000) fun _ => .ret () := by
  have added : Reached FirstFit.construct (FirstFit.buddy (2 ^ 12) fun _ => true) (2 ^ 12)
      [⟨0x1000, 0x3000⟩] []
      (run (zoneHandler FirstFit.construct) (addZone (2 ^ 12) 0x1000 0x3000) ⟨[], ()⟩).2 :=
    Reached.addZone (Reached.new ()) rfl rfl (by decide)
  rw [run_addZone FirstFit.construct rfl rfl (by decide)] at added
  have first : Reached _ _ _ _ [⟨0, 0x1000, 0x1000⟩] _ :=
    Reached.allocSome added ⟨rfl, 0, rfl⟩ rfl rfl
  have second : Reached _ _ _ _ [⟨1, 0x2000, 0x2000⟩, ⟨0, 0x1000, 0x1000⟩] _ :=
    Reached.allocSome first ⟨rfl, 1, rfl⟩ rfl rfl
  have result := zonedBuddy_sound (FirstFit.constructs _ _) second (List.pairwise_singleton _ _)
  exact ⟨_, second, (result.2.2 ⟨1, 0x2000, 0x2000⟩ List.mem_cons_self).2⟩

end SatanKernel
