import Mathlib.Data.Multiset.AddSub
import SatanKernel.Memory.ZonedBuddy

/-!
# Allocating from zones

`ZonedBuddy::alloc`, `free`, `total_memory` and `allocated_memory` of
`memory/page_allocator/zoned_buddy.rs`.  A call holds the read lock of the zones, so the
zones and their bounds do not change while it runs; what does change are the buddies
and the counters, and each access to one of them is an atomic operation.

The third-party `BuddyAlloc` is a parameter.  `BuddySpec` states what is assumed of it:
an instance hands out blocks of its own range that do not overlap.
-/

namespace SatanKernel

open Lib

/-- The part of a zone that does not change. -/
structure Bounds where
  start : Nat
  size : Nat
  deriving DecidableEq, Repr

/-- The addresses between the bounds. -/
def Bounds.bytes (bounds : Bounds) : Set Nat := extent Bounds.start Bounds.size bounds

def Zone.bounds {B : Type} (zone : Zone B) : Bounds := ⟨zone.start, zone.size⟩

/-- The atomic operations on the buddy and on the counter of a zone. -/
inductive BuddyOp where
  | buddyAlloc (zone blocks : Nat)
  | buddyFree (zone addr blocks : Nat)
  | fetchAdd (zone amount : Nat)
  | fetchSub (zone amount : Nat)
  | load (zone : Nat)
  deriving DecidableEq, Repr

abbrev BuddyOp.Answer : BuddyOp → Type
  | .buddyAlloc _ _ => Option Nat
  | .buddyFree _ _ _ => Unit
  | .fetchAdd _ _ => Unit
  | .fetchSub _ _ => Unit
  | .load _ => Nat

abbrev buddySig : Signature := ⟨BuddyOp, BuddyOp.Answer⟩

/-- Code of the zoned allocator.  It returns no errors. -/
abbrev BuddyM := Program buddySig Empty

namespace ZonedBuddy

/-- `zone.buddy.alloc(blocks)`. -/
def buddyAlloc (zone blocks : Nat) : BuddyM (Option Nat) := .call (.buddyAlloc zone blocks) .ret

/-- `zone.buddy.free(addr, blocks)`. -/
def buddyFree (zone addr blocks : Nat) : BuddyM Unit := .call (.buddyFree zone addr blocks) .ret

def fetchAdd (zone amount : Nat) : BuddyM Unit := .call (.fetchAdd zone amount) .ret

def fetchSub (zone amount : Nat) : BuddyM Unit := .call (.fetchSub zone amount) .ret

def load (zone : Nat) : BuddyM Nat := .call (.load zone) .ret

/-- Try one zone. -/
def allocIn (blockSize size zone : Nat) : BuddyM (Option Nat) := do
  match ← buddyAlloc zone (size / blockSize) with
  | some addr => do
      fetchAdd zone size
      pure (some addr)
  | none => pure none

/-- Take a block from the first zone that has one. -/
def alloc (blockSize : Nat) (zones : List Bounds) (size : Nat) : BuddyM (Option Nat) :=
  Program.firstSome (List.range zones.length) (allocIn blockSize size)

/-- Give a block back to a zone, if it lies inside of it. -/
def freeIn (blockSize allocation size : Nat) (zone : Bounds × Nat) : BuddyM Unit := do
  if allocation ≥ zone.1.start then
    let stop ← checkedAdd allocation size
    let zoneStop ← checkedAdd zone.1.start zone.1.size
    if stop ≤ zoneStop then do
      buddyFree zone.2 allocation (size / blockSize)
      fetchSub zone.2 size
    else pure ()
  else pure ()

/-- Give a block back to every zone that it lies inside of. -/
def free (blockSize : Nat) (zones : List Bounds) (allocation size : Nat) : BuddyM Unit :=
  Program.forEach zones.zipIdx (freeIn blockSize allocation size)

/-- Total amount of memory managed by the allocator.  To get free space, use
`totalMemory` - `allocatedMemory`. -/
def totalMemory (zones : List Bounds) : BuddyM Nat :=
  Program.foldEach zones (fun acc zone => checkedAdd acc zone.size) 0

/-- The amount of allocated memory. -/
def allocatedMemory (zones : List Bounds) : BuddyM Nat :=
  Program.foldEach (List.range zones.length)
    (fun acc zone => do
      let value ← load zone
      checkedAdd acc value) 0

end ZonedBuddy

/-! ## The third-party buddy allocator -/

/-- The methods of `BuddyAlloc` that are called. -/
structure BuddyAlloc (B : Type) where
  alloc : B → Nat → Option Nat × B
  free : B → Nat → Nat → B

/-- The addresses of `count` blocks at `addr`. -/
def blockBytes (blockSize : Nat) (block : Nat × Nat) : Set Nat :=
  Set.Ico block.1 (block.1 + block.2 * blockSize)

/-- What is assumed of `BuddyAlloc`: an instance has a range of blocks, and a power of two
of blocks that it hands out lies inside of the range and apart from what it has handed
out and not got back. -/
structure BuddySpec {B : Type} (blockSize : Nat) (buddy : BuddyAlloc B) where
  /-- First address and number of blocks of the range -/
  range : B → Nat × Nat
  /-- Address and number of blocks of each outstanding allocation -/
  blocks : B → Multiset (Nat × Nat)
  alloc_range : ∀ state count, range (buddy.alloc state count).2 = range state
  free_range : ∀ state addr count, range (buddy.free state addr count) = range state
  alloc_none : ∀ {state count after}, buddy.alloc state count = (none, after) →
    blocks after = blocks state
  alloc_some : ∀ {state count addr after}, buddy.alloc state count = (some addr, after) →
    blocks after = (addr, count) ::ₘ blocks state
  alloc_inside : ∀ {state count addr after}, count.isPowerOfTwo →
    buddy.alloc state count = (some addr, after) →
      blockBytes blockSize (addr, count) ⊆ blockBytes blockSize (range state)
  alloc_apart : ∀ {state count addr after}, count.isPowerOfTwo →
    buddy.alloc state count = (some addr, after) → ∀ block ∈ blocks state,
      Disjoint (blockBytes blockSize (addr, count)) (blockBytes blockSize block)
  free_blocks : ∀ {state addr count}, (addr, count) ∈ blocks state →
    blocks (buddy.free state addr count) = (blocks state).erase (addr, count)

/-! ## The effect of the operations -/

section Handler

variable {B α : Type}

/-- Update one zone and return an answer. -/
def onZone (zones : List (Zone B)) (index : Nat) (update : Zone B → α × Zone B) :
    Option (α × List (Zone B)) :=
  zones[index]?.map fun zone => ((update zone).1, zones.set index (update zone).2)

/-- The operations on the zones.  Counters wrap around. -/
def buddyHandler (buddy : BuddyAlloc B) : Handler buddySig (List (Zone B))
  | .buddyAlloc index blocks, zones => onZone zones index fun zone =>
      ((buddy.alloc zone.buddy blocks).1,
        { zone with buddy := (buddy.alloc zone.buddy blocks).2 })
  | .buddyFree index addr blocks, zones => onZone zones index fun zone =>
      ((), { zone with buddy := buddy.free zone.buddy addr blocks })
  | .fetchAdd index amount, zones => onZone zones index fun zone =>
      ((), { zone with allocated := (zone.allocated + amount) % 2 ^ usizeBits })
  | .fetchSub index amount, zones => onZone zones index fun zone =>
      ((), { zone with
        allocated := (zone.allocated + (2 ^ usizeBits - amount)) % 2 ^ usizeBits })
  | .load index, zones => onZone zones index fun zone => (zone.allocated, zone)

theorem onZone_of_get {zones : List (Zone B)} {index : Nat} {zone : Zone B}
    (found : zones[index]? = some zone) (update : Zone B → α × Zone B) :
    onZone zones index update =
      some ((update zone).1, zones.set index (update zone).2) := by
  rw [onZone, found, Option.map_some]

/-- No operation changes the bounds of a zone. -/
theorem bounds_set {zones : List (Zone B)} {index : Nat} {zone after : Zone B}
    (found : zones[index]? = some zone) (same : after.bounds = zone.bounds) :
    (zones.set index after).map Zone.bounds = zones.map Zone.bounds := by
  apply List.ext_getElem?
  intro other
  rw [List.map_set, List.getElem?_set, List.getElem?_map, List.length_map]
  split
  next equal =>
    subst equal
    rw [found, Option.map_some, ← same]
    obtain ⟨inside, _⟩ := List.getElem?_eq_some_iff.mp found
    rw [if_pos inside]
  next => rfl

end Handler

/-! ## The steps of a call -/

namespace ZonedBuddy

section Steps

variable {blockSize size : Nat}

/-- The search for a block, one zone at a time. -/
theorem firstSome_cons (zone : Nat) (rest : List Nat) :
    Program.firstSome (zone :: rest) (allocIn blockSize size) =
      .call (.buddyAlloc zone (size / blockSize)) fun answer =>
        match answer with
        | some addr => .call (.fetchAdd zone size) fun _ => .ret (some addr)
        | none => Program.firstSome rest (allocIn blockSize size) := by
  rw [Program.firstSome]
  change Program.call _ _ = Program.call _ _
  congr 1
  funext answer
  cases answer with
  | none => rfl
  | some addr => rfl

/-- The block lies inside of the bounds. -/
def Holds (addr size : Nat) (zone : Bounds) : Prop :=
  zone.start ≤ addr ∧ addr + size ≤ zone.start + zone.size

instance (addr size : Nat) (zone : Bounds) : Decidable (Holds addr size zone) :=
  inferInstanceAs (Decidable (_ ∧ _))

variable {addr : Nat} {zone : Bounds}

/-- One iteration of `free`, where no sum overflows. -/
theorem freeIn_eq (fits : zone.start + zone.size < 2 ^ usizeBits)
    (blockFits : addr + size < 2 ^ usizeBits) (index : Nat) :
    freeIn blockSize addr size (zone, index) =
      if Holds addr size zone then
        .call (.buddyFree index addr (size / blockSize)) fun _ =>
          .call (.fetchSub index size) fun _ => .ret ()
      else .ret () := by
  rw [freeIn, checkedAdd_of_lt blockFits, Program.ret_bind, checkedAdd_of_lt fits,
    Program.ret_bind]
  by_cases above : zone.start ≤ addr
  · by_cases below : addr + size ≤ zone.start + zone.size
    · have inside : Holds addr size zone := ⟨above, below⟩
      rw [if_pos above, if_pos below, if_pos inside]
      rfl
    · have outside : ¬Holds addr size zone := fun inside => below inside.2
      rw [if_pos above, if_neg below, if_neg outside]
      rfl
  · have outside : ¬Holds addr size zone := fun inside => above inside.1
    rw [if_neg above, if_neg outside]
    rfl

/-- Zones that the block is not in are skipped. -/
theorem free_skips {zones : List Bounds} (index : Nat)
    (fits : ∀ zone ∈ zones, zone.start + zone.size < 2 ^ usizeBits)
    (blockFits : addr + size < 2 ^ usizeBits)
    (outside : ∀ zone ∈ zones, ¬Holds addr size zone) :
    Program.forEach (zones.zipIdx index) (freeIn blockSize addr size) = .ret () := by
  induction zones generalizing index with
  | nil => rfl
  | cons zone rest ih =>
      rw [List.zipIdx_cons, Program.forEach, freeIn_eq (fits zone (by simp)) blockFits,
        if_neg (outside zone (by simp)), Program.ret_bind]
      exact ih (index + 1) (fun other member => fits other (by simp [member]))
        fun other member => outside other (by simp [member])

/-- A block is inside of one of several disjoint zones at most. -/
theorem not_holds_of_disjoint {left right : Bounds} (positive : 0 < size)
    (apart : Disjoint left.bytes right.bytes) (inside : Holds addr size left) :
    ¬Holds addr size right := by
  intro alsoInside
  have first : addr ∈ left.bytes := ⟨inside.1, by
    change addr < left.start + left.size
    have := inside.2
    omega⟩
  have second : addr ∈ right.bytes := ⟨alsoInside.1, by
    change addr < right.start + right.size
    have := alsoInside.2
    omega⟩
  exact Set.disjoint_left.mp apart first second

/-- `free` reaches exactly the zone that the block is in. -/
theorem free_eq {zones : List Bounds} {index : Nat} (positive : 0 < size)
    (found : zones[index]? = some zone) (inside : Holds addr size zone)
    (fits : ∀ zone ∈ zones, zone.start + zone.size < 2 ^ usizeBits)
    (apart : zones.Pairwise fun left right => Disjoint left.bytes right.bytes) :
    free blockSize zones addr size =
      .call (.buddyFree index addr (size / blockSize)) fun _ =>
        .call (.fetchSub index size) fun _ => .ret () := by
  have blockFits : addr + size < 2 ^ usizeBits :=
    lt_of_le_of_lt inside.2 (fits zone (List.mem_of_getElem? found))
  have fromIndex : ∀ start, Program.forEach (zones.zipIdx start) (freeIn blockSize addr size) =
      .call (.buddyFree (start + index) addr (size / blockSize)) fun _ =>
        .call (.fetchSub (start + index) size) fun _ => .ret () := by
    induction zones generalizing index with
    | nil => cases found
    | cons head rest ih =>
        intro start
        obtain ⟨headApart, restApart⟩ := List.pairwise_cons.mp apart
        have restFits : ∀ zone ∈ rest, zone.start + zone.size < 2 ^ usizeBits :=
          fun other member => fits other (by simp [member])
        rw [List.zipIdx_cons, Program.forEach, freeIn_eq (fits head (by simp)) blockFits]
        cases index with
        | zero =>
            rw [List.getElem?_cons_zero, Option.some.injEq] at found
            subst found
            rw [if_pos inside, free_skips (start + 1) restFits blockFits fun other member =>
              not_holds_of_disjoint positive (headApart other member) inside]
            rfl
        | succ index =>
            rw [List.getElem?_cons_succ] at found
            have notHere := not_holds_of_disjoint positive
              (headApart zone (List.mem_of_getElem? found)).symm inside
            rw [if_neg notHere, Program.ret_bind, ih found restFits restApart (start + 1)]
            rw [Nat.add_assoc, Nat.add_comm 1]
  have whole := fromIndex 0
  rw [Nat.zero_add] at whole
  exact whole

end Steps

end ZonedBuddy

end SatanKernel
