import SatanKernel.Memory.Basic

/-!
# Nested page tables

The architecture-independent page-table code of
`memory/address_space/nested_page_table.rs`: mapping one page, unmapping a range
and allocating a mapped range, written against an abstract page-table level.

The trait's required methods and the allocator's methods are the atomic
operations of the programs below; an architecture supplies their handler.  The
recursion over levels is bounded by an explicit `depth`, the number of levels
that the architecture has.
-/

namespace SatanKernel

open Lib

/-- Page table entry returned. -/
inductive PageTableEntry (L : Type) where
  /-- Page table entry maps to the next level page table -/
  | level (level : L)
  /-- Page table entry identity maps (regular or large/huge pages) -/
  | page (addr : Nat) (flags : MappingFlags)
  deriving DecidableEq, Repr

namespace PageTableEntry

variable {L : Type}

def NULL : PageTableEntry L := .page 0 .empty

/-- Whether the entry is mapped to somewhere (maybe even swapped), or free. -/
def mapped : PageTableEntry L → Bool
  | .level _ => true
  | .page addr flags => flags.present || addr != 0

end PageTableEntry

/-- The part of a page-table level that does not touch memory. -/
class NestedPageTableLevel (S : outParam Type) [PageSizeTrait S] (L : Type) where
  /-- Size of a page, or of the region that a sub-level page table manages -/
  regionSize : L → Nat

/-- Required methods of a page-table level and of the allocator. -/
inductive PageTableOp (L S : Type) where
  | alloc (size : S)
  | free (addr : Nat) (size : S)
  | newSublevel (level : L)
  | freeSublevel (level sublevel : L)
  | setEntry (level : L) (vaddr : Nat) (entry : PageTableEntry L)
  | getEntry (level : L) (vaddr : Nat)
  deriving DecidableEq, Repr

/-- The type each of them returns. -/
abbrev PageTableOp.Answer {L S : Type} : PageTableOp L S → Type
  | .alloc _ => Option Nat
  | .free _ _ => Unit
  | .newSublevel _ => Option L
  | .freeSublevel _ _ => MappingResult Unit
  | .setEntry _ _ _ => MappingResult Unit
  | .getEntry _ _ => MappingResult (PageTableEntry L)

abbrev pageTableSig (L S : Type) : Signature := ⟨PageTableOp L S, PageTableOp.Answer⟩

/-- Page-table code over levels `L` and page sizes `S`. -/
abbrev PageTableM (L S : Type) := Program (pageTableSig L S) MappingError

section Operations

variable {L S : Type}

def alloc (size : S) : PageTableM L S (Option Nat) :=
  .call (.alloc size) .ret

def free (addr : Nat) (size : S) : PageTableM L S Unit :=
  .call (.free addr size) .ret

/-- `new_sublevel(alloc).ok_or(MappingError::PageAllocationFailed)?`. -/
def newSublevel (self : L) : PageTableM L S L :=
  .call (.newSublevel self) fun answer =>
    match answer with
    | some level => .ret level
    | none => .throw .pageAllocationFailed

def freeSublevel (self sublevel : L) : PageTableM L S Unit :=
  .call (.freeSublevel self sublevel) .ofExcept

def setEntry (self : L) (vaddr : Nat) (entry : PageTableEntry L) :
    PageTableM L S Unit :=
  .call (.setEntry self vaddr entry) .ofExcept

def getEntry (self : L) (vaddr : Nat) : PageTableM L S (PageTableEntry L) :=
  .call (.getEntry self vaddr) .ofExcept

end Operations

variable {L S : Type} [PageSizeTrait S] [NestedPageTableLevel S L]

open NestedPageTableLevel

/-- Page size of this layer, if a page can be mapped here. -/
def pageSize (self : L) : Option S := PageSizeTrait.tryFrom (regionSize self)

/-! ## Mapping a page -/

/-- The table below `self` that covers `vaddr`, created if the entry is free. -/
def nextLevel (self : L) (vaddr : Nat) : PageTableM L S L := do
  match ← getEntry self vaddr with
  | .page addr flags =>
      if flags.present then
        .throw (.mappingOver addr)
      else do
        let level ← newSublevel self
        setEntry self vaddr (.level level)
        pure level
  | .level level => pure level

/-- Map a single (possibly large/huge) page. -/
def mapPage [DecidableEq S] (depth : Nat) (self : L) (vaddr : Nat)
    (paddr : Nat) (size : S) (flags : MappingFlags) : PageTableM L S Unit :=
  match depth with
  | 0 => .panic
  | depth + 1 =>
      if pageSize self = some size then
        setEntry self vaddr (.page paddr flags)
      else do
        let level ← nextLevel self vaddr
        mapPage depth level vaddr paddr size flags

/-! ## Unmapping a range -/

/-- `page < vaddr || page + region_size > vaddr + size`, with the short-circuit
evaluation of `||`. -/
def cutByRange (vaddr size page region : Nat) : PageTableM L S Bool :=
  if page < vaddr then
    pure true
  else do
    let pageEnd ← checkedAdd page region
    let rangeEnd ← checkedAdd vaddr size
    pure (decide (pageEnd > rangeEnd))

/-- Unmap the part of a partly covered region that the range reaches. -/
def unmapPart (recurse : L → Nat → Nat → PageTableM L S Unit)
    (vaddr size page region : Nat) (level : L) : PageTableM L S Unit :=
  if page < vaddr then do
    let pageEnd ← checkedAdd page region
    let length ← checkedSub pageEnd vaddr
    recurse level vaddr length
  else do
    let rangeEnd ← checkedAdd vaddr size
    let length ← checkedSub rangeEnd page
    recurse level page length

/-- Whether any entry of the table for the region at `page` is mapped. -/
def anyMapped (page : Nat) (region : Nat) (level : L) :
    PageTableM L S Bool := do
  let stop ← checkedAdd page region
  Program.anyOf (stepBy page stop (regionSize level)) fun entryAddr => do
    let entry ← getEntry level entryAddr
    pure entry.mapped

/-- Free a table and clear the entry that pointed to it. -/
def unlinkSublevel (self : L) (page : Nat) (level : L) :
    PageTableM L S Unit := do
  freeSublevel self level
  setEntry self page .NULL

/-- A region that the range cuts: unmap its part, and unlink its table if no mapped
entry is left. -/
def unmapCutTable (recurse : L → Nat → Nat → PageTableM L S Unit) (self : L)
    (vaddr size page : Nat) (level : L) : PageTableM L S Unit := do
  unmapPart recurse vaddr size page (regionSize self) level
  let mapped ← anyMapped page (regionSize self) level
  if mapped then pure () else unlinkSublevel self page level

/-- A region inside the range: unmap all of it and unlink its table. -/
def unmapWholeTable (recurse : L → Nat → Nat → PageTableM L S Unit) (self : L)
    (page : Nat) (level : L) : PageTableM L S Unit := do
  recurse level page (regionSize self)
  unlinkSublevel self page level

/-- A present page inside the range: free its frame and clear its entry. -/
def freePage (self : L) (page paddr : Nat) : PageTableM L S Unit := do
  let ownSize ← Program.unwrap (pageSize self)
  free paddr ownSize
  setEntry self page .NULL

/-- One iteration of the loop of `unmap_free`. -/
def unmapRegion (recurse : L → Nat → Nat → PageTableM L S Unit) (self : L)
    (vaddr size page : Nat) : PageTableM L S Unit := do
  let entry ← getEntry self page
  let cut ← cutByRange vaddr size page (regionSize self)
  match cut, entry with
  | true, .level level => unmapCutTable recurse self vaddr size page level
  | true, .page paddr flags =>
      if flags.present then .throw (.unmappingPartOfLargePage paddr) else pure ()
  | false, .level level => unmapWholeTable recurse self page level
  | false, .page paddr flags =>
      if flags.present then freePage self page paddr else pure ()

/-- Unmap a range and give its frames back to the allocator. -/
def unmapFree (depth : Nat) (self : L) (vaddr : Nat) (size : Nat) :
    PageTableM L S Unit :=
  match depth with
  | 0 => .panic
  | depth + 1 => do
      let start := alignDown vaddr (regionSize self)
      let rangeEnd ← checkedAdd vaddr size
      let stop ← alignUp rangeEnd (regionSize self)
      Program.forEach (stepBy start stop (regionSize self))
        (unmapRegion (unmapFree depth) self vaddr size)

/-! ## Allocating a mapped range -/

/-- One iteration of the loop of `map_alloc`. -/
def mapAllocPage [DecidableEq S] (depth : Nat) (top : L) (vaddr : Nat)
    (flags : MappingFlags) (page : Nat) : PageTableM L S Unit := do
  let offset ← checkedMul page (PageSizeTrait.into (PageSizeTrait.MIN : S))
  let target ← checkedAdd vaddr offset
  let frame ← alloc (PageSizeTrait.MIN : S)
  let frame ← Program.unwrap frame
  mapPage depth top target frame PageSizeTrait.MIN flags

/-- Allocate frames for a range and map them page by page. -/
def mapAlloc [DecidableEq S] (depth : Nat) (top : L) (vaddr : Nat)
    (size : Nat) (flags : MappingFlags) : PageTableM L S Nat := do
  Program.forEach (List.range (size / PageSizeTrait.into (PageSizeTrait.MIN : S)))
    (mapAllocPage depth top vaddr flags)
  pure vaddr

end SatanKernel
