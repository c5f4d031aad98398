import SatanKernel.X86.PageTableEntry

/-!
# x86 address spaces

The 32-bit configuration of `arch/x86/paging/address_space.rs`: page-table levels
that live in physical frames, and the handler of the page-table operations on
them.  Every access to a table goes through the temporary page, whose `map`
asserts that the frame is 4 KiB aligned; a failed assertion is a panic.
-/

namespace SatanKernel.X86

open Lib NestedPageTableLevel

/-- Number of bits each table takes off the virtual address. -/
def pageLevelBits : Nat := 10

/-- Number of page table entries in a page table. -/
def pageTableEntries : Nat := 1 <<< pageLevelBits

/-- Number of page-table levels. -/
def levels : Nat := 2

/-- A page table in a physical frame, and the number of address bits below it. -/
structure PageTableLevel where
  paddr : Nat
  shift : Nat
  deriving DecidableEq, Repr

instance : NestedPageTableLevel PageSize PageTableLevel where
  regionSize self := 1 <<< self.shift

/-- Programs over x86 page tables. -/
abbrev PagingM := PageTableM PageTableLevel PageSize

/-- Frames read as page tables: the entry at an index of the frame at an
address. -/
abbrev Memory := Nat → Nat → PTEntry

namespace Memory

/-- Overwrite one entry. -/
def write (memory : Memory) (frame index : Nat) (entry : PTEntry) : Memory :=
  fun otherFrame otherIndex =>
    if otherFrame = frame ∧ otherIndex = index then entry
    else memory otherFrame otherIndex

/-- Overwrite all entries of a frame with the null entry. -/
def clear (memory : Memory) (frame : Nat) : Memory :=
  fun otherFrame otherIndex =>
    if otherFrame = frame ∧ otherIndex < pageTableEntries then .NULL
    else memory otherFrame otherIndex

@[simp] theorem write_self (memory : Memory) (frame index : Nat) (entry : PTEntry) :
    memory.write frame index entry frame index = entry := by
  simp [write]

theorem write_of_frame_ne (memory : Memory) {frame other : Nat} (index : Nat)
    (entry : PTEntry) (different : other ≠ frame) (otherIndex : Nat) :
    memory.write frame index entry other otherIndex = memory other otherIndex := by
  simp [write, different]

theorem write_of_index_ne (memory : Memory) (frame other : Nat)
    {index otherIndex : Nat} (entry : PTEntry) (different : otherIndex ≠ index) :
    memory.write frame index entry other otherIndex = memory other otherIndex := by
  simp [write, different]

theorem clear_of_frame_ne (memory : Memory) {frame other : Nat}
    (different : other ≠ frame) (index : Nat) :
    memory.clear frame other index = memory other index := by
  simp [clear, different]

theorem clear_self (memory : Memory) (frame : Nat) {index : Nat}
    (inside : index < pageTableEntries) :
    memory.clear frame frame index = .NULL := by
  simp [clear, inside]

end Memory

/-- Physical memory and the allocator that manages it. -/
structure State (A : Type) where
  memory : Memory
  allocator : A

namespace PageTableLevel

/-- Index of the entry for `vaddr`, as `lock_entry` computes it. -/
def index (self : PageTableLevel) (vaddr : Nat) : Nat :=
  (vaddr >>> self.shift) &&& (pageTableEntries - 1)

/-- `get_entry` on the word that was read. -/
def decode (self : PageTableLevel) (entry : PTEntry) :
    PageTableEntry PageTableLevel :=
  if entry.flags.p && decide (self.shift > 12) && !entry.flags.ps then
    .level ⟨entry.address, self.shift - pageLevelBits⟩
  else
    .page entry.address entry.flags.toMapping

/-- The word that `set_entry` stores; `none` where `page_size().unwrap()` panics. -/
def encode (self : PageTableLevel) :
    PageTableEntry PageTableLevel → Option PTEntry
  | .level level => some (.newPageTable level.paddr)
  | .page paddr flags =>
      (pageSize self).map fun size => .newPage paddr size (.ofMapping flags)

end PageTableLevel

section Operations

variable {A : Type} [PageAllocatorTrait PageSize A]

/-- `new_sublevel`: allocate a frame and clear it. -/
def handleNewSublevel (self : PageTableLevel) (state : State A) :
    Option (Option PageTableLevel × State A) :=
  match PageAllocatorTrait.alloc state.allocator PageSize.size4K with
  | (none, allocator) => some (none, { state with allocator })
  | (some addr, allocator) =>
      if addr % 0x1000 = 0 then
        some (some ⟨addr, self.shift - pageLevelBits⟩,
          { memory := state.memory.clear addr, allocator })
      else none

/-- `set_entry`: refuse to overwrite an entry with `PS` set above the last level. -/
def handleSetEntry (self : PageTableLevel) (vaddr : Nat)
    (entry : PageTableEntry PageTableLevel) (state : State A) :
    Option (MappingResult Unit × State A) :=
  let old := state.memory self.paddr (self.index vaddr)
  let unaligned := match entry with
    | .page _ _ => decide (vaddr % regionSize self ≠ 0)
    | .level _ => false
  if unaligned || self.paddr % 0x1000 != 0 then none
  else if decide (self.shift > 12) && old.flags.ps then
    some (.error (.mappingOver old.address), state)
  else
    (self.encode entry).map fun word =>
      (.ok (), { state with
        memory := state.memory.write self.paddr (self.index vaddr) word })

/-- `get_entry`. -/
def handleGetEntry (self : PageTableLevel) (vaddr : Nat) (state : State A) :
    Option (MappingResult (PageTableEntry PageTableLevel) × State A) :=
  if self.paddr % 0x1000 = 0 then
    some (.ok (self.decode (state.memory self.paddr (self.index vaddr))), state)
  else none

/-- The page-table operations of x86. -/
def handler : Handler (pageTableSig PageTableLevel PageSize) (State A)
  | .alloc size, state =>
      let (answer, allocator) := PageAllocatorTrait.alloc state.allocator size
      some (answer, { state with allocator })
  | .free addr size, state =>
      some ((), { state with
        allocator := PageAllocatorTrait.free state.allocator addr size })
  | .newSublevel self, state => handleNewSublevel self state
  | .freeSublevel _ sublevel, state =>
      some (.ok (), { state with
        allocator :=
          PageAllocatorTrait.free state.allocator sublevel.paddr PageSize.size4K })
  | .setEntry self vaddr entry, state => handleSetEntry self vaddr entry state
  | .getEntry self vaddr, state => handleGetEntry self vaddr state

end Operations

/-- An address space is its top-level page table. -/
structure AddressSpace where
  topLevel : PageTableLevel
  deriving DecidableEq, Repr

namespace AddressSpace

/-- The address space whose top-level table is in the frame at `addr`. -/
def fromPaddr (addr : Nat) : AddressSpace := ⟨⟨addr, 22⟩⟩

/-- Allocate and map a region of memory into the address space. -/
def mapAlloc (self : AddressSpace) (vaddr size : Nat) (flags : MappingFlags) :
    PagingM Nat :=
  SatanKernel.mapAlloc levels self.topLevel vaddr size flags

/-- Unmap a region of memory from the address space and mark it as free. -/
def unmapFree (self : AddressSpace) (vaddr size : Nat) : PagingM Unit :=
  SatanKernel.unmapFree levels self.topLevel vaddr size

/-- `map_page` on the top-level table. -/
def mapPage (self : AddressSpace) (vaddr paddr : Nat) (size : PageSize)
    (flags : MappingFlags) : PagingM Unit :=
  SatanKernel.mapPage levels self.topLevel vaddr paddr size flags

end AddressSpace

end SatanKernel.X86
