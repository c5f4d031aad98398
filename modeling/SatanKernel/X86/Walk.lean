import SatanKernel.X86.AddressSpace

/-!
# The hardware page walk

What the processor does with the tables, written from the 32-bit two-level paging
mode with page-size extensions that the boot code enables: bits 22..31 of an
address select an entry of the page directory, bits 12..21 one of a page table.
An entry's frame is in its bits 12..31, or 22..31 where `PS` makes it a 4 MiB page.
An access is allowed to user mode, or to write, only if every entry of the walk
allows it.

A directory is well formed when its tables form a tree.
-/

namespace SatanKernel.X86

open Lib

namespace PTEntry

/-- Bits 12..31. -/
def frame (entry : PTEntry) : Nat := entry.word.toNat / 0x1000 * 0x1000

/-- Bits 22..31. -/
def largeFrame (entry : PTEntry) : Nat := entry.word.toNat / 0x400000 * 0x400000

/-- A directory entry that refers to a page table. -/
def isTable (entry : PTEntry) : Bool := entry.flags.p && !entry.flags.ps

/-- A directory entry that maps a 4 MiB page. -/
def isLarge (entry : PTEntry) : Bool := entry.flags.p && entry.flags.ps

/-- What `PageTableEntry::mapped` says of a leaf entry. -/
def isMapped (entry : PTEntry) : Bool := entry.flags.p || entry.address != 0

theorem isTable_present {entry : PTEntry} (table : entry.isTable = true) :
    entry.flags.p = true := by
  simp only [isTable, Bool.and_eq_true] at table
  exact table.1

theorem isTable_ps {entry : PTEntry} (table : entry.isTable = true) :
    entry.flags.ps = false := by
  simp only [isTable, Bool.and_eq_true, Bool.not_eq_true'] at table
  exact table.2

/-- A directory entry is a table, a large page or not present. -/
theorem isTable_or (entry : PTEntry) :
    entry.isTable = true ∨ entry.isLarge = true ∨ entry.flags.p = false := by
  unfold isTable isLarge
  cases entry.flags.p <;> cases entry.flags.ps <;> simp

theorem isLarge_not_isTable {entry : PTEntry} (large : entry.isLarge = true) :
    entry.isTable = false := by
  simp only [isLarge, Bool.and_eq_true] at large
  simp [isTable, large.2]

theorem not_present_not_isTable {entry : PTEntry} (absent : entry.flags.p = false) :
    entry.isTable = false := by
  simp [isTable, absent]

/-- Where the mask of the source leaves an aligned address, it is the frame. -/
theorem address_eq_frame {entry : PTEntry} (aligned : entry.address % 0x1000 = 0) :
    entry.address = entry.frame := by
  rw [address_eq] at aligned ⊢
  unfold frame
  omega

theorem frame_aligned (entry : PTEntry) : entry.frame % 0x1000 = 0 := by
  unfold frame
  omega

end PTEntry

/-- Bits 22..31 of an address. -/
def dirIndex (vaddr : Nat) : Nat := vaddr / 0x400000 % 0x400

/-- Bits 12..21 of an address. -/
def tableIndex (vaddr : Nat) : Nat := vaddr / 0x1000 % 0x400

theorem dirIndex_lt (vaddr : Nat) : dirIndex vaddr < 0x400 :=
  Nat.mod_lt _ (by decide)

theorem tableIndex_lt (vaddr : Nat) : tableIndex vaddr < 0x400 :=
  Nat.mod_lt _ (by decide)

/-- The result of a successful walk. -/
structure Translation where
  paddr : Nat
  /-- Flags of the entry that maps the page -/
  leaf : PTEFlags
  /-- Whether user mode may access the page -/
  user : Bool
  /-- Whether the page may be written -/
  writable : Bool
  deriving DecidableEq, Repr

/-- The last step of a walk, given the directory entry and the table entry that
the address selects. -/
def walkEntries (pde pte : PTEntry) (vaddr : Nat) : Option Translation :=
  if pde.flags.p then
    if pde.flags.ps then
      some ⟨pde.largeFrame + vaddr % 0x400000, pde.flags, pde.flags.us, pde.flags.rw⟩
    else if pte.flags.p then
      some ⟨pte.frame + vaddr % 0x1000, pte.flags,
        pde.flags.us && pte.flags.us, pde.flags.rw && pte.flags.rw⟩
    else none
  else none

/-- Translate an address with the page directory in the frame at `root`; `none` is
a page fault. -/
def walk (memory : Memory) (root vaddr : Nat) : Option Translation :=
  let pde := memory root (dirIndex vaddr)
  walkEntries pde (memory pde.frame (tableIndex vaddr)) vaddr

/-- The page tables below the directory at `root` form a tree: they are in frames of
their own, at addresses that the tables' entries hold exactly. -/
structure WellFormed (memory : Memory) (root : Nat) : Prop where
  root_aligned : root % 0x1000 = 0
  table_aligned : ∀ i < 0x400, (memory root i).isTable = true →
    (memory root i).address % 0x1000 = 0
  table_ne_root : ∀ i < 0x400, (memory root i).isTable = true →
    (memory root i).frame ≠ root
  table_injective : ∀ i < 0x400, ∀ j < 0x400, (memory root i).isTable = true →
    (memory root j).isTable = true →
    (memory root i).frame = (memory root j).frame → i = j

/-- `frame` is the directory or one of its tables. -/
def IsTableFrame (memory : Memory) (root frame : Nat) : Prop :=
  frame = root ∨ ∃ i < 0x400, (memory root i).isTable = true ∧
    (memory root i).frame = frame

/-! ## Walks that see the same entries -/

theorem walk_of_large {memory : Memory} {root vaddr : Nat}
    (large : (memory root (dirIndex vaddr)).isLarge = true) :
    walk memory root vaddr =
      some ⟨(memory root (dirIndex vaddr)).largeFrame + vaddr % 0x400000,
        (memory root (dirIndex vaddr)).flags,
        (memory root (dirIndex vaddr)).flags.us,
        (memory root (dirIndex vaddr)).flags.rw⟩ := by
  simp only [PTEntry.isLarge, Bool.and_eq_true] at large
  simp [walk, walkEntries, large.1, large.2]

theorem walk_of_not_present {memory : Memory} {root vaddr : Nat}
    (absent : (memory root (dirIndex vaddr)).flags.p = false) :
    walk memory root vaddr = none := by
  simp [walk, walkEntries, absent]

theorem walk_of_table {memory : Memory} {root vaddr : Nat}
    (table : (memory root (dirIndex vaddr)).isTable = true) :
    walk memory root vaddr =
      (let pde := memory root (dirIndex vaddr)
       let pte := memory pde.frame (tableIndex vaddr)
       if pte.flags.p then
        some ⟨pte.frame + vaddr % 0x1000, pte.flags,
          pde.flags.us && pte.flags.us, pde.flags.rw && pte.flags.rw⟩
       else none) := by
  simp [walk, walkEntries, PTEntry.isTable_present table, PTEntry.isTable_ps table]

/-- A walk depends only on the directory entry and, where that is a table, on the
entry that the address selects in it. -/
theorem walk_congr {before after : Memory} {root vaddr : Nat}
    (directory : after root (dirIndex vaddr) = before root (dirIndex vaddr))
    (table : (before root (dirIndex vaddr)).isTable = true →
      after (before root (dirIndex vaddr)).frame (tableIndex vaddr) =
        before (before root (dirIndex vaddr)).frame (tableIndex vaddr)) :
    walk after root vaddr = walk before root vaddr := by
  rcases (before root (dirIndex vaddr)).isTable_or with isTable | large | absent
  · simp only [walk, directory, table isTable]
  · rw [walk_of_large large, walk_of_large (directory ▸ large), directory]
  · rw [walk_of_not_present absent, walk_of_not_present (directory ▸ absent)]

end SatanKernel.X86
