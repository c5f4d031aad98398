import SatanKernel.X86.Operations

/-!
# Updates of the tables of an address space

The page-table code changes memory in four ways: it overwrites an entry of a table,
clears a fresh frame, links a cleared frame as a table, and overwrites a directory
entry.  For each of them this module says which walks it changes and that the
tables still form a tree.
-/

namespace SatanKernel.X86

open Lib

variable {memory : Memory} {root : Nat}

/-- A frame that could become a table: 4 KiB aligned and not yet part of the tree. -/
structure FreshFrame (memory : Memory) (root frame : Nat) : Prop where
  aligned : frame % 0x1000 = 0
  bounded : frame < 0x100000000
  unused : ¬IsTableFrame memory root frame

namespace FreshFrame

variable {frame : Nat}

theorem ne_root (fresh : FreshFrame memory root frame) : frame ≠ root :=
  fun equal => fresh.unused (.inl equal)

theorem ne_table (fresh : FreshFrame memory root frame) {i : Nat} (inside : i < 0x400)
    (table : (memory root i).isTable = true) : (memory root i).frame ≠ frame :=
  fun equal => fresh.unused (.inr ⟨i, inside, table, equal⟩)

end FreshFrame

/-- Memory in which `frame` has been cleared and linked as the table of directory
entry `i`. -/
def Memory.link (memory : Memory) (root i frame : Nat) : Memory :=
  (memory.clear frame).write root i (.newPageTable frame)

namespace WellFormed

/-- A table frame is the decoded address of its directory entry. -/
theorem table_address (wf : WellFormed memory root) {i : Nat} (inside : i < 0x400)
    (table : (memory root i).isTable = true) :
    (memory root i).address = (memory root i).frame :=
  PTEntry.address_eq_frame (wf.table_aligned i inside table)

/-- Changing no directory entry keeps the tree. -/
theorem of_directory_eq (wf : WellFormed memory root) {after : Memory}
    (same : ∀ i < 0x400, after root i = memory root i) : WellFormed after root where
  root_aligned := wf.root_aligned
  table_aligned i inside table := by
    rw [same i inside] at table ⊢
    exact wf.table_aligned i inside table
  table_ne_root i inside table := by
    rw [same i inside] at table ⊢
    exact wf.table_ne_root i inside table
  table_injective i iInside j jInside iTable jTable equal := by
    rw [same i iInside] at iTable equal
    rw [same j jInside] at jTable equal
    exact wf.table_injective i iInside j jInside iTable jTable equal

/-- Overwriting a directory entry with one that is no table keeps the tree. -/
theorem write_directory (wf : WellFormed memory root) (i : Nat) {entry : PTEntry}
    (notTable : entry.isTable = false) :
    WellFormed (memory.write root i entry) root := by
  have survives : ∀ j, (memory.write root i entry root j).isTable = true →
      j ≠ i ∧ memory.write root i entry root j = memory root j := by
    intro j table
    have different : j ≠ i := by
      intro equal
      rw [equal, Memory.write_self, notTable] at table
      cases table
    exact ⟨different, Memory.write_of_index_ne memory root root entry different⟩
  constructor
  · exact wf.root_aligned
  · intro j inside table
    have same := (survives j table).2
    rw [same] at table ⊢
    exact wf.table_aligned j inside table
  · intro j inside table
    have same := (survives j table).2
    rw [same] at table ⊢
    exact wf.table_ne_root j inside table
  · intro j jInside k kInside jTable kTable equal
    have jSame := (survives j jTable).2
    have kSame := (survives k kTable).2
    rw [jSame] at jTable equal
    rw [kSame] at kTable equal
    exact wf.table_injective j jInside k kInside jTable kTable equal

theorem write_table (wf : WellFormed memory root) {frame : Nat}
    (notRoot : frame ≠ root) (index : Nat) (entry : PTEntry) :
    WellFormed (memory.write frame index entry) root :=
  wf.of_directory_eq fun i _ =>
    Memory.write_of_frame_ne memory index entry (Ne.symm notRoot) i

theorem clear (wf : WellFormed memory root) {frame : Nat} (notRoot : frame ≠ root) :
    WellFormed (memory.clear frame) root :=
  wf.of_directory_eq fun i _ =>
    Memory.clear_of_frame_ne memory (Ne.symm notRoot) i

end WellFormed

/-! ## Linking a fresh frame -/

section Link

variable {frame : Nat}

theorem newPageTable_isTable (aligned : frame % 0x1000 = 0) :
    (PTEntry.newPageTable frame).isTable = true := by
  simp [PTEntry.isTable, PTEntry.newPageTable_flags aligned]

theorem newPageTable_frame (aligned : frame % 0x1000 = 0)
    (bounded : frame < 0x100000000) : (PTEntry.newPageTable frame).frame = frame := by
  unfold PTEntry.frame
  rw [PTEntry.newPageTable_word bounded aligned]
  omega

theorem newPageTable_address (aligned : frame % 0x1000 = 0)
    (bounded : frame < 0x100000000) :
    (PTEntry.newPageTable frame).address = frame := by
  rw [PTEntry.address_eq, PTEntry.newPageTable_word bounded aligned]
  omega

theorem link_directory_self (memory : Memory) (root i frame : Nat) :
    memory.link root i frame root i = .newPageTable frame := by
  simp [Memory.link]

theorem link_directory_of_ne (fresh : FreshFrame memory root frame) {i j : Nat}
    (different : j ≠ i) : memory.link root i frame root j = memory root j := by
  rw [Memory.link, Memory.write_of_index_ne _ _ _ _ different,
    Memory.clear_of_frame_ne _ (Ne.symm fresh.ne_root)]

/-- The linked table is empty. -/
theorem link_frame_self (fresh : FreshFrame memory root frame) (i : Nat)
    {index : Nat} (inside : index < 0x400) :
    memory.link root i frame frame index = .NULL := by
  rw [Memory.link, Memory.write_of_frame_ne _ _ _ fresh.ne_root,
    Memory.clear_self memory frame inside]

theorem link_of_frame_ne (memory : Memory) (i : Nat) {other : Nat}
    (notRoot : other ≠ root) (notFrame : other ≠ frame) (index : Nat) :
    memory.link root i frame other index = memory other index := by
  rw [Memory.link, Memory.write_of_frame_ne _ _ _ notRoot,
    Memory.clear_of_frame_ne _ notFrame]

/-- Linking a fresh frame keeps the tree. -/
theorem WellFormed.link (wf : WellFormed memory root)
    (fresh : FreshFrame memory root frame) (i : Nat) :
    WellFormed (memory.link root i frame) root := by
  have atSelf : memory.link root i frame root i = .newPageTable frame :=
    link_directory_self memory root i frame
  have linkedFrame := newPageTable_frame fresh.aligned fresh.bounded
  constructor
  · exact wf.root_aligned
  · intro j inside table
    by_cases same : j = i
    · rw [same, atSelf, newPageTable_address fresh.aligned fresh.bounded]
      exact fresh.aligned
    · rw [link_directory_of_ne fresh same] at table ⊢
      exact wf.table_aligned j inside table
  · intro j inside table
    by_cases same : j = i
    · rw [same, atSelf, linkedFrame]
      exact fresh.ne_root
    · rw [link_directory_of_ne fresh same] at table ⊢
      exact wf.table_ne_root j inside table
  · intro j jInside k kInside jTable kTable equal
    by_cases jSame : j = i
    · by_cases kSame : k = i
      · rw [jSame, kSame]
      · rw [jSame, atSelf, linkedFrame, link_directory_of_ne fresh kSame] at equal
        rw [link_directory_of_ne fresh kSame] at kTable
        exact absurd equal.symm (fresh.ne_table kInside kTable)
    · by_cases kSame : k = i
      · rw [kSame, atSelf, linkedFrame, link_directory_of_ne fresh jSame] at equal
        rw [link_directory_of_ne fresh jSame] at jTable
        exact absurd equal (fresh.ne_table jInside jTable)
      · rw [link_directory_of_ne fresh jSame] at jTable equal
        rw [link_directory_of_ne fresh kSame] at kTable equal
        exact wf.table_injective j jInside k kInside jTable kTable equal

/-- Linking an empty table in place of an entry that is not present changes no
translation. -/
theorem walk_link (wf : WellFormed memory root)
    (fresh : FreshFrame memory root frame) {i : Nat}
    (absent : (memory root i).flags.p = false) (vaddr : Nat) :
    walk (memory.link root i frame) root vaddr = walk memory root vaddr := by
  by_cases same : dirIndex vaddr = i
  · have empty : walk memory root vaddr = none :=
      walk_of_not_present (same ▸ absent)
    have linked : memory.link root i frame root (dirIndex vaddr) =
        .newPageTable frame := by
      rw [same, link_directory_self]
    have table : (memory.link root i frame root (dirIndex vaddr)).isTable = true := by
      rw [linked, newPageTable_isTable fresh.aligned]
    rw [empty, walk_of_table table]
    simp only [linked, newPageTable_frame fresh.aligned fresh.bounded,
      link_frame_self fresh i (tableIndex_lt vaddr)]
    simp
  · apply walk_congr
    · exact link_directory_of_ne fresh same
    · intro table
      apply link_of_frame_ne
      · exact wf.table_ne_root _ (dirIndex_lt vaddr) table
      · exact fresh.ne_table (dirIndex_lt vaddr) table

end Link

/-! ## Walks after an update -/

/-- Clearing a fresh frame changes no translation. -/
theorem walk_clear {frame : Nat} (fresh : FreshFrame memory root frame) (vaddr : Nat) :
    walk (memory.clear frame) root vaddr = walk memory root vaddr := by
  apply walk_congr
  · exact Memory.clear_of_frame_ne memory (Ne.symm fresh.ne_root) _
  · intro table
    exact Memory.clear_of_frame_ne memory
      (fresh.ne_table (dirIndex_lt vaddr) table) _

/-- Overwriting an entry of a table changes the walks that select this entry. -/
theorem walk_write_table (wf : WellFormed memory root) {i : Nat} (inside : i < 0x400)
    (table : (memory root i).isTable = true) (index : Nat) (entry : PTEntry)
    (vaddr : Nat) :
    walk (memory.write (memory root i).frame index entry) root vaddr =
      if dirIndex vaddr = i ∧ tableIndex vaddr = index then
        walkEntries (memory root i) entry vaddr
      else walk memory root vaddr := by
  have notRoot := wf.table_ne_root i inside table
  have directorySame : ∀ j,
      memory.write (memory root i).frame index entry root j = memory root j :=
    Memory.write_of_frame_ne memory index entry (Ne.symm notRoot)
  split
  next selected =>
    obtain ⟨rfl, rfl⟩ := selected
    simp only [walk, directorySame, Memory.write_self]
  next other =>
    apply walk_congr (directorySame _)
    intro otherTable
    by_cases sameTable : dirIndex vaddr = i
    · have indexNe : tableIndex vaddr ≠ index := fun equal => other ⟨sameTable, equal⟩
      exact Memory.write_of_index_ne _ _ _ _ indexNe
    · have frameNe : (memory root (dirIndex vaddr)).frame ≠ (memory root i).frame :=
        fun equal => sameTable
          (wf.table_injective _ (dirIndex_lt vaddr) i inside otherTable table equal)
      exact Memory.write_of_frame_ne _ _ _ frameNe _

/-- Overwriting a directory entry changes the walks of its region. -/
theorem walk_write_directory (wf : WellFormed memory root) (i : Nat)
    (entry : PTEntry) {vaddr : Nat} (other : dirIndex vaddr ≠ i) :
    walk (memory.write root i entry) root vaddr = walk memory root vaddr := by
  apply walk_congr
  · exact Memory.write_of_index_ne _ _ _ _ other
  · intro table
    exact Memory.write_of_frame_ne _ _ _
      (wf.table_ne_root _ (dirIndex_lt vaddr) table) _

/-! ## Address arithmetic -/

/-- Two addresses select the same directory entry when they are in the same
4 MiB region. -/
theorem dirIndex_eq_iff {left right : Nat} (leftBound : left < 0x100000000)
    (rightBound : right < 0x100000000) :
    dirIndex left = dirIndex right ↔ left / 0x400000 = right / 0x400000 := by
  unfold dirIndex
  omega

/-- Two addresses select the same directory and table entries when they are in the
same 4 KiB page. -/
theorem indices_eq_iff {left right : Nat} (leftBound : left < 0x100000000)
    (rightBound : right < 0x100000000) :
    (dirIndex left = dirIndex right ∧ tableIndex left = tableIndex right) ↔
      left / 0x1000 = right / 0x1000 := by
  unfold dirIndex tableIndex
  omega

end SatanKernel.X86
