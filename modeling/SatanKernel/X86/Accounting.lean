import SatanKernel.X86.Runs

/-!
# Accounting for frames

In orderly use, where `map_alloc` is only asked to map ranges in which nothing is
mapped and every call returns `Ok`, the frames that the address space has taken from
the allocator are exactly those that its tables refer to.  Nothing is leaked, and
unmapping what was mapped gives everything back.
-/

namespace SatanKernel.X86

open Lib NestedPageTableLevel
open Lib.Program (run)

/-- An entry as `map_alloc` writes it with `PRESENT` and without `GLOBAL`. -/
structure OrderlyLeaf (entry : PTEntry) : Prop where
  plain : PlainLeaf entry
  present : entry.flags.p = true

/-- Some place in the page tables refers to the frame. -/
def Referenced (memory : Memory) (root frame : Nat) : Prop :=
  ∃ place entry, Refers memory root place entry ∧ entry.frame = frame

/-- The outstanding frames are those that were outstanding before the address space took
any, and those that it refers to. -/
structure Accounted (base : Set Nat) (memory : Memory) (root : Nat)
    (outstanding : Set Nat) : Prop where
  owned : Owned OrderlyLeaf memory root outstanding
  kept : base ⊆ outstanding
  apart : ∀ frame, Referenced memory root frame → frame ∉ base
  noLeak : ∀ frame ∈ outstanding, frame ∈ base ∨ Referenced memory root frame

/-- No entry of the page's table is in the way of the page. -/
def PageFree (memory : Memory) (root page : Nat) : Prop :=
  (memory root (dirIndex page)).isTable = true →
    (memory (memory root (dirIndex page)).frame (tableIndex page)).isMapped = false

section Updates

variable {memory : Memory} {root : Nat} {place : Reference} {entry : PTEntry}

/-- Writing an entry of a table keeps the references of other places. -/
theorem Refers.write_table {i index : Nat} (wf : WellFormed memory root) (inside : i < 0x400)
    (table : (memory root i).isTable = true) (word : PTEntry)
    (elsewhere : place ≠ .leaf i index) (refers : Refers memory root place entry) :
    Refers (memory.write (memory root i).frame index word) root place entry := by
  have notRoot := wf.table_ne_root i inside table
  have sameDirectory : ∀ j,
      memory.write (memory root i).frame index word root j = memory root j :=
    fun j => Memory.write_of_frame_ne _ _ _ (Ne.symm notRoot) j
  cases place with
  | table j =>
      simp only [Refers, sameDirectory]
      exact refers
  | leaf j otherIndex =>
      obtain ⟨jInside, indexInside, jTable, entryEq, mapped⟩ := refers
      simp only [Refers, sameDirectory]
      refine ⟨jInside, indexInside, jTable, ?_, mapped⟩
      rw [Memory.write, if_neg]
      · exact entryEq
      · intro same
        apply elsewhere
        rw [wf.table_injective j jInside i inside jTable table same.1, same.2]

/-- Linking a table in place of an entry that is not one keeps all references. -/
theorem Refers.link {i frame : Nat} (wf : WellFormed memory root)
    (fresh : FreshFrame memory root frame) (notTable : (memory root i).isTable = false)
    (refers : Refers memory root place entry) :
    Refers (memory.link root i frame) root place entry := by
  have different : ∀ j, (memory root j).isTable = true → j ≠ i := by
    intro j jTable same
    rw [same, notTable] at jTable
    cases jTable
  cases place with
  | table j =>
      obtain ⟨jInside, entryEq, jTable⟩ := refers
      refine ⟨jInside, ?_, jTable⟩
      rw [link_directory_of_ne fresh (different j (entryEq ▸ jTable)), entryEq]
  | leaf j index =>
      obtain ⟨jInside, indexInside, jTable, entryEq, mapped⟩ := refers
      simp only [Refers, link_directory_of_ne fresh (different j jTable)]
      refine ⟨jInside, indexInside, jTable, ?_, mapped⟩
      rw [link_of_frame_ne memory i (wf.table_ne_root j jInside jTable)
        (fresh.ne_table jInside jTable), entryEq]

/-- Clearing pages of a table drops the references of those that are present. -/
theorem Refers.clearPages {i : Nat} (wf : WellFormed memory root) (inside : i < 0x400)
    (table : (memory root i).isTable = true) (pages : List Nat)
    (refers : Refers memory root place entry) :
    Refers (memory.clearPages (memory root i).frame pages) root place entry ∨
      ∃ page ∈ pages, (memory (memory root i).frame (tableIndex page)).flags.p = true ∧
        place = .leaf i (tableIndex page) ∧
        entry = memory (memory root i).frame (tableIndex page) := by
  have sameDirectory : ∀ j,
      memory.clearPages (memory root i).frame pages root j = memory root j :=
    fun j => clearPages_of_frame_ne _ _ (Ne.symm (wf.table_ne_root i inside table)) _ j
  cases place with
  | table j =>
      apply Or.inl
      simp only [Refers, sameDirectory]
      exact refers
  | leaf j index =>
      obtain ⟨jInside, indexInside, jTable, entryEq, mapped⟩ := refers
      simp only [Refers, sameDirectory]
      by_cases same : j = i
      · subst same
        by_cases cleared : (memory (memory root j).frame index).flags.p = true ∧
            ∃ page ∈ pages, tableIndex page = index
        · obtain ⟨present, page, member, indexEq⟩ := cleared
          subst indexEq
          exact Or.inr ⟨page, member, present, rfl, entryEq.symm⟩
        · apply Or.inl
          refine ⟨jInside, indexInside, jTable, ?_, mapped⟩
          rw [clearPages_self, if_neg cleared, entryEq]
      · apply Or.inl
        refine ⟨jInside, indexInside, jTable, ?_, mapped⟩
        rw [clearPages_of_frame_ne, entryEq]
        intro equal
        exact same (wf.table_injective j jInside i inside jTable table equal)

/-- Unlinking a table drops its own reference and those of its entries. -/
theorem Refers.unlink {i : Nat} (wf : WellFormed memory root)
    (elsewhere : place ≠ .table i ∧ ∀ index, place ≠ .leaf i index)
    (refers : Refers memory root place entry) :
    Refers (memory.write root i unlinkedEntry) root place entry := by
  cases place with
  | table j =>
      obtain ⟨jInside, entryEq, jTable⟩ := refers
      have different : j ≠ i := fun same => elsewhere.1 (by rw [same])
      refine ⟨jInside, ?_, jTable⟩
      rw [Memory.write_of_index_ne _ _ _ _ different, entryEq]
  | leaf j index =>
      obtain ⟨jInside, indexInside, jTable, entryEq, mapped⟩ := refers
      have different : j ≠ i := fun same => elsewhere.2 index (by rw [same])
      simp only [Refers, Memory.write_of_index_ne _ _ _ _ different]
      refine ⟨jInside, indexInside, jTable, ?_, mapped⟩
      rw [Memory.write_of_frame_ne _ _ _ (wf.table_ne_root j jInside jTable), entryEq]

end Updates

namespace Accounted

variable {base outstanding : Set Nat} {memory after : Memory} {root : Nat}

/-- An update that drops references to the frames it gives back. -/
theorem release {freed : Set Nat} (accounted : Accounted base memory root outstanding)
    (owned : Owned OrderlyLeaf after root (outstanding \ freed))
    (referenced : ∀ frame ∈ freed, Referenced memory root frame)
    (dropped : ∀ place entry, Refers after root place entry →
      Refers memory root place entry)
    (remains : ∀ place entry, Refers memory root place entry →
      Refers after root place entry ∨ entry.frame ∈ freed) :
    Accounted base after root (outstanding \ freed) := by
  constructor
  · exact owned
  · intro frame inBase
    refine ⟨accounted.kept inBase, ?_⟩
    intro inFreed
    exact accounted.apart frame (referenced frame inFreed) inBase
  · intro frame found
    obtain ⟨place, entry, refers, frameEq⟩ := found
    exact accounted.apart frame ⟨place, entry, dropped place entry refers, frameEq⟩
  · intro frame remaining
    cases accounted.noLeak frame remaining.1 with
    | inl inBase => exact Or.inl inBase
    | inr found =>
        obtain ⟨place, entry, refers, frameEq⟩ := found
        cases remains place entry refers with
        | inl still => exact Or.inr ⟨place, entry, still, frameEq⟩
        | inr inFreed =>
            rw [frameEq] at inFreed
            exact absurd inFreed remaining.2

/-- An update that adds a reference to a frame it has taken. -/
theorem acquire {frame : Nat} {newPlace : Reference} {newEntry : PTEntry}
    (accounted : Accounted base memory root outstanding)
    (owned : Owned OrderlyLeaf after root (insert frame outstanding))
    (notOutstanding : frame ∉ outstanding)
    (added : Refers after root newPlace newEntry) (frameEq : newEntry.frame = frame)
    (onlyNew : ∀ place entry, Refers after root place entry →
      Refers memory root place entry ∨ entry.frame = frame)
    (remains : ∀ place entry, Refers memory root place entry →
      Refers after root place entry) :
    Accounted base after root (insert frame outstanding) := by
  constructor
  · exact owned
  · exact accounted.kept.trans (Set.subset_insert _ _)
  · intro other found
    obtain ⟨place, entry, refers, otherEq⟩ := found
    cases onlyNew place entry refers with
    | inl old => exact accounted.apart other ⟨place, entry, old, otherEq⟩
    | inr isNew =>
        rw [← otherEq, isNew]
        exact fun inBase => notOutstanding (accounted.kept inBase)
  · intro other isOutstanding
    cases isOutstanding with
    | inl same =>
        subst same
        exact Or.inr ⟨newPlace, newEntry, added, frameEq⟩
    | inr before =>
        cases accounted.noLeak other before with
        | inl inBase => exact Or.inl inBase
        | inr found =>
            obtain ⟨place, entry, refers, otherEq⟩ := found
            exact Or.inr ⟨place, entry, remains place entry refers, otherEq⟩

/-! ## Mapping a page -/

theorem write_leaf (accounted : Accounted base memory root outstanding) {i index frame : Nat}
    {flags : MappingFlags} (inside : i < 0x400) (indexInside : index < 0x400)
    (table : (memory root i).isTable = true)
    (free : (memory (memory root i).frame index).isMapped = false)
    (aligned : frame % 0x1000 = 0) (bounded : frame < 0x100000000)
    (notRoot : frame ≠ root) (notOutstanding : frame ∉ outstanding)
    (shaped : OrderlyLeaf (leafEntry frame flags)) :
    Accounted base (memory.write (memory root i).frame index (leafEntry frame flags)) root
      (insert frame outstanding) := by
  have wf := accounted.owned.wf
  have frameEq : (leafEntry frame flags).frame = frame :=
    PTEntry.newPage_4K_frame bounded aligned _
  have sameEntry : memory.write (memory root i).frame index (leafEntry frame flags) root i =
      memory root i :=
    Memory.write_of_frame_ne _ _ _ (Ne.symm (wf.table_ne_root i inside table)) _
  have added : Refers (memory.write (memory root i).frame index (leafEntry frame flags)) root
      (.leaf i index) (leafEntry frame flags) := by
    simp only [Refers, sameEntry]
    refine ⟨inside, indexInside, table, Memory.write_self _ _ _ _, ?_⟩
    rw [PTEntry.isMapped, shaped.present]
    rfl
  apply accounted.acquire (accounted.owned.write_leaf index flags inside table aligned bounded
    notRoot notOutstanding shaped) notOutstanding added frameEq
  · intro place entry refers
    cases refers.of_write_table wf inside table with
    | inl old => exact Or.inl old
    | inr isNew => exact Or.inr (by rw [isNew.2, frameEq])
  · intro place entry refers
    apply refers.write_table wf inside table
    intro same
    subst same
    obtain ⟨_, _, _, entryEq, mapped⟩ := refers
    rw [← entryEq, free] at mapped
    cases mapped

theorem link (accounted : Accounted base memory root outstanding) {i frame : Nat}
    (inside : i < 0x400) (notTable : (memory root i).isTable = false)
    (aligned : frame % 0x1000 = 0) (bounded : frame < 0x100000000)
    (notRoot : frame ≠ root) (notOutstanding : frame ∉ outstanding) :
    Accounted base (memory.link root i frame) root (insert frame outstanding) := by
  have wf := accounted.owned.wf
  have fresh := freshFrame_of_not_outstanding accounted.owned.tables aligned bounded notRoot
    notOutstanding
  have frameEq := newPageTable_frame aligned bounded
  have added : Refers (memory.link root i frame) root (.table i) (.newPageTable frame) :=
    ⟨inside, link_directory_self _ _ _ _, newPageTable_isTable aligned⟩
  apply accounted.acquire (accounted.owned.link i aligned bounded notRoot notOutstanding)
    notOutstanding added frameEq
  · intro place entry refers
    cases refers.of_link wf fresh with
    | inl old => exact Or.inl old
    | inr isNew => exact Or.inr (by rw [isNew.2, frameEq])
  · intro place entry refers
    exact refers.link wf fresh notTable

variable {A : Type} [PageAllocatorTrait PageSize A] {ledger : FrameLedger A root}
  {state after : State A} {page : Nat} {flags : MappingFlags}

/-- An iteration of `map_alloc` that succeeds takes the frames that it refers to. -/
theorem mapsFrame
    (accounted : Accounted base state.memory root (ledger.outstanding state.allocator))
    (free : PageFree state.memory root page)
    (shaped : ∀ frame, frame % 0x1000 = 0 → frame < 0x100000000 →
      OrderlyLeaf (leafEntry frame flags))
    (ending : MapsFrame state root page flags (.ok (), after)) :
    Accounted base after.memory root (ledger.outstanding after.allocator) := by
  have inside := dirIndex_lt page
  have indexInside := tableIndex_lt page
  cases ending with
  | @mapped allocator frame finished answered ending =>
      obtain ⟨aligned, bounded, _, notRoot, notOutstanding⟩ := ledger.alloc_frame answered
      have taken := ledger.alloc_some answered
      have frameShape := shaped frame aligned bounded
      cases ending with
      | existingTable table =>
          rw [taken]
          exact accounted.write_leaf inside indexInside table (free table) aligned bounded
            notRoot notOutstanding frameShape
      | @newTable absent allocator' tableFrame allocated ps =>
          obtain ⟨tableAligned, tableBounded, _, tableNotRoot, tableFree⟩ :=
            ledger.alloc_frame allocated
          have tableTaken := ledger.alloc_some allocated
          rw [taken] at tableTaken tableFree
          have tableNotOutstanding : tableFrame ∉ ledger.outstanding state.allocator :=
            fun isOutstanding => tableFree (Set.mem_insert_of_mem _ isOutstanding)
          have fresh := freshFrame_of_not_outstanding accounted.owned.tables tableAligned
            tableBounded tableNotRoot tableNotOutstanding
          have linked := accounted.link inside (PTEntry.not_present_not_isTable absent)
            tableAligned tableBounded tableNotRoot tableNotOutstanding
          have entryEq : state.memory.link root (dirIndex page) tableFrame root
              (dirIndex page) = .newPageTable tableFrame := link_directory_self _ _ _ _
          have frameEq := newPageTable_frame tableAligned tableBounded
          have isTable : (state.memory.link root (dirIndex page) tableFrame root
              (dirIndex page)).isTable = true := by
            rw [entryEq]
            exact newPageTable_isTable tableAligned
          have empty : (state.memory.link root (dirIndex page) tableFrame
              (state.memory.link root (dirIndex page) tableFrame root (dirIndex page)).frame
              (tableIndex page)).isMapped = false := by
            rw [entryEq, frameEq, link_frame_self fresh (dirIndex page) indexInside]
            decide
          have unused : frame ∉ insert tableFrame (ledger.outstanding state.allocator) := by
            intro member
            cases member with
            | inl same =>
                rw [same] at tableFree
                exact tableFree (Set.mem_insert _ _)
            | inr isOutstanding => exact notOutstanding isOutstanding
          have written := linked.write_leaf inside indexInside isTable empty aligned bounded
            notRoot unused frameShape
          rw [entryEq, frameEq, Set.insert_comm] at written
          rw [tableTaken]
          exact written

/-! ## Unmapping a range -/

/-- Clearing present pages and giving their frames back. -/
theorem clearPages (accounted : Accounted base memory root outstanding) {i : Nat}
    (inside : i < 0x400) (table : (memory root i).isTable = true) (pages : List Nat) :
    Accounted base (memory.clearPages (memory root i).frame pages) root
      (outstanding \ addresses (leafFrames memory (memory root i).frame pages)) := by
  have wf := accounted.owned.wf
  have leaf : ∀ page, (memory (memory root i).frame (tableIndex page)).flags.p = true →
      Refers memory root (.leaf i (tableIndex page))
        (memory (memory root i).frame (tableIndex page)) := fun page present =>
    ⟨inside, tableIndex_lt page, table, rfl, by rw [PTEntry.isMapped, present]; rfl⟩
  have frameOf : ∀ page, (memory (memory root i).frame (tableIndex page)).flags.p = true →
      (memory (memory root i).frame (tableIndex page)).address =
        (memory (memory root i).frame (tableIndex page)).frame := fun page present =>
    PTEntry.address_eq_frame (accounted.owned.shaped _ _ _ (leaf page present)).plain
  have members : ∀ frame, frame ∈ addresses (leafFrames memory (memory root i).frame pages) ↔
      ∃ page, (page ∈ pages ∧
        (memory (memory root i).frame (tableIndex page)).flags.p = true) ∧
        (memory (memory root i).frame (tableIndex page)).address = frame := by
    intro frame
    simp only [addresses, leafFrames, List.map_map, Set.mem_ofPred_eq, List.mem_map,
      List.mem_filter, Function.comp_apply]
  apply accounted.release (accounted.owned.clearPages inside table pages)
  · intro frame freed
    obtain ⟨page, ⟨_, present⟩, addressEq⟩ := (members frame).mp freed
    exact ⟨_, _, leaf page present, by rw [← frameOf page present, addressEq]⟩
  · intro place entry refers
    exact (refers.of_clearPages wf inside table).1
  · intro place entry refers
    cases refers.clearPages wf inside table pages with
    | inl still => exact Or.inl still
    | inr dropped =>
        obtain ⟨page, member, present, _, entryEq⟩ := dropped
        apply Or.inr
        rw [members]
        exact ⟨page, ⟨member, present⟩, by rw [entryEq, frameOf page present]⟩

/-- Unlinking an empty table and giving its frame back. -/
theorem unlink (accounted : Accounted base memory root outstanding) {i : Nat}
    (inside : i < 0x400) (table : (memory root i).isTable = true)
    (empty : ∀ index < 0x400, (memory (memory root i).frame index).isMapped = false) :
    Accounted base (memory.write root i unlinkedEntry) root
      (outstanding \ {(memory root i).frame}) := by
  have wf := accounted.owned.wf
  apply accounted.release (accounted.owned.unlink inside table)
  · intro frame freed
    exact ⟨.table i, _, ⟨inside, rfl, table⟩, (Set.mem_singleton_iff.mp freed).symm⟩
  · intro place entry refers
    exact (refers.of_unlink wf).1
  · intro place entry refers
    by_cases isTable : place = .table i
    · subst isTable
      obtain ⟨_, entryEq, _⟩ := refers
      exact Or.inr (by rw [← entryEq]; rfl)
    · refine Or.inl (refers.unlink wf ⟨isTable, ?_⟩)
      intro index same
      subst same
      obtain ⟨_, indexInside, _, entryEq, mapped⟩ := refers
      rw [← entryEq, empty index indexInside] at mapped
      cases mapped

/-- A table that is unlinked has no mapped entry left. -/
theorem cleared_unused (accounted : Accounted base memory root outstanding)
    {vaddr size region : Nat} (visits : Visits vaddr size region)
    (table : (memory root (dirIndex region)).isTable = true)
    (unused : CutsRegion vaddr size region → tableInUse
      (memory.clearPages (memory root (dirIndex region)).frame
        (partPages vaddr size region)) (memory root (dirIndex region)).frame = false)
    {index : Nat} (indexInside : index < 0x400) :
    (memory.clearPages (memory root (dirIndex region)).frame (partPages vaddr size region)
      (memory root (dirIndex region)).frame index).isMapped = false := by
  have onRegion := visits.onRegion
  by_cases cut : CutsRegion vaddr size region
  · have notInUse := unused cut
    by_contra mapped
    rw [Bool.not_eq_false] at mapped
    rw [tableInUse_iff.mpr ⟨index, indexInside, mapped⟩] at notInUse
    cases notInUse
  · obtain ⟨start, stop⟩ := part_of_whole cut
    have covered : ∃ page ∈ partPages vaddr size region, tableIndex page = index := by
      refine ⟨region + index * 0x1000, ?_, tableIndex_add onRegion indexInside⟩
      rw [mem_partPages, start, stop]
      omega
    rw [clearPages_self]
    split
    next => decide
    next notCleared =>
      by_contra mapped
      rw [Bool.not_eq_false] at mapped
      have shaped := accounted.owned.shaped (dirIndex region) index _
        ⟨dirIndex_lt region, indexInside, table, rfl, mapped⟩
      exact notCleared ⟨shaped.present, covered⟩

theorem regionEffect (accounted : Accounted base memory root outstanding)
    {vaddr size region : Nat} (visits : Visits vaddr size region) :
    Accounted base (regionEffect memory root vaddr size region).memory root
      (outstanding \ addresses (X86.regionEffect memory root vaddr size region).freed) := by
  have inside := dirIndex_lt region
  have small := accounted.owned.not_large inside
  have unchanged : Accounted base memory root (outstanding \ addresses []) := by
    rw [addresses_nil, Set.sdiff_empty]
    exact accounted
  have ending := regionEnding memory root vaddr size region
  generalize X86.regionEffect memory root vaddr size region = effect at ending ⊢
  cases ending with
  | idle absent => exact unchanged
  | cutLarge large cut => exact unchanged
  | wholeLarge large whole =>
      rw [small] at large
      cases large
  | stopped table framed split passes stops =>
      subst framed
      exact accounted.clearPages inside table _
  | kept table framed complete cut inUse =>
      subst framed
      exact accounted.clearPages inside table _
  | unlinked table framed complete unused =>
      subst framed
      have cleared := accounted.clearPages inside table (partPages vaddr size region)
      have sameEntry := clearPages_of_frame_ne memory _
        (Ne.symm (accounted.owned.wf.table_ne_root _ inside table))
        (partPages vaddr size region) (dirIndex region)
      have unlinked := cleared.unlink inside (by rw [sameEntry]; exact table) (by
        intro index indexInside
        rw [sameEntry]
        exact accounted.cleared_unused visits table unused indexInside)
      rw [sameEntry, Set.sdiff_sdiff] at unlinked
      rw [addresses_append, addresses_cons, addresses_nil, insert_empty_eq]
      exact unlinked

theorem regionsEffect (accounted : Accounted base memory root outstanding)
    {vaddr size : Nat} {regions : List Nat}
    (visits : ∀ region ∈ regions, Visits vaddr size region) :
    Accounted base (regionsEffect memory root vaddr size regions).memory root
      (outstanding \
        addresses (X86.regionsEffect memory root vaddr size regions).freed) := by
  induction regions generalizing memory outstanding with
  | nil =>
      simp only [X86.regionsEffect, addresses_nil, Set.sdiff_empty]
      exact accounted
  | cons region regions ih =>
      have head := accounted.regionEffect (visits region (by simp))
      rw [X86.regionsEffect]
      split
      next succeeded =>
        rw [addresses_append, ← Set.sdiff_sdiff]
        exact ih head fun other member => visits other (by simp [member])
      next => exact head

end Accounted

/-- A directory without entries refers to nothing. -/
theorem accounted_empty {memory : Memory} {root : Nat} (rootAligned : root % 0x1000 = 0)
    (empty : ∀ i < 0x400, memory root i = .NULL) (outstanding : Set Nat) :
    Accounted outstanding memory root outstanding := by
  have nothing : ∀ frame, ¬Referenced memory root frame := by
    intro frame found
    obtain ⟨place, entry, refers, _⟩ := found
    cases place with
    | table i =>
        obtain ⟨inside, entryEq, table⟩ := refers
        rw [← entryEq, empty i inside] at table
        cases table
    | leaf i index =>
        obtain ⟨inside, _, table, _⟩ := refers
        rw [empty i inside] at table
        cases table
  exact ⟨owned_empty rootAligned empty outstanding, fun _ inside => inside,
    fun frame found => absurd found (nothing frame), fun _ inside => Or.inl inside⟩

/-! ## Mapping a range -/

section Range

variable {A : Type} [PageAllocatorTrait PageSize A] {root : Nat} {state after : State A}
  {page other : Nat} {flags : MappingFlags}

/-- Mapping a page puts nothing in the way of other pages. -/
theorem MapsSmallPage.pageFree_other {frame : Nat} (wf : WellFormed state.memory root)
    (fresh : AllocatesFresh state root)
    (mapped : MapsSmallPage state root page frame flags (.ok (), after))
    (different : ¬(dirIndex other = dirIndex page ∧ tableIndex other = tableIndex page))
    (free : PageFree state.memory root other) : PageFree after.memory root other := by
  have inside := dirIndex_lt other
  intro otherTable
  cases mapped with
  | existingTable table =>
      have sameEntry : state.memory.write (state.memory root (dirIndex page)).frame
          (tableIndex page) (leafEntry frame flags) root (dirIndex other) =
            state.memory root (dirIndex other) :=
        Memory.write_of_frame_ne _ _ _
          (Ne.symm (wf.table_ne_root _ (dirIndex_lt page) table)) _
      simp only [sameEntry] at otherTable ⊢
      rw [Memory.write, if_neg]
      · exact free otherTable
      · intro same
        exact different ⟨wf.table_injective _ inside _ (dirIndex_lt page) otherTable table
          same.1, same.2⟩
  | @newTable absent allocator tableFrame allocated ps =>
      have freshFrame := fresh tableFrame allocator allocated
      have sameDirectory : ∀ i, (state.memory.link root (dirIndex page) tableFrame).write
          tableFrame (tableIndex page) (leafEntry frame flags) root i =
            state.memory.link root (dirIndex page) tableFrame root i :=
        fun i => Memory.write_of_frame_ne _ _ _ (Ne.symm freshFrame.ne_root) i
      simp only [sameDirectory] at otherTable ⊢
      by_cases sameRegion : dirIndex other = dirIndex page
      · have otherIndex : tableIndex other ≠ tableIndex page :=
          fun sameIndex => different ⟨sameRegion, sameIndex⟩
        rw [sameRegion, link_directory_self,
          newPageTable_frame freshFrame.aligned freshFrame.bounded,
          Memory.write_of_index_ne _ _ _ _ otherIndex,
          link_frame_self freshFrame _ (tableIndex_lt other)]
        decide
      · rw [link_directory_of_ne freshFrame sameRegion] at otherTable ⊢
        have otherFrame := freshFrame.ne_table inside otherTable
        rw [Memory.write_of_frame_ne _ _ _ otherFrame,
          link_of_frame_ne _ _ (wf.table_ne_root _ inside otherTable) otherFrame]
        exact free otherTable

/-- The pages that a loop of `map_alloc` still has to map. -/
structure PagesFree (memory : Memory) (root vaddr : Nat) (numbers : List Nat) : Prop where
  distinct : numbers.Nodup
  free : ∀ k ∈ numbers, vaddr + k * 0x1000 < 0x100000000 →
    PageFree memory root (vaddr + k * 0x1000)

variable {base : Set Nat} {ledger : FrameLedger A root} {vaddr : Nat}

/-- The loop of `map_alloc` takes the frames that it refers to. -/
theorem accounted_loop {numbers : List Nat}
    (accounted : Accounted base state.memory root (ledger.outstanding state.allocator))
    (shaped : ∀ frame, frame % 0x1000 = 0 → frame < 0x100000000 →
      OrderlyLeaf (leafEntry frame flags))
    (pages : PagesFree state.memory root vaddr numbers)
    (returned : run handler (Program.forEach numbers
      (mapAllocPage levels (directory root) vaddr flags)) state = (.ok (), after)) :
    Accounted base after.memory root (ledger.outstanding after.allocator) := by
  refine (Program.forEach_returned handler (fun numbers (state : State A) =>
    Accounted base state.memory root (ledger.outstanding state.allocator) ∧
      PagesFree state.memory root vaddr numbers) ?_ ⟨accounted, pages⟩ returned).1
  intro k rest state after held first
  obtain ⟨accounted, pages⟩ := held
  have bounded : vaddr + k * 0x1000 < 0x100000000 := by
    by_contra overflow
    rw [mapAllocPage_overflow flags overflow, Program.run_panic] at first
    cases first
  rw [mapAllocPage_eq flags bounded] at first
  have ready := mapsFrame_or_panic ledger (vaddr + k * 0x1000) flags accounted.owned.wf
    accounted.owned.tables
  rw [first] at ready
  cases ready with
  | inl panicked => cases panicked
  | inr ending =>
      refine ⟨accounted.mapsFrame (pages.free k (by simp) bounded) shaped ending, ?_⟩
      obtain ⟨notMember, distinct⟩ := List.nodup_cons.mp pages.distinct
      refine ⟨distinct, ?_⟩
      intro j member jBounded
      have different : ¬(dirIndex (vaddr + j * 0x1000) = dirIndex (vaddr + k * 0x1000) ∧
          tableIndex (vaddr + j * 0x1000) = tableIndex (vaddr + k * 0x1000)) := by
        rw [indices_eq_iff jBounded bounded]
        intro samePage
        have same : j = k := by omega
        exact notMember (same ▸ member)
      cases ending with
      | @mapped allocator frame finished answered ending =>
          have ready : MapReady ledger { state with allocator } :=
            ⟨accounted.owned.wf,
              tablesOutstanding_alloc ledger accounted.owned.tables answered⟩
          exact ending.pageFree_other ready.wf (ledger.allocatesFresh ready.tables)
            different (pages.free j (by simp [member]) jBounded)

/-- Where nothing translates, nothing is in the way of a page. -/
theorem Accounted.pageFree {memory : Memory} {outstanding : Set Nat}
    (accounted : Accounted base memory root outstanding)
    (unmapped : walk memory root page = none) : PageFree memory root page := by
  intro table
  by_contra mapped
  rw [Bool.not_eq_false] at mapped
  have shaped := accounted.owned.shaped _ _ _
    ⟨dirIndex_lt page, tableIndex_lt page, table, rfl, mapped⟩
  exact walk_ne_none_iff.mpr (Or.inr ⟨table, shaped.present⟩) unmapped

theorem orderlyLeaf_leafEntry (present : flags.present = true)
    (notGlobal : flags.global = false) {frame : Nat} (aligned : frame % 0x1000 = 0)
    (bounded : frame < 0x100000000) : OrderlyLeaf (leafEntry frame flags) := by
  refine ⟨plainLeaf_leafEntry notGlobal aligned bounded, ?_⟩
  rw [leafEntry, PTEntry.newPage_4K_flags aligned]
  exact present

/-- `map_alloc` on a range in which nothing is mapped. -/
theorem accounted_mapAlloc {size value : Nat}
    (accounted : Accounted base state.memory root (ledger.outstanding state.allocator))
    (free : ∀ query < 0x100000000, vaddr ≤ query → query < vaddr + size →
      walk state.memory root query = none)
    (present : flags.present = true) (notGlobal : flags.global = false)
    (returned : run handler ((AddressSpace.fromPaddr root).mapAlloc vaddr size flags) state =
      (.ok value, after)) :
    Accounted base after.memory root (ledger.outstanding after.allocator) := by
  have minimum : PageSizeTrait.into (PageSizeTrait.MIN : PageSize) = 0x1000 := rfl
  rw [AddressSpace.mapAlloc, AddressSpace.fromPaddr, mapAlloc, minimum, Program.run_bind,
    Outcome.andThen_eq_ok] at returned
  obtain ⟨_, middle, looped, ended⟩ := returned
  rw [Program.run_pure] at ended
  cases ended
  refine accounted_loop accounted
    (fun frame aligned bounded => orderlyLeaf_leafEntry present notGlobal aligned bounded)
    ⟨List.nodup_range, ?_⟩ looped
  intro k member bounded
  rw [List.mem_range] at member
  exact accounted.pageFree (free _ bounded (by omega) (by omega))

/-- `unmap_free` on any range. -/
theorem accounted_unmapFree {size : Nat}
    (accounted : Accounted base state.memory root (ledger.outstanding state.allocator))
    (returned : run handler ((AddressSpace.fromPaddr root).unmapFree vaddr size) state =
      (.ok (), after)) :
    Accounted base after.memory root (ledger.outstanding after.allocator) := by
  have bounded := bounded_of_run returned (by simp)
  have ended : after =
      (run handler ((AddressSpace.fromPaddr root).unmapFree vaddr size) state).2 := by
    rw [returned]
  rw [ended, run_unmapFree state accounted.owned.wf bounded, Effect.apply_memory,
    Effect.apply_allocator, ledger.outstanding_freeAll]
  exact accounted.regionsEffect fun region => visits_of_mem bounded

/-! ## Orderly runs -/

/-- Calls that all return `Ok`: `map_alloc` on ranges in which nothing is mapped, with
`PRESENT` and without `GLOBAL`, and `unmap_free` on ranges of whole pages. -/
inductive OrderlyRun (root : Nat) : State A → List Call → State A → Prop where
  | nil (state : State A) : OrderlyRun root state [] state
  | mapAlloc {state middle after : State A} {vaddr size value : Nat} {flags : MappingFlags}
      {calls : List Call}
      (free : ∀ query < 0x100000000, vaddr ≤ query → query < vaddr + size →
        walk state.memory root query = none)
      (present : flags.present = true) (notGlobal : flags.global = false)
      (returned : run handler ((AddressSpace.fromPaddr root).mapAlloc vaddr size flags)
        state = (.ok value, middle))
      (rest : OrderlyRun root middle calls after) :
      OrderlyRun root state (.mapAlloc vaddr size flags :: calls) after
  | unmapFree {state middle after : State A} {vaddr size : Nat} {calls : List Call}
      (onPage : vaddr % 0x1000 = 0) (wholePages : size % 0x1000 = 0)
      (returned : run handler ((AddressSpace.fromPaddr root).unmapFree vaddr size) state =
        (.ok (), middle))
      (rest : OrderlyRun root middle calls after) :
      OrderlyRun root state (.unmapFree vaddr size :: calls) after

theorem OrderlyRun.accounted {calls : List Call} (orderly : OrderlyRun root state calls after)
    (accounted : Accounted base state.memory root (ledger.outstanding state.allocator)) :
    Accounted base after.memory root (ledger.outstanding after.allocator) := by
  induction orderly with
  | nil state => exact accounted
  | mapAlloc free present notGlobal returned rest ih =>
      exact ih (accounted_mapAlloc accounted free present notGlobal returned)
  | unmapFree onPage wholePages returned rest ih =>
      exact ih (accounted_unmapFree accounted returned)

/-- A table of the address space, or a present page of one of them, is in the frame. -/
def InUse (memory : Memory) (root frame : Nat) : Prop :=
  ∃ i < 0x400, (memory root i).isTable = true ∧
    ((memory root i).frame = frame ∨ ∃ index < 0x400,
      (memory (memory root i).frame index).flags.p = true ∧
        (memory (memory root i).frame index).frame = frame)

theorem Accounted.inUse {memory : Memory} {outstanding : Set Nat} {frame : Nat}
    (accounted : Accounted base memory root outstanding)
    (referenced : Referenced memory root frame) : InUse memory root frame := by
  obtain ⟨place, entry, refers, frameEq⟩ := referenced
  cases place with
  | table i =>
      obtain ⟨inside, entryEq, table⟩ := refers
      subst entryEq
      exact ⟨i, inside, table, Or.inl frameEq⟩
  | leaf i index =>
      have shaped := accounted.owned.shaped i index entry refers
      obtain ⟨inside, indexInside, table, entryEq, _⟩ := refers
      subst entryEq
      exact ⟨i, inside, table, Or.inr ⟨index, indexInside, shaped.present, frameEq⟩⟩

/-- No frame is leaked in orderly use: whatever was not already outstanding when the
directory was empty is in use as a table or as a present page. -/
theorem orderlyRun_no_leak (ledger : FrameLedger A root) {calls : List Call}
    (rootAligned : root % 0x1000 = 0) (empty : ∀ i < 0x400, state.memory root i = .NULL)
    (orderly : OrderlyRun root state calls after) :
    ∀ frame ∈ ledger.outstanding after.allocator,
      frame ∈ ledger.outstanding state.allocator ∨ InUse after.memory root frame := by
  have accounted := orderly.accounted
    (accounted_empty rootAligned empty (ledger.outstanding state.allocator))
  intro frame isOutstanding
  cases accounted.noLeak frame isOutstanding with
  | inl before => exact Or.inl before
  | inr referenced => exact Or.inr (accounted.inUse referenced)

/-! ## Mapping and unmapping a range -/

/-- Mapping pages changes neither the translations of other pages nor the directory entries
of other regions. -/
theorem loop_frame {pages : List Nat} (ready : MapReady ledger state)
    (onPage : ∀ page ∈ pages, page % 0x1000 = 0 ∧ page < 0x100000000)
    (returned : run handler (Program.forEach pages (mapFrame root flags)) state =
      (.ok (), after)) :
    (∀ query < 0x100000000, (∀ page ∈ pages, query / 0x1000 ≠ page / 0x1000) →
        walk after.memory root query = walk state.memory root query) ∧
      ∀ i, (∀ page ∈ pages, i ≠ dirIndex page) →
        after.memory root i = state.memory root i := by
  induction pages generalizing state with
  | nil =>
      rw [Program.run_forEach_nil] at returned
      cases returned
      exact ⟨fun _ _ _ => rfl, fun _ _ => rfl⟩
  | cons page rest ih =>
      obtain ⟨aligned, bounded⟩ := onPage page (by simp)
      rw [Program.run_forEach_cons, Outcome.andThen_eq_ok] at returned
      obtain ⟨_, middle, first, continued⟩ := returned
      have ending := mapsFrame ledger flags ready.wf ready.tables aligned
      rw [first] at ending
      have middleReady := ending.ready ready
      obtain ⟨walks, entries⟩ := ih middleReady
        (fun other member => onPage other (by simp [member])) continued
      cases ending with
      | @mapped allocator frame finished answered ending =>
          obtain ⟨frameAligned, frameBounded, _⟩ := ledger.alloc_frame answered
          have ready := ready.alloc answered
          have fresh := ledger.allocatesFresh ready.tables
          constructor
          · intro query queryBound outside
            have firstWalk := ending.walk_ok ready.wf fresh bounded aligned frameBounded
              frameAligned queryBound
            rw [if_neg (outside page (by simp))] at firstWalk
            rw [walks query queryBound fun other member => outside other (by simp [member])]
            exact firstWalk
          · intro i outside
            rw [entries i fun other member => outside other (by simp [member])]
            exact (ending.directory_ok ready.wf fresh).2 i (outside page (by simp))

/-- A visited region that keeps its table has a mapped entry left. -/
theorem regionEffect_table {memory : Memory} {size region : Nat}
    (wf : WellFormed memory root)
    (succeeded : (regionEffect memory root vaddr size region).outcome = .ok ())
    (table : ((regionEffect memory root vaddr size region).memory root
      (dirIndex region)).isTable = true) :
    ∃ index < 0x400, ((regionEffect memory root vaddr size region).memory
      ((regionEffect memory root vaddr size region).memory root (dirIndex region)).frame
      index).isMapped = true := by
  have inside := dirIndex_lt region
  have ending := regionEnding memory root vaddr size region
  generalize regionEffect memory root vaddr size region = effect at ending succeeded table ⊢
  cases ending with
  | idle absent =>
      rw [PTEntry.not_present_not_isTable absent] at table
      cases table
  | cutLarge large cut => cases succeeded
  | wholeLarge large whole => cases succeeded
  | stopped isTable framed split passes stops => cases succeeded
  | kept isTable framed complete cut inUse =>
      subst framed
      have sameEntry := clearPages_of_frame_ne memory _
        (Ne.symm (wf.table_ne_root _ inside isTable)) (partPages vaddr size region)
        (dirIndex region)
      simp only [sameEntry]
      exact tableInUse_iff.mp inUse
  | unlinked isTable framed complete unused =>
      simp only [Memory.write_self, unlinkedEntry_not_isTable, Bool.false_eq_true] at table

/-- Where a call visits all regions that have a table, the tables that are left are in
use. -/
theorem unmapEffect_tables_used {memory : Memory} {size : Nat} (wf : WellFormed memory root)
    (bounded : vaddr + size + 0x400000 < 0x100000000)
    (succeeded : (unmapEffect memory root vaddr size).outcome = .ok ())
    (visited : ∀ i < 0x400, (memory root i).isTable = true →
      ∃ region ∈ regionsOf vaddr size, dirIndex region = i) :
    ∀ i < 0x400, ((unmapEffect memory root vaddr size).memory root i).isTable = true →
      ∃ index < 0x400, ((unmapEffect memory root vaddr size).memory
        ((unmapEffect memory root vaddr size).memory root i).frame index).isMapped = true := by
  have done := unmapEffect_ok_done wf bounded succeeded
  have regions := (unmapEffect_ok_iff wf bounded).mp succeeded
  intro i inside table
  by_cases found : ∃ region ∈ regionsOf vaddr size, dirIndex region = i
  · obtain ⟨region, member, selected⟩ := found
    subst selected
    have same := done.touched region member
    rw [same.directory] at table ⊢
    obtain ⟨index, indexInside, mapped⟩ :=
      regionEffect_table wf (regions region member) table
    refine ⟨index, indexInside, ?_⟩
    rw [same.table table index indexInside]
    exact mapped
  · have same := done.untouched i inside fun region member selected =>
      found ⟨region, member, selected⟩
    rw [same.directory] at table
    exact absurd (visited i inside table) found

/-- An address space in which nothing translates and every table is in use has no
tables. -/
theorem Accounted.no_references {memory : Memory} {outstanding : Set Nat}
    (accounted : Accounted base memory root outstanding)
    (unmapped : ∀ query < 0x100000000, walk memory root query = none)
    (tablesUsed : ∀ i < 0x400, (memory root i).isTable = true →
      ∃ index < 0x400, (memory (memory root i).frame index).isMapped = true) :
    ∀ frame, ¬Referenced memory root frame := by
  have noTable : ∀ i < 0x400, (memory root i).isTable = false := by
    intro i inside
    by_contra isTable
    rw [Bool.not_eq_false] at isTable
    obtain ⟨index, indexInside, mapped⟩ := tablesUsed i inside isTable
    have shaped := accounted.owned.shaped i index _
      ⟨inside, indexInside, isTable, rfl, mapped⟩
    have directoryIndex : dirIndex (i * 0x400000 + index * 0x1000) = i := by
      unfold dirIndex
      omega
    have pageIndex : tableIndex (i * 0x400000 + index * 0x1000) = index := by
      unfold tableIndex
      omega
    have translated : walk memory root (i * 0x400000 + index * 0x1000) ≠ none := by
      rw [walk_ne_none_iff, directoryIndex, pageIndex]
      exact Or.inr ⟨isTable, shaped.present⟩
    exact translated (unmapped _ (by omega))
  intro frame referenced
  obtain ⟨i, inside, table, _⟩ := accounted.inUse referenced
  rw [noTable i inside] at table
  cases table

/-- Mapping a range in an empty directory and unmapping it again gives all frames back. -/
theorem mapAlloc_unmapFree_gives_back (ledger : FrameLedger A root) {size : Nat}
    (rootAligned : root % 0x1000 = 0) (empty : ∀ i < 0x400, state.memory root i = .NULL)
    (onPage : vaddr % 0x1000 = 0) (wholePages : size % 0x1000 = 0)
    (bounded : vaddr + size < 0x100000000 - 0x400000)
    (present : flags.present = true) (notGlobal : flags.global = false)
    (supplied : Supplies state.allocator
      (framesNeeded state.memory root (rangePages vaddr size))) :
    ∃ middle after,
      run handler ((AddressSpace.fromPaddr root).mapAlloc vaddr size flags) state =
        (.ok vaddr, middle) ∧
      run handler ((AddressSpace.fromPaddr root).unmapFree vaddr size) middle =
        (.ok (), after) ∧
      (∀ query < 0x100000000, walk after.memory root query = none) ∧
      ledger.outstanding after.allocator = ledger.outstanding state.allocator := by
  have unmapBound : vaddr + size + 0x400000 < 0x100000000 := by omega
  have pagesAligned : ∀ page ∈ rangePages vaddr size, page % 0x1000 = 0 :=
    rangePages_onPage onPage
  have initial := accounted_empty rootAligned empty (ledger.outstanding state.allocator)
  have ready : MapReady ledger state := ⟨initial.owned.wf, initial.owned.tables⟩
  -- Mapping succeeds.
  have loopOk : (run handler (Program.forEach (rangePages vaddr size) (mapFrame root flags))
      state).1 = .ok () := by
    refine (loop_ok_iff ready pagesAligned).mpr ⟨?_, supplied⟩
    intro page _
    rw [empty _ (dirIndex_lt page)]
    decide
  rcases looped : run handler (Program.forEach (rangePages vaddr size) (mapFrame root flags))
    state with ⟨outcome, middle⟩
  rw [looped] at loopOk
  subst loopOk
  have mapped : run handler ((AddressSpace.fromPaddr root).mapAlloc vaddr size flags) state =
      (.ok vaddr, middle) := by
    rw [run_mapAlloc flags state (by omega), looped, Outcome.andThen_ok]
  have initialWalk : ∀ query, walk state.memory root query = none := by
    intro query
    apply walk_of_not_present
    rw [empty _ (dirIndex_lt query)]
    decide
  have accounted := accounted_mapAlloc initial (fun query _ _ _ => initialWalk query) present
    notGlobal mapped
  obtain ⟨walks, entries⟩ := loop_frame ready (fun page member =>
    ⟨pagesAligned page member, by obtain ⟨k, _, rfl⟩ := mem_rangePages.mp member; omega⟩)
    looped
  -- Unmapping succeeds.
  have succeeded : (unmapEffect middle.memory root vaddr size).outcome = .ok () :=
    (unmapEffect_ok_iff accounted.owned.wf unmapBound).mpr
      (regionEffect_ok_of_wholePages unmapBound onPage wholePages
        fun region _ => accounted.owned.not_large (dirIndex_lt region))
  have tablesUsed := unmapEffect_tables_used accounted.owned.wf unmapBound succeeded (by
    intro i inside table
    by_contra notVisited
    have unchanged := entries i fun page member selected => by
      obtain ⟨k, inRange, pageEq⟩ := mem_rangePages.mp member
      apply notVisited
      refine ⟨page / 0x400000 * 0x400000, ?_, ?_⟩
      · rw [mem_regionsOf]
        omega
      · rw [selected]
        unfold dirIndex
        omega
    rw [unchanged, empty i inside] at table
    cases table)
  obtain ⟨after, returned, memoryEq⟩ :=
    (unmapEffect middle.memory root vaddr size).apply_ok middle.allocator succeeded
  rw [← run_unmapFree middle accounted.owned.wf unmapBound] at returned
  have final := accounted_unmapFree accounted returned
  rw [← memoryEq] at tablesUsed
  have unmapped : ∀ query < 0x100000000, walk after.memory root query = none := by
    intro query queryBound
    rw [memoryEq, walk_unmapEffect_ok accounted.owned.wf unmapBound succeeded queryBound]
    split
    next => rfl
    next outside =>
      rw [walks query queryBound, initialWalk query]
      intro page member samePage
      obtain ⟨k, inRange, rfl⟩ := mem_rangePages.mp member
      apply outside
      unfold unmapEnd
      omega
  refine ⟨middle, after, mapped, returned, unmapped, ?_⟩
  have nothing := final.no_references unmapped tablesUsed
  ext frame
  constructor
  · intro isOutstanding
    exact (final.noLeak frame isOutstanding).resolve_right (nothing frame)
  · intro before
    exact final.kept before

end Range

/-- The state after mapping a page of an empty directory. -/
def onePageSpace : State (Scripted 0x1000) :=
  (run handler ((AddressSpace.fromPaddr 0x1000).mapAlloc 0x5000 0x1000 .readWrite)
    (emptySpace [some 0x2000, some 0x3000])).2

theorem emptySpace_walk (script : List (Option Nat)) (query : Nat) :
    walk (emptySpace script).memory 0x1000 query = none := by
  apply walk_of_not_present
  change PTEntry.NULL.flags.p = false
  decide

/-- The page and its table are in use when the rest of the region has been unmapped. -/
theorem orderlyRun_no_leak_one_page :
    ∃ after, run handler ((AddressSpace.fromPaddr 0x1000).unmapFree 0x6000 0x1000)
        onePageSpace = (.ok (), after) ∧
      ∀ frame ∈ (scriptedLedger 0x1000).outstanding after.allocator,
        frame ∈ (scriptedLedger 0x1000).outstanding
            (emptySpace [some 0x2000, some 0x3000]).allocator ∨
          InUse after.memory 0x1000 frame := by
  have mapReturned : (run handler
      ((AddressSpace.fromPaddr 0x1000).mapAlloc 0x5000 0x1000 .readWrite)
      (emptySpace [some 0x2000, some 0x3000])).1 = .ok 0x5000 := by decide +kernel
  have mapped : run handler
      ((AddressSpace.fromPaddr 0x1000).mapAlloc 0x5000 0x1000 .readWrite)
      (emptySpace [some 0x2000, some 0x3000]) = (.ok 0x5000, onePageSpace) :=
    Prod.ext mapReturned rfl
  have unmapReturned : (run handler
      ((AddressSpace.fromPaddr 0x1000).unmapFree 0x6000 0x1000) onePageSpace).1 =
        .ok () := by decide +kernel
  rcases unmapped : run handler ((AddressSpace.fromPaddr 0x1000).unmapFree 0x6000 0x1000)
    onePageSpace with ⟨outcome, after⟩
  rw [unmapped] at unmapReturned
  subst unmapReturned
  exact ⟨after, rfl, orderlyRun_no_leak (scriptedLedger 0x1000) (by decide) (fun _ _ => rfl)
    (.mapAlloc (fun query _ _ _ => emptySpace_walk _ query) rfl rfl mapped
      (.unmapFree (by decide) (by decide) unmapped (.nil _)))⟩

/-- The page that the boot code maps and unmaps. -/
theorem mapAlloc_unmapFree_gives_back_boot :
    ∃ middle after,
      run handler ((AddressSpace.fromPaddr 0x1000).mapAlloc 0xc0801000 0x1000 .readWrite)
        (emptySpace [some 0x2000, some 0x3000]) = (.ok 0xc0801000, middle) ∧
      run handler ((AddressSpace.fromPaddr 0x1000).unmapFree 0xc0801000 0x1000) middle =
        (.ok (), after) ∧
      (∀ query < 0x100000000, walk after.memory 0x1000 query = none) ∧
      (scriptedLedger 0x1000).outstanding after.allocator =
        (scriptedLedger 0x1000).outstanding
          (emptySpace [some 0x2000, some 0x3000]).allocator := by
  have pages : rangePages 0xc0801000 0x1000 = [0xc0801000] := by decide
  have needed : framesNeeded (emptySpace [some 0x2000, some 0x3000]).memory 0x1000
      [0xc0801000] = 2 := by decide +kernel
  refine mapAlloc_unmapFree_gives_back (scriptedLedger 0x1000) (by decide) (fun _ _ => rfl)
    (by decide) (by decide) (by decide) rfl rfl ?_
  rw [pages, needed]
  exact ⟨0x2000, ⟨[some 0x3000], [0x2000]⟩, by decide, 0x3000, ⟨[], [0x3000, 0x2000]⟩,
    by decide, trivial⟩

end SatanKernel.X86
