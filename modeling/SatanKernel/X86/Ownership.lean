import SatanKernel.X86.MapAlloc
import SatanKernel.X86.UnmapFailure

/-!
# Ownership of frames

The invariant that ties the page tables to the allocator: every frame that the tables
refer to, as a table or as a page, is outstanding, and is referred to once.  It is kept
by each kind of update that the page-table code makes; the two operations are then
sequences of such updates.
-/

namespace SatanKernel.X86

open Lib NestedPageTableLevel
open Lib.Program (run)

/-- A place in the page tables that refers to a frame. -/
inductive Reference where
  | table (i : Nat)
  | leaf (i index : Nat)
  deriving DecidableEq, Repr

/-- The entry at a place refers to a frame: a directory entry to its table, a mapped entry
of a table (present or not) to its page. -/
def Refers (memory : Memory) (root : Nat) : Reference → PTEntry → Prop
  | .table i, entry =>
      i < 0x400 ∧ memory root i = entry ∧ entry.isTable = true
  | .leaf i index, entry =>
      i < 0x400 ∧ index < 0x400 ∧ (memory root i).isTable = true ∧
        memory (memory root i).frame index = entry ∧ entry.isMapped = true

/-- The address space owns the frames it refers to, and its mapped entries have the given
shape. -/
structure Owned (shape : PTEntry → Prop) (memory : Memory) (root : Nat)
    (outstanding : Set Nat) : Prop where
  wf : WellFormed memory root
  /-- Where there is no table, there is nothing, or the entry that unlinking a table
  leaves behind. -/
  directory : ∀ i < 0x400, (memory root i).isTable = true ∨ memory root i = .NULL ∨
    memory root i = unlinkedEntry
  owned : ∀ place entry, Refers memory root place entry → entry.frame ∈ outstanding
  once : ∀ place entry other otherEntry, Refers memory root place entry →
    Refers memory root other otherEntry → entry.frame = otherEntry.frame → place = other
  not_root : ∀ place entry, Refers memory root place entry → entry.frame ≠ root
  shaped : ∀ i index entry, Refers memory root (.leaf i index) entry → shape entry

/-! ## The references after an update -/

section References

variable {memory : Memory} {root : Nat} {place : Reference} {entry : PTEntry}

theorem Refers.of_write_table {i : Nat} (wf : WellFormed memory root) (inside : i < 0x400)
    (table : (memory root i).isTable = true) (index : Nat) (word : PTEntry)
    (refers : Refers (memory.write (memory root i).frame index word) root place entry) :
    Refers memory root place entry ∨ (place = .leaf i index ∧ entry = word) := by
  have tableNotRoot := wf.table_ne_root i inside table
  have sameDirectory : ∀ j, memory.write (memory root i).frame index word root j =
      memory root j :=
    fun j => Memory.write_of_frame_ne _ _ _ (Ne.symm tableNotRoot) j
  cases place with
  | table j =>
      simp only [Refers, sameDirectory] at refers
      exact .inl refers
  | leaf j otherIndex =>
      simp only [Refers, sameDirectory] at refers
      obtain ⟨jInside, indexInside, jTable, entryEq, mapped⟩ := refers
      by_cases same : (memory root j).frame = (memory root i).frame ∧ otherIndex = index
      · have indexEq := wf.table_injective j jInside i inside jTable table same.1
        rw [indexEq, same.2, Memory.write_self] at entryEq
        exact .inr ⟨by rw [indexEq, same.2], entryEq.symm⟩
      · rw [Memory.write, if_neg same] at entryEq
        exact .inl ⟨jInside, indexInside, jTable, entryEq, mapped⟩

theorem Refers.of_link {i frame : Nat} (wf : WellFormed memory root)
    (fresh : FreshFrame memory root frame)
    (refers : Refers (memory.link root i frame) root place entry) :
    Refers memory root place entry ∨ (place = .table i ∧ entry = .newPageTable frame) := by
  have linkedFrame := newPageTable_frame fresh.aligned fresh.bounded
  cases place with
  | table j =>
      obtain ⟨jInside, entryEq, table⟩ := refers
      by_cases same : j = i
      · rw [same, link_directory_self] at entryEq
        exact .inr ⟨by rw [same], entryEq.symm⟩
      · rw [link_directory_of_ne fresh same] at entryEq
        exact .inl ⟨jInside, entryEq, table⟩
  | leaf j index =>
      obtain ⟨jInside, indexInside, table, entryEq, mapped⟩ := refers
      by_cases same : j = i
      · -- The new table holds no mapped entry.
        rw [same, link_directory_self, linkedFrame,
          link_frame_self fresh i indexInside] at entryEq
        subst entryEq
        exact absurd mapped (by decide)
      · rw [link_directory_of_ne fresh same] at table entryEq
        rw [link_of_frame_ne memory i (wf.table_ne_root j jInside table)
          (fresh.ne_table jInside table)] at entryEq
        exact .inl ⟨jInside, indexInside, table, entryEq, mapped⟩

/-- An entry that is still mapped was not cleared. -/
theorem Refers.of_clearPages {i : Nat} (wf : WellFormed memory root) (inside : i < 0x400)
    (table : (memory root i).isTable = true) {pages : List Nat}
    (refers : Refers (memory.clearPages (memory root i).frame pages) root place entry) :
    Refers memory root place entry ∧
      ∀ page ∈ pages, (memory (memory root i).frame (tableIndex page)).flags.p = true →
        place ≠ .leaf i (tableIndex page) := by
  have sameDirectory : ∀ j,
      memory.clearPages (memory root i).frame pages root j = memory root j :=
    fun j => clearPages_of_frame_ne _ _ (Ne.symm (wf.table_ne_root i inside table)) _ j
  cases place with
  | table j =>
      simp only [Refers, sameDirectory] at refers
      exact ⟨refers, fun _ _ _ => by simp⟩
  | leaf j index =>
      simp only [Refers, sameDirectory] at refers
      obtain ⟨jInside, indexInside, jTable, entryEq, mapped⟩ := refers
      by_cases same : j = i
      · subst same
        rw [clearPages_self] at entryEq
        split at entryEq
        next =>
          subst entryEq
          exact absurd mapped (by decide)
        next notCleared =>
          refine ⟨⟨jInside, indexInside, jTable, entryEq, mapped⟩, ?_⟩
          intro page member present equal
          obtain ⟨-, rfl⟩ := Reference.leaf.inj equal
          exact notCleared ⟨present, page, member, rfl⟩
      · rw [clearPages_of_frame_ne _ _ fun equal =>
          same (wf.table_injective j jInside i inside jTable table equal)] at entryEq
        refine ⟨⟨jInside, indexInside, jTable, entryEq, mapped⟩, ?_⟩
        intro page _ _ equal
        exact same (Reference.leaf.inj equal).1

theorem Refers.of_unlink {i : Nat} (wf : WellFormed memory root)
    (refers : Refers (memory.write root i unlinkedEntry) root place entry) :
    Refers memory root place entry ∧ place ≠ .table i := by
  cases place with
  | table j =>
      obtain ⟨jInside, entryEq, jTable⟩ := refers
      have different : j ≠ i := by
        intro equal
        rw [equal, Memory.write_self] at entryEq
        rw [← entryEq, unlinkedEntry_not_isTable] at jTable
        cases jTable
      rw [Memory.write_of_index_ne _ _ _ _ different] at entryEq
      exact ⟨⟨jInside, entryEq, jTable⟩, by simpa using different⟩
  | leaf j index =>
      obtain ⟨jInside, indexInside, jTable, entryEq, mapped⟩ := refers
      have different : j ≠ i := by
        intro equal
        rw [equal, Memory.write_self, unlinkedEntry_not_isTable] at jTable
        cases jTable
      rw [Memory.write_of_index_ne _ _ _ _ different] at jTable entryEq
      rw [Memory.write_of_frame_ne _ _ _ (wf.table_ne_root j jInside jTable)] at entryEq
      exact ⟨⟨jInside, indexInside, jTable, entryEq, mapped⟩, by simp⟩

end References

namespace Owned

variable {shape : PTEntry → Prop} {memory after : Memory} {root : Nat}
  {outstanding remaining : Set Nat}

theorem tables (owned : Owned shape memory root outstanding) :
    TablesOutstanding memory root outstanding :=
  fun i inside table => owned.owned (.table i) _ ⟨inside, rfl, table⟩

/-- An update that only drops references keeps the invariant. -/
theorem shrink (owned : Owned shape memory root outstanding)
    (wf : WellFormed after root)
    (directory : ∀ i < 0x400, (after root i).isTable = true ∨ after root i = .NULL ∨
      after root i = unlinkedEntry)
    (kept : ∀ place entry, Refers after root place entry →
      Refers memory root place entry ∧ entry.frame ∈ remaining) :
    Owned shape after root remaining where
  wf := wf
  directory := directory
  owned place entry refers := (kept place entry refers).2
  once place entry other otherEntry refers otherRefers :=
    owned.once place entry other otherEntry (kept place entry refers).1
      (kept other otherEntry otherRefers).1
  not_root place entry refers := owned.not_root place entry (kept place entry refers).1
  shaped i index entry refers := owned.shaped i index entry (kept _ entry refers).1

/-- An update that adds one reference, to a new frame, keeps the invariant. -/
theorem extend (owned : Owned shape memory root outstanding)
    (wf : WellFormed after root)
    (directory : ∀ i < 0x400, (after root i).isTable = true ∨ after root i = .NULL ∨
      after root i = unlinkedEntry)
    (newPlace : Reference) (newEntry : PTEntry)
    (notOutstanding : newEntry.frame ∉ outstanding) (notRoot : newEntry.frame ≠ root)
    (newShape : ∀ i index, newPlace = .leaf i index → shape newEntry)
    (added : ∀ place entry, Refers after root place entry →
      Refers memory root place entry ∨ (place = newPlace ∧ entry = newEntry)) :
    Owned shape after root (insert newEntry.frame outstanding) where
  wf := wf
  directory := directory
  owned place entry refers := by
    rcases added place entry refers with old | ⟨-, rfl⟩
    · exact Set.mem_insert_of_mem _ (owned.owned place entry old)
    · exact Set.mem_insert _ _
  once place entry other otherEntry refers otherRefers same := by
    rcases added place entry refers with old | ⟨rfl, rfl⟩
    · rcases added other otherEntry otherRefers with otherOld | ⟨rfl, rfl⟩
      · exact owned.once place entry other otherEntry old otherOld same
      · exact absurd (same ▸ owned.owned place entry old) notOutstanding
    · rcases added other otherEntry otherRefers with otherOld | ⟨rfl, rfl⟩
      · exact absurd (same.symm ▸ owned.owned other otherEntry otherOld) notOutstanding
      · rfl
  not_root place entry refers := by
    rcases added place entry refers with old | ⟨-, rfl⟩
    · exact owned.not_root place entry old
    · exact notRoot
  shaped i index entry refers := by
    rcases added _ entry refers with old | ⟨isNew, rfl⟩
    · exact owned.shaped i index entry old
    · exact newShape i index isNew.symm

theorem mono (owned : Owned shape memory root outstanding)
    (larger : outstanding ⊆ remaining) : Owned shape memory root remaining :=
  owned.shrink owned.wf owned.directory fun place entry refers =>
    ⟨refers, larger (owned.owned place entry refers)⟩

/-! ## The updates that the code makes -/

/-- Writing a page into a table. -/
theorem write_leaf (owned : Owned shape memory root outstanding) {i frame : Nat}
    (index : Nat) (flags : MappingFlags) (inside : i < 0x400)
    (table : (memory root i).isTable = true)
    (aligned : frame % 0x1000 = 0) (bounded : frame < 0x100000000)
    (notRoot : frame ≠ root) (notOutstanding : frame ∉ outstanding)
    (shaped : shape (leafEntry frame flags)) :
    Owned shape
      (memory.write (memory root i).frame index (leafEntry frame flags)) root
      (insert frame outstanding) := by
  have tableNotRoot := owned.wf.table_ne_root i inside table
  have sameDirectory : ∀ j, memory.write (memory root i).frame index
      (leafEntry frame flags) root j = memory root j :=
    fun j => Memory.write_of_frame_ne _ _ _ (Ne.symm tableNotRoot) j
  have frameEq : (leafEntry frame flags).frame = frame :=
    PTEntry.newPage_4K_frame bounded aligned _
  have added := owned.extend (owned.wf.write_table tableNotRoot index
    (leafEntry frame flags)) (by simpa only [sameDirectory] using owned.directory)
    (.leaf i index) (leafEntry frame flags) (by rwa [frameEq]) (by rwa [frameEq])
    (fun _ _ _ => shaped) ?_
  · rwa [frameEq] at added
  · intro place entry refers
    exact refers.of_write_table owned.wf inside table

/-- Linking a new, empty table. -/
theorem link (owned : Owned shape memory root outstanding) (i : Nat) {frame : Nat}
    (aligned : frame % 0x1000 = 0) (bounded : frame < 0x100000000)
    (notRoot : frame ≠ root) (notOutstanding : frame ∉ outstanding) :
    Owned shape (memory.link root i frame) root (insert frame outstanding) := by
  have fresh := freshFrame_of_not_outstanding owned.tables aligned bounded notRoot
    notOutstanding
  have linkedFrame := newPageTable_frame aligned bounded
  have directory : ∀ j < 0x400, (memory.link root i frame root j).isTable = true ∨
      memory.link root i frame root j = .NULL ∨
      memory.link root i frame root j = unlinkedEntry := by
    intro j inside
    by_cases same : j = i
    · rw [same, link_directory_self]
      exact .inl (newPageTable_isTable aligned)
    · rw [link_directory_of_ne fresh same]
      exact owned.directory j inside
  have added := owned.extend (owned.wf.link fresh i) directory (.table i)
    (.newPageTable frame) (by rwa [linkedFrame]) (by rwa [linkedFrame])
    (fun _ _ isLeaf => by cases isLeaf) ?_
  · rwa [linkedFrame] at added
  · intro place entry refers
    exact refers.of_link owned.wf fresh

/-- Clearing a frame that is not in use. -/
theorem clear (owned : Owned shape memory root outstanding) {frame : Nat}
    (notRoot : frame ≠ root) (notOutstanding : frame ∉ outstanding) :
    Owned shape (memory.clear frame) root outstanding := by
  have sameDirectory : ∀ j, memory.clear frame root j = memory root j :=
    fun j => Memory.clear_of_frame_ne _ (Ne.symm notRoot) j
  apply owned.shrink (owned.wf.clear notRoot)
  · simpa only [sameDirectory] using owned.directory
  · intro place entry refers
    have before : Refers memory root place entry := by
      cases place with
      | table j =>
          simp only [Refers, sameDirectory] at refers
          exact refers
      | leaf j index =>
          simp only [Refers, sameDirectory] at refers
          obtain ⟨jInside, indexInside, table, entryEq, mapped⟩ := refers
          have other : (memory root j).frame ≠ frame := fun equal =>
            notOutstanding (equal ▸ owned.tables j jInside table)
          rw [Memory.clear_of_frame_ne _ other] at entryEq
          exact ⟨jInside, indexInside, table, entryEq, mapped⟩
    exact ⟨before, owned.owned place entry before⟩

/-- Clearing present pages of a table, whose frames are given back. -/
theorem clearPages (owned : Owned shape memory root outstanding) {i : Nat}
    (inside : i < 0x400) (table : (memory root i).isTable = true) (pages : List Nat) :
    Owned shape (memory.clearPages (memory root i).frame pages) root
      (outstanding \ addresses (leafFrames memory (memory root i).frame pages)) := by
  have sameDirectory : ∀ j,
      memory.clearPages (memory root i).frame pages root j = memory root j :=
    fun j => clearPages_of_frame_ne _ _ (Ne.symm (owned.wf.table_ne_root i inside table)) _ j
  apply owned.shrink (clearPages_wellFormed owned.wf inside table pages)
  · simpa only [sameDirectory] using owned.directory
  · intro place entry refers
    have before := refers.of_clearPages owned.wf inside table
    refine ⟨before.1, owned.owned place entry before.1, ?_⟩
    -- A frame that is given back is that of a page that was cleared.
    intro freed
    simp only [addresses, leafFrames, List.map_map, Set.mem_ofPred_eq, List.mem_map,
      List.mem_filter, Function.comp_apply] at freed
    obtain ⟨page, ⟨member, present⟩, addressEq⟩ := freed
    have aligned : (memory (memory root i).frame (tableIndex page)).address % 0x1000 = 0 := by
      rw [addressEq]
      exact PTEntry.frame_aligned _
    have leaf : Refers memory root (.leaf i (tableIndex page))
        (memory (memory root i).frame (tableIndex page)) :=
      ⟨inside, tableIndex_lt page, table, rfl, by rw [PTEntry.isMapped, present]; rfl⟩
    apply before.2 page member present
    apply owned.once place entry _ _ before.1 leaf
    rw [← addressEq, PTEntry.address_eq_frame aligned]

/-- Unlinking a table, whose frame is given back. -/
theorem unlink (owned : Owned shape memory root outstanding) {i : Nat}
    (inside : i < 0x400) (table : (memory root i).isTable = true) :
    Owned shape (memory.write root i unlinkedEntry) root
      (outstanding \ {(memory root i).frame}) := by
  apply owned.shrink (owned.wf.write_directory i unlinkedEntry_not_isTable)
  · intro j jInside
    by_cases same : j = i
    · rw [same, Memory.write_self]
      exact .inr (.inr rfl)
    · rw [Memory.write_of_index_ne _ _ _ _ same]
      exact owned.directory j jInside
  · intro place entry refers
    have before := refers.of_unlink owned.wf
    refine ⟨before.1, owned.owned place entry before.1, ?_⟩
    intro freed
    apply before.2
    exact owned.once place entry (.table i) _ before.1 ⟨inside, rfl, table⟩
      (Set.mem_singleton_iff.mp freed)

/-! ## Mapping a page -/

variable {A : Type} [PageAllocatorTrait PageSize A] {ledger : FrameLedger A root}

theorem mapsFrame {state : State A} {page : Nat} {flags : MappingFlags}
    {finished : Outcome MappingError Unit × State A}
    (owned : Owned shape state.memory root (ledger.outstanding state.allocator))
    (shaped : ∀ frame, frame % 0x1000 = 0 → frame < 0x100000000 →
      shape (leafEntry frame flags))
    (ending : MapsFrame state root page flags finished) :
    Owned shape finished.2.memory root (ledger.outstanding finished.2.allocator) := by
  cases ending with
  | exhausted answered =>
      rw [ledger.alloc_none answered]
      exact owned
  | @mapped allocator frame finished answered ending =>
      obtain ⟨aligned, bounded, -, notRoot, notOutstanding⟩ := ledger.alloc_frame answered
      have taken := ledger.alloc_some answered
      have frameShape := shaped frame aligned bounded
      have grown : Owned shape state.memory root (ledger.outstanding allocator) := by
        rw [taken]
        exact owned.mono (Set.subset_insert _ _)
      cases ending with
      | existingTable table =>
          rw [taken]
          exact owned.write_leaf _ _ (dirIndex_lt page) table aligned bounded notRoot
            notOutstanding frameShape
      | largePage large => exact grown
      | noFrame absent exhausted =>
          rw [ledger.alloc_none exhausted]
          exact grown
      | refused absent allocated ps =>
          obtain ⟨-, -, -, tableNotRoot, tableFree⟩ := ledger.alloc_frame allocated
          rw [ledger.alloc_some allocated]
          exact (grown.clear tableNotRoot tableFree).mono (Set.subset_insert _ _)
      | @newTable absent allocator' tableFrame allocated ps =>
          obtain ⟨tableAligned, tableBounded, -, tableNotRoot, tableFree⟩ :=
            ledger.alloc_frame allocated
          have tableTaken := ledger.alloc_some allocated
          rw [taken] at tableTaken tableFree
          have different : frame ≠ tableFrame := by
            rintro rfl
            exact tableFree (Set.mem_insert _ _)
          have linked := owned.link (dirIndex page) tableAligned tableBounded tableNotRoot
            fun outstanding => tableFree (Set.mem_insert_of_mem _ outstanding)
          have isTable : (state.memory.link root (dirIndex page) tableFrame root
              (dirIndex page)).isTable = true := by
            rw [link_directory_self]
            exact newPageTable_isTable tableAligned
          have unused : frame ∉ insert tableFrame (ledger.outstanding state.allocator) := by
            rintro (same | outstanding)
            · exact different same
            · exact notOutstanding outstanding
          have written := linked.write_leaf (tableIndex page) flags (dirIndex_lt page)
            isTable aligned bounded notRoot unused frameShape
          rw [link_directory_self, newPageTable_frame tableAligned tableBounded,
            Set.insert_comm] at written
          rw [tableTaken]
          exact written

/-! ## Unmapping a range -/

theorem not_large (owned : Owned shape memory root outstanding) {i : Nat}
    (inside : i < 0x400) : (memory root i).isLarge = false := by
  rcases owned.directory i inside with table | null | unlinked
  · simp [PTEntry.isLarge, PTEntry.isTable_ps table]
  · rw [null]
    decide
  · rw [unlinked]
    decide

theorem regionEffect (owned : Owned shape memory root outstanding)
    (vaddr size region : Nat) :
    Owned shape (regionEffect memory root vaddr size region).memory root
      (outstanding \ addresses (X86.regionEffect memory root vaddr size region).freed) := by
  have inside := dirIndex_lt region
  have small := owned.not_large inside
  have ending := regionEnding memory root vaddr size region
  generalize X86.regionEffect memory root vaddr size region = effect at ending ⊢
  cases ending with
  | idle absent => exact owned.mono (by simp)
  | cutLarge large cut =>
      rw [small] at large
      cases large
  | wholeLarge large whole =>
      rw [small] at large
      cases large
  | stopped table framed split passes stops =>
      subst framed
      exact owned.clearPages inside table _
  | kept table framed complete cut inUse =>
      subst framed
      exact owned.clearPages inside table _
  | unlinked table framed complete unused =>
      subst framed
      have cleared := owned.clearPages inside table (partPages vaddr size region)
      have sameEntry := clearPages_of_frame_ne memory _
        (Ne.symm (owned.wf.table_ne_root _ inside table)) (partPages vaddr size region)
        (dirIndex region)
      have unlinked := cleared.unlink inside (by rw [sameEntry]; exact table)
      rw [sameEntry, Set.sdiff_sdiff] at unlinked
      rw [addresses_append, addresses_cons, addresses_nil, insert_empty_eq]
      exact unlinked

theorem regionsEffect (owned : Owned shape memory root outstanding) (vaddr size : Nat)
    (regions : List Nat) :
    Owned shape (regionsEffect memory root vaddr size regions).memory root
      (outstanding \
        addresses (X86.regionsEffect memory root vaddr size regions).freed) := by
  induction regions generalizing memory outstanding with
  | nil => exact owned.mono (by simp [X86.regionsEffect])
  | cons region regions ih =>
      have head := owned.regionEffect vaddr size region
      rw [X86.regionsEffect]
      split
      next succeeded =>
        rw [addresses_append, ← Set.sdiff_sdiff]
        exact ih head
      next => exact head

end Owned

/-! ## The frees of a call -/

/-- The bits that the mask of `PTEntry::address` leaves are clear. -/
def PlainLeaf (entry : PTEntry) : Prop := entry.address % 0x1000 = 0

/-- Without `GLOBAL` an entry holds the address of its frame exactly. -/
theorem plainLeaf_leafEntry {frame : Nat} {flags : MappingFlags}
    (notGlobal : flags.global = false) (aligned : frame % 0x1000 = 0)
    (bounded : frame < 0x100000000) : PlainLeaf (leafEntry frame flags) := by
  have encoded : (leafEntry frame flags).word.toNat =
      frame + (PTEFlags.ofMapping flags).bits :=
    PTEntry.toNat_encode bounded aligned _
  have small := PTEFlags.bits_ofMapping_lt notGlobal
  rw [PlainLeaf, PTEntry.address_eq, encoded]
  omega

section Frees

variable {memory : Memory} {root : Nat} {outstanding : Set Nat}

/-- The frames of different present pages of a table are freed in turn. -/
theorem freedInTurn_leafFrames (owned : Owned PlainLeaf memory root outstanding) {i : Nat}
    (inside : i < 0x400) (table : (memory root i).isTable = true) {pages : List Nat}
    (distinct : pages.Pairwise fun left right => tableIndex left ≠ tableIndex right) :
    FreedInTurn outstanding (leafFrames memory (memory root i).frame pages) := by
  have leaf : ∀ page, (memory (memory root i).frame (tableIndex page)).flags.p = true →
      Refers memory root (.leaf i (tableIndex page))
        (memory (memory root i).frame (tableIndex page)) := fun page present =>
    ⟨inside, tableIndex_lt page, table, rfl, by rw [PTEntry.isMapped, present]; rfl⟩
  have exactly : ∀ page, (memory (memory root i).frame (tableIndex page)).flags.p = true →
      (memory (memory root i).frame (tableIndex page)).address =
        (memory (memory root i).frame (tableIndex page)).frame := fun page present =>
    PTEntry.address_eq_frame (owned.shaped _ _ _ (leaf page present))
  apply freedInTurn_of_nodup
  · rw [leafFrames, List.map_map, List.Nodup, List.pairwise_map]
    apply (distinct.filter _).imp_of_mem
    intro left right leftMember rightMember different equal
    have leftPresent := (List.mem_filter.mp leftMember).2
    have rightPresent := (List.mem_filter.mp rightMember).2
    simp only [Function.comp_apply, exactly left leftPresent,
      exactly right rightPresent] at equal
    have same := owned.once _ _ _ _ (leaf left leftPresent) (leaf right rightPresent) equal
    exact different (Reference.leaf.inj same).2
  · intro block member
    obtain ⟨page, pageMember, rfl⟩ := List.mem_map.mp member
    have present := (List.mem_filter.mp pageMember).2
    rw [exactly page present]
    exact owned.owned _ _ (leaf page present)

/-- The blocks that an iteration frees are freed in turn. -/
theorem freedInTurn_regionEffect (owned : Owned PlainLeaf memory root outstanding)
    {vaddr size region : Nat} (visits : Visits vaddr size region) :
    FreedInTurn outstanding (regionEffect memory root vaddr size region).freed := by
  have inside := dirIndex_lt region
  have small := owned.not_large inside
  have distinct := partPages_tableIndex visits
  have ending := regionEnding memory root vaddr size region
  generalize regionEffect memory root vaddr size region = effect at ending ⊢
  cases ending with
  | idle absent => trivial
  | cutLarge large cut => trivial
  | wholeLarge large whole =>
      rw [small] at large
      cases large
  | stopped table framed split passes stops =>
      subst framed
      rw [split] at distinct
      exact freedInTurn_leafFrames owned inside table (List.pairwise_append.mp distinct).1
  | kept table framed complete cut inUse =>
      subst framed
      exact freedInTurn_leafFrames owned inside table distinct
  | unlinked table framed complete unused =>
      subst framed
      refine freedInTurn_append.mpr
        ⟨freedInTurn_leafFrames owned inside table distinct, ?_, trivial⟩
      -- The table is still referred to when the pages are gone.
      have cleared := owned.clearPages inside table (partPages vaddr size region)
      apply cleared.owned (.table (dirIndex region))
      refine ⟨inside, ?_, table⟩
      exact clearPages_of_frame_ne _ _ (Ne.symm (owned.wf.table_ne_root _ inside table)) _ _

theorem freedInTurn_regionsEffect (owned : Owned PlainLeaf memory root outstanding)
    {vaddr size : Nat} {regions : List Nat}
    (visits : ∀ region ∈ regions, Visits vaddr size region) :
    FreedInTurn outstanding (regionsEffect memory root vaddr size regions).freed := by
  induction regions generalizing memory outstanding with
  | nil => trivial
  | cons region regions ih =>
      have head := freedInTurn_regionEffect owned (visits region (by simp))
      rw [regionsEffect]
      split
      next succeeded =>
        refine freedInTurn_append.mpr ⟨head, ?_⟩
        exact ih (owned.regionEffect vaddr size region)
          fun other member => visits other (by simp [member])
      next => exact head

end Frees

end SatanKernel.X86
