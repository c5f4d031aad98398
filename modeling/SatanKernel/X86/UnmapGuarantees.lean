import Mathlib.Algebra.Order.Group.Nat
import SatanKernel.X86.MapPage
import SatanKernel.X86.UnmapRange

/-!
# What `unmap_free` guarantees, and when

A caller expects `unmap_free` to affect its range only and to unmap all of it,
whatever pages are mapped there.  The theorems below say for every call whether it
does.
-/

namespace SatanKernel.X86

open Lib NestedPageTableLevel
open Lib.Program (run)

/-! ## Ranges, blocks and recorded calls -/

/-- An address of the range. -/
def InRange (vaddr size query : Nat) : Prop := vaddr ≤ query ∧ query < vaddr + size

/-- An address of the address space outside of the range. -/
def OutsideRange (vaddr size query : Nat) : Prop :=
  query < 0x100000000 ∧ ¬InRange vaddr size query

/-- The physical address belongs to the block. -/
def Covers (block : Nat × PageSize) (paddr : Nat) : Prop :=
  paddr / block.2.toNat = block.1 / block.2.toNat

/-- The same state, with the calls of `free` recorded from now on. -/
def recording {A : Type} (state : State A) : State (Recorder PageSize A) :=
  ⟨state.memory, .start state.allocator⟩

@[simp] theorem recording_memory {A : Type} (state : State A) :
    (recording state).memory = state.memory := by
  rw [recording]

@[simp] theorem recording_inner {A : Type} (state : State A) :
    (recording state).allocator.inner = state.allocator := by
  rw [recording, Recorder.start]

@[simp] theorem recording_freed {A : Type} (state : State A) :
    (recording state).allocator.freed = [] := by
  rw [recording, Recorder.start]

/-- Nothing is mapped between the end of the range and the end of the 4 MiB region that
the range starts inside of. -/
def SpillFree (memory : Memory) (root vaddr size : Nat) : Prop :=
  ∀ query, vaddr + size ≤ query → query < unmapEnd vaddr size →
    walk memory root query = none

/-- No block that the range has to give back is also mapped outside of the range. -/
def Unshared (memory : Memory) (root vaddr size : Nat) : Prop :=
  ∀ query, OutsideRange vaddr size query →
    ∀ translation, walk memory root query = some translation →
      ∀ block ∈ releasedBlocks memory root vaddr size, ¬Covers block translation.paddr

section Recorded

variable {A : Type} [PageAllocatorTrait PageSize A] {state : State A}
  {root vaddr size : Nat}

theorem run_unmapFree_recording (wf : WellFormed state.memory root)
    (bounded : vaddr + size + 0x400000 < 0x100000000) :
    (run handler ((AddressSpace.fromPaddr root).unmapFree vaddr size)
        (recording state)).1 = (unmapEffect state.memory root vaddr size).outcome ∧
      (run handler ((AddressSpace.fromPaddr root).unmapFree vaddr size)
        (recording state)).2.memory = (unmapEffect state.memory root vaddr size).memory ∧
      (run handler ((AddressSpace.fromPaddr root).unmapFree vaddr size)
        (recording state)).2.allocator.freed =
          (unmapEffect state.memory root vaddr size).freed := by
  rw [run_unmapFree (recording state) wf bounded, recording_memory]
  refine ⟨Effect.apply_outcome _ _, Effect.apply_memory _ _, ?_⟩
  rw [Effect.apply_allocator, freed_freeAll, recording_freed, List.nil_append]

/-- A call that does not panic stays inside the address space. -/
theorem bounded_of_run {outcome : Outcome MappingError Unit} {after : State A}
    (finished : run handler ((AddressSpace.fromPaddr root).unmapFree vaddr size) state =
      (outcome, after)) (returned : outcome ≠ .panic) :
    vaddr + size + 0x400000 < 0x100000000 := by
  by_contra overflow
  rw [run_unmapFree_overflow state (Nat.not_lt.mp overflow)] at finished
  exact returned (Prod.mk.inj finished).1.symm

end Recorded

/-! ## The spill area -/

section Spill

variable {memory : Memory} {root vaddr size region : Nat}

theorem le_unmapEnd (vaddr size : Nat) : vaddr + size ≤ unmapEnd vaddr size :=
  Nat.le_max_left _ _

/-- With an empty spill area, a present page that ends before `unmapEnd` ends inside the
range. -/
theorem within_of_spillFree (free : SpillFree memory root vaddr size)
    (table : (memory root (dirIndex region)).isTable = true)
    (onRegion : region % 0x400000 = 0) {page : Nat} (onPage : page % 0x1000 = 0)
    (lower : region ≤ page) (upper : page < region + 0x400000)
    (present : (memory (memory root (dirIndex region)).frame
      (tableIndex page)).flags.p = true)
    (ends : page + 0x1000 ≤ unmapEnd vaddr size) : page + 0x1000 ≤ vaddr + size := by
  by_contra beyond
  -- The last byte of the page lies in the spill area.
  have selected : dirIndex (page + 0xfff) = dirIndex region :=
    dirIndex_of_region onRegion (by omega) (by omega)
  have selectedPage : tableIndex (page + 0xfff) = tableIndex page := by
    unfold tableIndex
    omega
  have translated : walk memory root (page + 0xfff) ≠ none := by
    rw [walk_ne_none_iff, selected, selectedPage]
    exact .inr ⟨table, present⟩
  exact translated (free _ (by omega) (by omega))

theorem pageBlocks_of_spillFree (free : SpillFree memory root vaddr size)
    (visits : Visits vaddr size region) :
    pageBlocks memory root vaddr (unmapEnd vaddr size) region =
      pageBlocks memory root vaddr (vaddr + size) region := by
  have onRegion := visits.onRegion
  have further := le_unmapEnd vaddr size
  cases table : (memory root (dirIndex region)).isTable with
  | true =>
      simp only [pageBlocks, table, if_true]
      apply leafFrames_eq (pagesWithin_pairwise_lt _ _ _) (pagesWithin_pairwise_lt _ _ _)
      intro page present
      rw [mem_pagesWithin, mem_pagesWithin]
      constructor
      · rintro ⟨⟨onPage, lower, upper⟩, above, ends⟩
        exact ⟨⟨onPage, lower, upper⟩, above, within_of_spillFree free table onRegion onPage
          (by omega) upper present ends⟩
      · rintro ⟨inRegion, above, ends⟩
        exact ⟨inRegion, above, by omega⟩
  | false =>
      have reached : (vaddr ≤ region ∧ region + 0x400000 ≤ unmapEnd vaddr size) ↔
          (vaddr ≤ region ∧ region + 0x400000 ≤ vaddr + size) := by
        rw [← whole_iff visits, CutsRegion]
        omega
      simp only [pageBlocks, table, Bool.false_eq_true, if_false, reached]

theorem tableEmptied_of_spillFree (free : SpillFree memory root vaddr size)
    (visits : Visits vaddr size region) :
    TableEmptied memory root vaddr (unmapEnd vaddr size) region ↔
      TableEmptied memory root vaddr (vaddr + size) region := by
  have onRegion := visits.onRegion
  have further := le_unmapEnd vaddr size
  unfold TableEmptied
  constructor
  · rintro ⟨table, whole | covered⟩
    · rw [← whole_iff visits, CutsRegion] at whole
      exact ⟨table, .inl (by omega)⟩
    · refine ⟨table, .inr fun index inside mapped => ?_⟩
      obtain ⟨present, above, ends⟩ := covered index inside mapped
      refine ⟨present, above, ?_⟩
      apply within_of_spillFree free table onRegion (by omega) (by omega) (by omega) _ ends
      rw [tableIndex_add onRegion inside]
      exact present
  · rintro ⟨table, whole | covered⟩
    · exact ⟨table, .inl ⟨whole.1, by omega⟩⟩
    · refine ⟨table, .inr fun index inside mapped => ?_⟩
      obtain ⟨present, above, ends⟩ := covered index inside mapped
      exact ⟨present, above, by omega⟩

/-- With an empty spill area, a successful call frees what the range has to give back. -/
theorem freed_perm_released (wf : WellFormed memory root)
    (bounded : vaddr + size + 0x400000 < 0x100000000)
    (succeeded : (unmapEffect memory root vaddr size).outcome = .ok ())
    (free : SpillFree memory root vaddr size) :
    (unmapEffect memory root vaddr size).freed.Perm
      (releasedBlocks memory root vaddr size) := by
  rw [unmapEffect_freed_ok wf bounded succeeded]
  have same : ((regionsOf vaddr size).flatMap fun region =>
      pageBlocks memory root vaddr (unmapEnd vaddr size) region ++
        tableBlock memory root vaddr (unmapEnd vaddr size) region) =
      (regionsOf vaddr size).flatMap fun region =>
        pageBlocks memory root vaddr (vaddr + size) region ++
          tableBlock memory root vaddr (vaddr + size) region := by
    apply List.flatMap_congr
    intro region member
    have visits := visits_of_mem bounded member
    rw [pageBlocks_of_spillFree free visits]
    simp only [tableBlock, tableEmptied_of_spillFree free visits]
  rw [same]
  exact (List.flatMap_append_perm _ _ _).symm

end Spill

/-! ## Nothing outside of the range is touched -/

/-- What the caller of `unmap_free` expects of the rest of the address space: the same
translations, and no block freed that is mapped there. -/
def TouchesNothingOutside (before after : Memory) (root vaddr size : Nat)
    (freed : List (Nat × PageSize)) : Prop :=
  ∀ query, OutsideRange vaddr size query →
    walk after root query = walk before root query ∧
    ∀ translation, walk before root query = some translation →
      ∀ block ∈ freed, ¬Covers block translation.paddr

section Touches

variable {A : Type} [PageAllocatorTrait PageSize A]

/-- A successful `unmap_free` touches nothing outside of its range exactly when the rest
of the region that it starts in is unmapped and it shares no frame with its
surroundings. -/
theorem unmapFree_touches_nothing_outside_iff {state : State A}
    {after : State (Recorder PageSize A)} {root vaddr size : Nat}
    (wf : WellFormed state.memory root)
    (unmapped : run handler ((AddressSpace.fromPaddr root).unmapFree vaddr size)
      (recording state) = (.ok (), after)) :
    TouchesNothingOutside state.memory after.memory root vaddr size
        after.allocator.freed ↔
      SpillFree state.memory root vaddr size ∧
        Unshared state.memory root vaddr size := by
  have bounded := bounded_of_run unmapped (by simp)
  obtain ⟨outcome, memoryEq, freedEq⟩ := run_unmapFree_recording wf bounded
  rw [unmapped] at outcome memoryEq freedEq
  have succeeded := outcome.symm
  have further := le_unmapEnd vaddr size
  have endBound : unmapEnd vaddr size ≤ 0x100000000 := by
    unfold unmapEnd
    omega
  have walked := fun (query : Nat) (bound : query < 0x100000000) =>
    walk_unmapEffect_ok wf bounded succeeded bound
  rw [memoryEq, freedEq]
  constructor
  · intro untouched
    have free : SpillFree state.memory root vaddr size := by
      intro query above below
      have outside : OutsideRange vaddr size query :=
        ⟨by omega, fun inside => Nat.not_lt.mpr above inside.2⟩
      have same := (untouched query outside).1
      rw [walked query outside.1, if_pos ⟨by omega, below⟩] at same
      exact same.symm
    refine ⟨free, ?_⟩
    intro query outside translation translated block member
    apply (untouched query outside).2 translation translated block
    exact (freed_perm_released wf bounded succeeded free).mem_iff.mpr member
  · rintro ⟨free, unshared⟩ query outside
    refine ⟨?_, ?_⟩
    · rw [walked query outside.1]
      split
      next unmappedPart =>
        have beyond : vaddr + size ≤ query := by
          by_contra inside
          exact outside.2 ⟨unmappedPart.1, Nat.not_le.mp inside⟩
        exact (free query beyond unmappedPart.2).symm
      next => rfl
    · intro translation translated block member
      apply unshared query outside translation translated block
      exact (freed_perm_released wf bounded succeeded free).mem_iff.mp member

end Touches

/-- A directory at `0x1000` whose first entry is a table at `0x2000` that maps the pages
of the given indices to consecutive frames from `0x4000`, with an allocator that has
nothing left. -/
def oneTable (indices : List Nat) : State (Scripted 0x1000) where
  memory := fun frame index =>
    if frame = 0x1000 ∧ index = 0 then .newPageTable 0x2000
    else if frame = 0x2000 ∧ index ∈ indices then
      leafEntry (0x4000 + indices.idxOf index * 0x1000) .readWrite
    else .NULL
  allocator := ⟨[], []⟩

theorem oneTable_wellFormed (indices : List Nat) :
    WellFormed (oneTable indices).memory 0x1000 := by
  have onlyFirst : ∀ i, ((oneTable indices).memory 0x1000 i).isTable = true → i = 0 := by
    intro i table
    by_contra other
    simp [oneTable, other, PTEntry.isTable] at table
  have first : (oneTable indices).memory 0x1000 0 = .newPageTable 0x2000 := by
    simp [oneTable]
  constructor
  · decide
  · intro i _ table
    rw [onlyFirst i table, first]
    decide
  · intro i _ table
    rw [onlyFirst i table, first]
    decide
  · intro i _ j _ iTable jTable _
    rw [onlyFirst i iTable, onlyFirst j jTable]

theorem oneTable_translates {indices : List Nat} {query : Nat}
    (translated : walk (oneTable indices).memory 0x1000 query ≠ none) :
    dirIndex query = 0 ∧ tableIndex query ∈ indices := by
  rw [walk_ne_none_iff] at translated
  by_cases firstRegion : dirIndex query = 0
  · refine ⟨firstRegion, ?_⟩
    have entry : (oneTable indices).memory 0x1000 (dirIndex query) =
        .newPageTable 0x2000 := by simp [oneTable, firstRegion]
    rw [entry] at translated
    rcases translated with large | ⟨-, present⟩
    · exact absurd large (by decide)
    · by_contra other
      have frameEq : (PTEntry.newPageTable 0x2000).frame = 0x2000 := by decide
      rw [frameEq] at present
      simp [oneTable, other] at present
  · simp [oneTable, firstRegion, PTEntry.isLarge, PTEntry.isTable] at translated

/-- The only address range that a table with its last page mapped translates. -/
theorem oneTable_last_page {query : Nat} (bounded : query < 0x100000000)
    (translated : walk (oneTable [0x3ff]).memory 0x1000 query ≠ none) :
    InRange 0x3ff000 0x1000 query := by
  obtain ⟨firstRegion, lastPage⟩ := oneTable_translates translated
  rw [List.mem_singleton] at lastPage
  unfold dirIndex at firstRegion
  unfold tableIndex at lastPage
  unfold InRange
  omega

/-- Unmapping the last page of a region touches nothing else. -/
theorem unmapFree_touches_nothing_outside_last_page :
    TouchesNothingOutside (oneTable [0x3ff]).memory
      (run handler ((AddressSpace.fromPaddr 0x1000).unmapFree 0x3ff000 0x1000)
        (recording (oneTable [0x3ff]))).2.memory 0x1000 0x3ff000 0x1000
      (run handler ((AddressSpace.fromPaddr 0x1000).unmapFree 0x3ff000 0x1000)
        (recording (oneTable [0x3ff]))).2.allocator.freed := by
  have returned : (run handler ((AddressSpace.fromPaddr 0x1000).unmapFree 0x3ff000 0x1000)
      (recording (oneTable [0x3ff]))).1 = .ok () := by decide +kernel
  have unmapped : run handler ((AddressSpace.fromPaddr 0x1000).unmapFree 0x3ff000 0x1000)
      (recording (oneTable [0x3ff])) = (.ok (), (run handler
        ((AddressSpace.fromPaddr 0x1000).unmapFree 0x3ff000 0x1000)
        (recording (oneTable [0x3ff]))).2) := by
    rw [← returned]
  refine (unmapFree_touches_nothing_outside_iff (oneTable_wellFormed _) unmapped).mpr
    ⟨?_, ?_⟩
  · intro query above below
    unfold unmapEnd at below
    omega
  · intro query outside translation translated
    refine absurd (oneTable_last_page outside.1 ?_) outside.2
    rw [translated]
    simp

/-- Unmapping one page takes the rest of its region with it. -/
theorem unmapFree_unmaps_next_page :
    WellFormed (oneTable [0, 0x3fe, 0x3ff]).memory 0x1000 ∧
    (run handler ((AddressSpace.fromPaddr 0x1000).unmapFree 0x3fe000 0x1000)
      (recording (oneTable [0, 0x3fe, 0x3ff]))).1 = .ok () ∧
    ¬TouchesNothingOutside (oneTable [0, 0x3fe, 0x3ff]).memory
      (run handler ((AddressSpace.fromPaddr 0x1000).unmapFree 0x3fe000 0x1000)
        (recording (oneTable [0, 0x3fe, 0x3ff]))).2.memory 0x1000 0x3fe000 0x1000
      (run handler ((AddressSpace.fromPaddr 0x1000).unmapFree 0x3fe000 0x1000)
        (recording (oneTable [0, 0x3fe, 0x3ff]))).2.allocator.freed := by
  refine ⟨oneTable_wellFormed _, by decide +kernel, fun untouched => ?_⟩
  have same := (untouched 0x3ff000 ⟨by decide, by unfold InRange; decide⟩).1
  have lost : walk (run handler
      ((AddressSpace.fromPaddr 0x1000).unmapFree 0x3fe000 0x1000)
      (recording (oneTable [0, 0x3fe, 0x3ff]))).2.memory 0x1000 0x3ff000 = none := by
    decide +kernel
  have mapped : walk (oneTable [0, 0x3fe, 0x3ff]).memory 0x1000 0x3ff000 ≠ none := by
    decide +kernel
  exact mapped (same.symm.trans lost)

/-! ## Everything in the range is unmapped -/

/-- A page of the address space that is mapped. -/
inductive PresentPage (memory : Memory) (root : Nat) : Nat → PageSize → Prop where
  | small {page : Nat} (onPage : page % 0x1000 = 0) (bounded : page < 0x100000000)
      (table : (memory root (dirIndex page)).isTable = true)
      (present : (memory (memory root (dirIndex page)).frame
        (tableIndex page)).flags.p = true) : PresentPage memory root page .size4K
  | large {page : Nat} (onRegion : page % 0x400000 = 0) (bounded : page < 0x100000000)
      (large : (memory root (dirIndex page)).isLarge = true) :
      PresentPage memory root page .size4M

/-- Each mapped page is wholly inside or wholly outside of the range. -/
def NoPageCut (memory : Memory) (root vaddr size : Nat) : Prop :=
  ∀ page pageSize, PresentPage memory root page pageSize →
    (∀ offset < pageSize.toNat, InRange vaddr size (page + offset)) ∨
      ∀ offset < pageSize.toNat, ¬InRange vaddr size (page + offset)

/-- No 4 MiB page is mapped in the range. -/
def NoLargePage (memory : Memory) (root vaddr size : Nat) : Prop :=
  ∀ query, InRange vaddr size query → (memory root (dirIndex query)).isLarge = false

/-- What the caller of `unmap_free` expects of the range: the call succeeds, nothing in
the range translates afterwards, each of its pages is freed once with its own size
along with the tables that are no longer needed, and nothing that is still mapped has
been freed. -/
structure UnmapsRange {A : Type} (before : Memory) (root vaddr size : Nat)
    (finished : Outcome MappingError Unit × State (Recorder PageSize A)) : Prop where
  succeeds : finished.1 = .ok ()
  unmaps : ∀ query, InRange vaddr size query → walk finished.2.memory root query = none
  frees : finished.2.allocator.freed.Perm (releasedBlocks before root vaddr size)
  keeps : ∀ query < 0x100000000, ∀ translation,
    walk finished.2.memory root query = some translation →
      ∀ block ∈ finished.2.allocator.freed, ¬Covers block translation.paddr

section Length

variable {memory : Memory} {root vaddr size region : Nat}

theorem pageBlocks_length_le (visits : Visits vaddr size region) :
    (pageBlocks memory root vaddr (vaddr + size) region).length ≤
      (pageBlocks memory root vaddr (unmapEnd vaddr size) region).length := by
  have further := le_unmapEnd vaddr size
  have reached : (vaddr ≤ region ∧ region + 0x400000 ≤ vaddr + size) ↔
      (vaddr ≤ region ∧ region + 0x400000 ≤ unmapEnd vaddr size) := by
    rw [← whole_iff visits, CutsRegion]
    omega
  cases table : (memory root (dirIndex region)).isTable with
  | true =>
      simp only [pageBlocks, table, if_true]
      apply List.Sublist.length_le
      apply List.Sublist.map
      apply List.Sublist.filter
      apply List.monotone_filter_right
      intro page inside
      simp only [decide_eq_true_eq] at inside ⊢
      omega
  | false =>
      simp only [pageBlocks, table, Bool.false_eq_true, if_false, reached, le_refl]

theorem tableBlock_length_le :
    (tableBlock memory root vaddr (vaddr + size) region).length ≤
      (tableBlock memory root vaddr (unmapEnd vaddr size) region).length := by
  have further := le_unmapEnd vaddr size
  have weaker : TableEmptied memory root vaddr (vaddr + size) region →
      TableEmptied memory root vaddr (unmapEnd vaddr size) region := by
    rintro ⟨table, whole | covered⟩
    · exact ⟨table, .inl ⟨whole.1, by omega⟩⟩
    · refine ⟨table, .inr fun index inside mapped => ?_⟩
      obtain ⟨present, above, ends⟩ := covered index inside mapped
      exact ⟨present, above, by omega⟩
  unfold tableBlock
  split
  next emptied => rw [if_pos (weaker emptied)]
  next => exact Nat.zero_le _

/-- A page in the spill area is freed in addition to what the range gives back. -/
theorem pageBlocks_length_lt (visits : Visits vaddr size region)
    (succeeded : (regionEffect memory root vaddr size region).outcome = .ok ())
    {query : Nat} (lower : region ≤ query) (upper : query < region + 0x400000)
    (above : vaddr + size ≤ query) (below : query < unmapEnd vaddr size)
    (translated : walk memory root query ≠ none) :
    (pageBlocks memory root vaddr (vaddr + size) region).length <
      (pageBlocks memory root vaddr (unmapEnd vaddr size) region).length := by
  have further := le_unmapEnd vaddr size
  have onRegion := visits.onRegion
  obtain ⟨small, complete⟩ := regionEffect_ok_iff.mp succeeded
  rw [walk_ne_none_iff, dirIndex_of_region onRegion lower upper, small] at translated
  obtain ⟨table, present⟩ := translated.resolve_left (by simp)
  have pagePresent : (memory (memory root (dirIndex region)).frame
      (tableIndex (query / 0x1000 * 0x1000))).flags.p = true := by
    rw [tableIndex_page]
    exact present
  have member : query / 0x1000 * 0x1000 ∈
      pagesWithin region vaddr (unmapEnd vaddr size) := by
    rw [← mem_partPages_iff_within visits (complete table) pagePresent]
    have inPart := (part_iff visits lower upper).mpr ⟨by omega, below⟩
    exact mem_partPages_of_part inPart.1 inPart.2
  -- The pages in the range are those before `unmapEnd` that pass one more test.
  have narrowed : (pagesWithin region vaddr (vaddr + size)) =
      (pagesWithin region vaddr (unmapEnd vaddr size)).filter fun page =>
        decide (page + 0x1000 ≤ vaddr + size) := by
    apply (pagesWithin_pairwise_lt _ _ _).eq_of_mem_iff
      ((pagesWithin_pairwise_lt _ _ _).filter _)
    intro page
    rw [List.mem_filter, mem_pagesWithin, mem_pagesWithin, decide_eq_true_iff]
    omega
  simp only [pageBlocks, table, if_true, leafFrames, List.length_map, narrowed]
  rw [List.filter_comm]
  apply List.length_filter_lt_length_iff_exists.mpr
  refine ⟨query / 0x1000 * 0x1000, List.mem_filter.mpr ⟨member, pagePresent⟩, ?_⟩
  rw [decide_eq_true_iff]
  omega

/-- A successful call that frees as many blocks as the range gives back has an empty
spill area. -/
theorem spillFree_of_length (wf : WellFormed memory root)
    (bounded : vaddr + size + 0x400000 < 0x100000000)
    (succeeded : (unmapEffect memory root vaddr size).outcome = .ok ())
    (same : (unmapEffect memory root vaddr size).freed.length =
      (releasedBlocks memory root vaddr size).length) :
    SpillFree memory root vaddr size := by
  intro query above below
  by_contra translated
  have visited : query / 0x400000 * 0x400000 ∈ regionsOf vaddr size := by
    by_contra notVisited
    exact not_visited notVisited ⟨by omega, below⟩
  have allOk := (unmapEffect_ok_iff wf bounded).mp succeeded
  rw [unmapEffect_freed_ok wf bounded succeeded, releasedBlocks,
    (List.flatMap_append_perm _ _ _).length_eq, List.length_flatMap,
    List.length_flatMap] at same
  refine absurd same (Nat.ne_of_gt (List.sum_lt_sum _ _ ?_ ⟨_, visited, ?_⟩))
  · intro region member
    rw [List.length_append, List.length_append]
    exact Nat.add_le_add (pageBlocks_length_le (visits_of_mem bounded member))
      tableBlock_length_le
  · rw [List.length_append, List.length_append]
    exact Nat.add_lt_add_of_lt_of_le
      (pageBlocks_length_lt (visits_of_mem bounded visited) (allOk _ visited) (by omega)
        (by omega) above below translated)
      tableBlock_length_le

end Length

section Unmaps

variable {memory : Memory} {root vaddr size : Nat}

/-- A visited region is no 4 MiB page: it holds an address of the range or, if that is empty,
of the spill area. -/
theorem isLarge_of_clear {region : Nat} (visits : Visits vaddr size region)
    (noLarge : NoLargePage memory root vaddr size)
    (free : SpillFree memory root vaddr size) :
    (memory root (dirIndex region)).isLarge = false := by
  obtain ⟨onRegion, above, below, -⟩ := visits
  rw [Bool.eq_false_iff]
  intro large
  by_cases empty : vaddr + size ≤ vaddr
  · have spilled := free vaddr empty (by unfold unmapEnd; omega)
    have selected : dirIndex vaddr = dirIndex region :=
      dirIndex_of_region onRegion (by omega) (by omega)
    rw [walk_of_large (by rw [selected]; exact large)] at spilled
    cases spilled
  · have selected : dirIndex (max vaddr region) = dirIndex region :=
      dirIndex_of_region onRegion (by omega) (by omega)
    have small := noLarge (max vaddr region) ⟨by omega, by omega⟩
    rw [selected, large] at small
    cases small

/-- The part of a region reaches a byte of each of its pages. -/
theorem exists_byte_of_mem_partPages {region page : Nat} (visits : Visits vaddr size region)
    (member : page ∈ partPages vaddr size region) :
    ∃ offset < 0x1000, vaddr ≤ page + offset ∧ page + offset < unmapEnd vaddr size := by
  have start := partStart_bounds visits
  have stop := partEnd_bounds visits
  rw [mem_partPages] at member
  obtain ⟨offset, inside, reached⟩ : ∃ offset < 0x1000,
      partStart vaddr region ≤ page + offset ∧
        page + offset < partEnd vaddr size region := by
    rcases Nat.lt_or_ge page (partStart vaddr region) with before | after
    · exact ⟨partStart vaddr region - page, by omega, by omega, by omega⟩
    · exact ⟨0, by omega, by omega, by omega⟩
  exact ⟨offset, inside, (part_iff visits (by omega) (by omega)).mp reached⟩

/-- No page of a visited region stops the call. -/
theorem not_stopsAt_of_clear {region page : Nat} (visits : Visits vaddr size region)
    (uncut : NoPageCut memory root vaddr size) (free : SpillFree memory root vaddr size)
    (table : (memory root (dirIndex region)).isTable = true)
    (member : page ∈ partPages vaddr size region) :
    ¬StopsAt memory (memory root (dirIndex region)).frame (partStart vaddr region)
      (partEnd vaddr size region) page := by
  rintro ⟨cut, present⟩
  have regionBound := visits.region_bound
  have inRegion := partPages_region visits member
  have selected : ∀ offset < 0x1000, dirIndex (page + offset) = dirIndex region :=
    fun offset inside => dirIndex_of_region visits.onRegion (by omega) (by omega)
  obtain ⟨offset, inside, byte⟩ := exists_byte_of_mem_partPages visits member
  have byteIndex : tableIndex (page + offset) = tableIndex page := by
    unfold tableIndex
    omega
  have translated : walk memory root (page + offset) ≠ none := by
    rw [walk_ne_none_iff, selected offset inside, byteIndex]
    exact .inr ⟨table, present⟩
  have inRange : InRange vaddr size (page + offset) := by
    refine ⟨byte.1, ?_⟩
    by_contra beyond
    exact translated (free _ (Nat.not_lt.mp beyond) byte.2)
  have pageSelected : dirIndex page = dirIndex region := selected 0 (by decide)
  have mapped : PresentPage memory root page .size4K :=
    .small inRegion.1 (by omega) (by rw [pageSelected]; exact table)
      (by rw [pageSelected]; exact present)
  rcases uncut page .size4K mapped with wholeInside | wholeOutside
  · have first := (wholeInside 0 (by decide)).1
    have last := (wholeInside 0xfff (by decide)).2
    unfold CutsPage partStart partEnd at cut
    split at cut
    · omega
    · split at cut <;> omega
  · exact wholeOutside offset inside inRange

/-- Without 4 MiB pages, spilled pages and cut pages nothing makes the call fail. -/
theorem unmapEffect_ok_of_clear (wf : WellFormed memory root)
    (bounded : vaddr + size + 0x400000 < 0x100000000)
    (uncut : NoPageCut memory root vaddr size)
    (noLarge : NoLargePage memory root vaddr size)
    (free : SpillFree memory root vaddr size) :
    (unmapEffect memory root vaddr size).outcome = .ok () := by
  rw [unmapEffect_ok_iff wf bounded]
  intro region member
  have visits := visits_of_mem bounded member
  rw [regionEffect_ok_iff]
  constructor
  · exact isLarge_of_clear visits noLarge free
  · intro table page pageMember
    exact not_stopsAt_of_clear visits uncut free table pageMember

variable {A : Type} [PageAllocatorTrait PageSize A]

/-- `unmap_free` unmaps a range that cuts no page exactly when the range holds no 4 MiB
page, the rest of the region that it starts in is unmapped, and it shares no frame
with its surroundings. -/
theorem unmapFree_unmaps_range_iff (state : State A) (wf : WellFormed state.memory root)
    (bounded : vaddr + size + 0x400000 < 0x100000000)
    (uncut : NoPageCut state.memory root vaddr size) :
    UnmapsRange state.memory root vaddr size
        (run handler ((AddressSpace.fromPaddr root).unmapFree vaddr size)
          (recording state)) ↔
      NoLargePage state.memory root vaddr size ∧
        SpillFree state.memory root vaddr size ∧
        Unshared state.memory root vaddr size := by
  obtain ⟨outcome, memoryEq, freedEq⟩ := run_unmapFree_recording wf bounded
  have further := le_unmapEnd vaddr size
  constructor
  · rintro ⟨succeeds, unmaps, frees, keeps⟩
    have succeeded := outcome.symm.trans succeeds
    have walked := fun (query : Nat) (bound : query < 0x100000000) =>
      walk_unmapEffect_ok wf bounded succeeded bound
    rw [freedEq] at frees keeps
    rw [memoryEq] at keeps
    have free := spillFree_of_length wf bounded succeeded frees.length_eq
    refine ⟨?_, free, ?_⟩
    · intro query inside
      have visited : query / 0x400000 * 0x400000 ∈ regionsOf vaddr size := by
        by_contra notVisited
        exact not_visited notVisited ⟨inside.1, by have := inside.2; omega⟩
      have allOk := (unmapEffect_ok_iff wf bounded).mp succeeded
      have small := (regionEffect_ok_iff.mp (allOk _ visited)).1
      have selected : dirIndex query = dirIndex (query / 0x400000 * 0x400000) := by
        unfold dirIndex
        omega
      rw [selected]
      exact small
    · intro query outside translation translated block member
      apply keeps query outside.1 translation _ block (frees.mem_iff.mpr member)
      rw [walked query outside.1, if_neg]
      · exact translated
      · rintro ⟨above, below⟩
        have beyond : vaddr + size ≤ query := by
          by_contra inside
          exact outside.2 ⟨above, Nat.not_le.mp inside⟩
        rw [free query beyond below] at translated
        cases translated
  · rintro ⟨noLarge, free, unshared⟩
    have succeeded := unmapEffect_ok_of_clear wf bounded uncut noLarge free
    have walked := fun (query : Nat) (bound : query < 0x100000000) =>
      walk_unmapEffect_ok wf bounded succeeded bound
    have perm := freed_perm_released wf bounded succeeded free
    constructor
    · exact outcome.trans succeeded
    · intro query inside
      have bound := inside.2
      rw [memoryEq, walked query (by omega), if_pos ⟨inside.1, by omega⟩]
    · rw [freedEq]
      exact perm
    · intro query queryBound translation translated block member
      rw [memoryEq, walked query queryBound] at translated
      rw [freedEq] at member
      split at translated
      next => cases translated
      next outside =>
        refine unshared query ⟨queryBound, ?_⟩ translation translated block
          (perm.mem_iff.mp member)
        rintro ⟨above, below⟩
        exact outside ⟨above, by omega⟩

end Unmaps

theorem PresentPage.translates {memory : Memory} {root page : Nat} {pageSize : PageSize}
    (mapped : PresentPage memory root page pageSize) : walk memory root page ≠ none := by
  rw [walk_ne_none_iff]
  cases mapped with
  | small onPage bounded table present => exact .inr ⟨table, present⟩
  | large onRegion bounded large => exact .inl large

/-- Unmapping the last page of a region unmaps it. -/
theorem unmapFree_unmaps_last_page :
    UnmapsRange (oneTable [0x3ff]).memory 0x1000 0x3ff000 0x1000
      (run handler ((AddressSpace.fromPaddr 0x1000).unmapFree 0x3ff000 0x1000)
        (recording (oneTable [0x3ff]))) := by
  have first : (oneTable [0x3ff]).memory 0x1000 0 = .newPageTable 0x2000 := by
    simp [oneTable]
  have noLarge : ∀ query, InRange 0x3ff000 0x1000 query →
      ((oneTable [0x3ff]).memory 0x1000 (dirIndex query)).isLarge = false := by
    intro query inside
    have firstRegion : dirIndex query = 0 := by
      unfold InRange at inside
      unfold dirIndex
      omega
    rw [firstRegion, first]
    decide
  refine (unmapFree_unmaps_range_iff (oneTable [0x3ff]) (oneTable_wellFormed _)
    (by decide) ?_).mpr ⟨noLarge, ?_, ?_⟩
  · intro page pageSize mapped
    have translated := mapped.translates
    cases mapped with
    | small onPage bounded table present =>
        have inside := oneTable_last_page bounded translated
        refine .inl fun offset below => ?_
        unfold InRange at *
        simp only [PageSize.toNat] at below
        omega
    | large onRegion bounded large =>
        have inside := oneTable_last_page bounded translated
        rw [noLarge page inside] at large
        cases large
  · intro query above below
    unfold unmapEnd at below
    omega
  · intro query outside translation translated
    refine absurd (oneTable_last_page outside.1 ?_) outside.2
    rw [translated]
    simp

/-- A directory at `0x1000` whose first entry is a 4 MiB page. -/
def largePageSpace : State (Scripted 0x1000) where
  memory := fun frame index =>
    if frame = 0x1000 ∧ index = 0 then
      .newPage 0x800000 .size4M (.ofMapping .readWrite)
    else .NULL
  allocator := ⟨[], []⟩

theorem largePageSpace_wellFormed : WellFormed largePageSpace.memory 0x1000 := by
  have noTable : ∀ i, (largePageSpace.memory 0x1000 i).isTable = false := by
    intro i
    simp only [largePageSpace, true_and]
    split <;> decide
  constructor
  · decide
  · intro i _ table
    simp [noTable] at table
  · intro i _ table
    simp [noTable] at table
  · intro i _ j _ table
    simp [noTable] at table

/-- A 4 MiB page is freed but stays mapped. -/
theorem unmapFree_large_page_stays_mapped :
    WellFormed largePageSpace.memory 0x1000 ∧
    NoPageCut largePageSpace.memory 0x1000 0 0x400000 ∧
    ¬UnmapsRange largePageSpace.memory 0x1000 0 0x400000
      (run handler ((AddressSpace.fromPaddr 0x1000).unmapFree 0 0x400000)
        (recording largePageSpace)) ∧
    (run handler ((AddressSpace.fromPaddr 0x1000).unmapFree 0 0x400000)
      (recording largePageSpace)).2.allocator.freed = [(0x800000, .size4M)] ∧
    (walk (run handler ((AddressSpace.fromPaddr 0x1000).unmapFree 0 0x400000)
      (recording largePageSpace)).2.memory 0x1000 0).map Translation.paddr =
        some 0x800000 := by
  have failed : (run handler ((AddressSpace.fromPaddr 0x1000).unmapFree 0 0x400000)
      (recording largePageSpace)).1 = .err (.mappingOver 0x800000) := by decide +kernel
  refine ⟨largePageSpace_wellFormed, ?_, ?_, by decide +kernel, by decide +kernel⟩
  · intro page pageSize mapped
    have inFirst : dirIndex page = 0 := by
      have translated := mapped.translates
      by_contra other
      rw [walk_ne_none_iff] at translated
      simp [largePageSpace, other, PTEntry.isLarge, PTEntry.isTable] at translated
    cases mapped with
    | small onPage bounded table present =>
        rw [inFirst] at table
        exact absurd table (by decide)
    | large onRegion bounded large =>
        refine .inl fun offset below => ?_
        unfold dirIndex at inFirst
        unfold InRange
        simp only [PageSize.toNat] at below
        omega
  · intro unmaps
    have succeeded := unmaps.succeeds
    rw [failed] at succeeded
    cases succeeded

end SatanKernel.X86
