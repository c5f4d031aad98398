import Mathlib.Data.List.TakeWhile
import SatanKernel.X86.UnmapPages

/-!
# Unmapping one 4 MiB region

One iteration of `unmap_free` on the page directory.  `regionEffect` is the iteration
as a function of memory alone: how it ends, the memory it leaves and the blocks it
gives back, in order.  The allocator's state only follows the calls of `free`, so one
equation covers every allocator.
-/

namespace SatanKernel.X86

open Lib NestedPageTableLevel
open Lib.Program (run)

/-- What a program that only frees does: its ending, the memory it leaves and the
blocks it frees, oldest first. -/
structure Effect where
  outcome : Outcome MappingError Unit
  memory : Memory
  freed : List (Nat × PageSize)

/-- The effect as the end of a run. -/
def Effect.apply {A : Type} [PageAllocatorTrait PageSize A] (effect : Effect)
    (allocator : A) : Outcome MappingError Unit × State A :=
  (effect.outcome, ⟨effect.memory, freeAll allocator effect.freed⟩)

section Apply

variable {A : Type} [PageAllocatorTrait PageSize A] (effect : Effect) (allocator : A)

@[simp] theorem Effect.apply_outcome : (effect.apply allocator).1 = effect.outcome := rfl

@[simp] theorem Effect.apply_memory :
    (effect.apply allocator).2.memory = effect.memory := rfl

@[simp] theorem Effect.apply_allocator :
    (effect.apply allocator).2.allocator = freeAll allocator effect.freed := rfl

/-- An effect that succeeds, as the end of a run. -/
theorem Effect.apply_ok (succeeded : effect.outcome = .ok ()) :
    ∃ after, effect.apply allocator = (.ok (), after) ∧ after.memory = effect.memory :=
  ⟨_, by rw [apply, succeeded], rfl⟩

end Apply

/-! ## The part of a region that a range reaches -/

/-- The range `[vaddr, vaddr + size)` cuts the region at `region`. -/
def CutsRegion (vaddr size region : Nat) : Prop :=
  region < vaddr ∨ vaddr + size < region + 0x400000

instance (vaddr size region : Nat) : Decidable (CutsRegion vaddr size region) :=
  inferInstanceAs (Decidable (_ ∨ _))

/-- Start of the part of a region that is unmapped. -/
def partStart (vaddr region : Nat) : Nat := if region < vaddr then vaddr else region

/-- End of the part of a region that is unmapped.  Where the region holds the start of
the range, this is the end of the region, whatever the size of the range. -/
def partEnd (vaddr size region : Nat) : Nat :=
  if region < vaddr then region + 0x400000
  else if vaddr + size < region + 0x400000 then vaddr + size
  else region + 0x400000

/-- The pages of a region that are unmapped. -/
def partPages (vaddr size region : Nat) : List Nat :=
  pagesOf (partStart vaddr region) (partEnd vaddr size region)

/-- A region that the loop of `unmap_free` visits. -/
structure Visits (vaddr size region : Nat) : Prop where
  onRegion : region % 0x400000 = 0
  above : vaddr < region + 0x400000
  below : region < vaddr + size
  bounded : vaddr + size + 0x400000 < 0x100000000

section Part

variable {vaddr size region : Nat}

theorem partStart_bounds (visits : Visits vaddr size region) :
    region ≤ partStart vaddr region ∧ partStart vaddr region < region + 0x400000 := by
  obtain ⟨-, above, -, -⟩ := visits
  unfold partStart
  split <;> omega

/-- The part of a visited region is not empty. -/
theorem partEnd_bounds (visits : Visits vaddr size region) :
    partStart vaddr region < partEnd vaddr size region ∧
      partEnd vaddr size region ≤ region + 0x400000 := by
  obtain ⟨-, above, below, -⟩ := visits
  unfold partStart partEnd
  repeat' split
  all_goals omega

/-- The last region that a range can reach ends well below the top of the address
space. -/
theorem Visits.region_bound (visits : Visits vaddr size region) :
    region + 0x400000 + 0x1000 < 0x100000000 := by
  obtain ⟨onRegion, -, below, bounded⟩ := visits
  omega

theorem mem_partPages {page : Nat} :
    page ∈ partPages vaddr size region ↔
      page % 0x1000 = 0 ∧ partStart vaddr region < page + 0x1000 ∧
        page < partEnd vaddr size region := mem_pagesOf

theorem partPages_region (visits : Visits vaddr size region) {page : Nat}
    (member : page ∈ partPages vaddr size region) :
    page % 0x1000 = 0 ∧ region ≤ page ∧ page + 0x1000 ≤ region + 0x400000 := by
  have start := partStart_bounds visits
  have stop := partEnd_bounds visits
  have onRegion := visits.onRegion
  rw [mem_partPages] at member
  omega

theorem partPages_bound (visits : Visits vaddr size region) :
    ∀ page ∈ partPages vaddr size region,
      page % 0x1000 = 0 ∧ page + 0x1000 < 0x100000000 := by
  intro page member
  have bound := visits.region_bound
  have inside := partPages_region visits member
  omega

theorem partPages_tableIndex (visits : Visits vaddr size region) :
    (partPages vaddr size region).Pairwise fun left right =>
      tableIndex left ≠ tableIndex right :=
  pagesOf_tableIndex visits.onRegion (partStart_bounds visits).1
    (partEnd_bounds visits).2

end Part

/-! ## The effect of an iteration -/

/-- Some entry of the table at `frame` is mapped. -/
def tableInUse (memory : Memory) (frame : Nat) : Bool :=
  (List.range 0x400).any fun index => (memory frame index).isMapped

theorem tableInUse_iff {memory : Memory} {frame : Nat} :
    tableInUse memory frame = true ↔
      ∃ index < 0x400, (memory frame index).isMapped = true := by
  simp only [tableInUse, List.any_eq_true, List.mem_range]

/-- The entry that unlinking a table leaves in the directory: the generic free entry,
encoded for a level that can hold 4 MiB pages. -/
def unlinkedEntry : PTEntry := ⟨0x80⟩

/-- Whether the loop over the part's pages goes on after `page`. -/
def proceeds (memory : Memory) (frame vaddr size region page : Nat) : Bool :=
  !decide (StopsAt memory frame (partStart vaddr region) (partEnd vaddr size region) page)

/-- The effect on a region whose directory entry is a page table at `frame`. -/
def tableEffect (memory : Memory) (root frame vaddr size region : Nat) : Effect :=
  let pages := partPages vaddr size region
  let goesOn := proceeds memory frame vaddr size region
  match pages.dropWhile goesOn with
  | page :: _ =>
      { outcome := .err (.unmappingPartOfLargePage
          (memory frame (tableIndex page)).address)
        memory := memory.clearPages frame (pages.takeWhile goesOn)
        freed := leafFrames memory frame (pages.takeWhile goesOn) }
  | [] =>
      if CutsRegion vaddr size region ∧
          tableInUse (memory.clearPages frame pages) frame = true then
        { outcome := .ok ()
          memory := memory.clearPages frame pages
          freed := leafFrames memory frame pages }
      else
        { outcome := .ok ()
          memory := (memory.clearPages frame pages).write root (dirIndex region)
            unlinkedEntry
          freed := leafFrames memory frame pages ++ [(frame, .size4K)] }

/-- The effect of one iteration of `unmap_free` on the page directory. -/
def regionEffect (memory : Memory) (root vaddr size region : Nat) : Effect :=
  let pde := memory root (dirIndex region)
  if pde.isTable then tableEffect memory root pde.frame vaddr size region
  else if pde.flags.p then
    if CutsRegion vaddr size region then
      ⟨.err (.unmappingPartOfLargePage pde.address), memory, []⟩
    else ⟨.err (.mappingOver pde.address), memory, [(pde.address, .size4M)]⟩
  else ⟨.ok (), memory, []⟩

/-- The ways in which an iteration ends, with what decides between them. -/
inductive RegionEnding (memory : Memory) (root vaddr size region : Nat) :
    Effect → Prop where
  | idle (absent : (memory root (dirIndex region)).flags.p = false) :
      RegionEnding memory root vaddr size region ⟨.ok (), memory, []⟩
  | cutLarge (large : (memory root (dirIndex region)).isLarge = true)
      (cut : CutsRegion vaddr size region) :
      RegionEnding memory root vaddr size region
        ⟨.err (.unmappingPartOfLargePage (memory root (dirIndex region)).address),
          memory, []⟩
  | wholeLarge (large : (memory root (dirIndex region)).isLarge = true)
      (whole : ¬CutsRegion vaddr size region) :
      RegionEnding memory root vaddr size region
        ⟨.err (.mappingOver (memory root (dirIndex region)).address), memory,
          [((memory root (dirIndex region)).address, .size4M)]⟩
  | stopped {frame : Nat} (table : (memory root (dirIndex region)).isTable = true)
      (framed : frame = (memory root (dirIndex region)).frame)
      {before rest : List Nat} {page : Nat}
      (split : partPages vaddr size region = before ++ page :: rest)
      (passes : ∀ other ∈ before, ¬StopsAt memory frame (partStart vaddr region)
        (partEnd vaddr size region) other)
      (stops : StopsAt memory frame (partStart vaddr region)
        (partEnd vaddr size region) page) :
      RegionEnding memory root vaddr size region
        ⟨.err (.unmappingPartOfLargePage (memory frame (tableIndex page)).address),
          memory.clearPages frame before, leafFrames memory frame before⟩
  | kept {frame : Nat} (table : (memory root (dirIndex region)).isTable = true)
      (framed : frame = (memory root (dirIndex region)).frame)
      (complete : ∀ page ∈ partPages vaddr size region, ¬StopsAt memory frame
        (partStart vaddr region) (partEnd vaddr size region) page)
      (cut : CutsRegion vaddr size region)
      (inUse : tableInUse
        (memory.clearPages frame (partPages vaddr size region)) frame = true) :
      RegionEnding memory root vaddr size region
        ⟨.ok (), memory.clearPages frame (partPages vaddr size region),
          leafFrames memory frame (partPages vaddr size region)⟩
  | unlinked {frame : Nat} (table : (memory root (dirIndex region)).isTable = true)
      (framed : frame = (memory root (dirIndex region)).frame)
      (complete : ∀ page ∈ partPages vaddr size region, ¬StopsAt memory frame
        (partStart vaddr region) (partEnd vaddr size region) page)
      (unused : CutsRegion vaddr size region → tableInUse
        (memory.clearPages frame (partPages vaddr size region)) frame = false) :
      RegionEnding memory root vaddr size region
        ⟨.ok (), (memory.clearPages frame (partPages vaddr size region)).write root
            (dirIndex region) unlinkedEntry,
          leafFrames memory frame (partPages vaddr size region) ++ [(frame, .size4K)]⟩

/-- The loop over the part's pages proceeds to its end, or up to a page that stops
it. -/
theorem dropWhile_proceeds_cons {memory : Memory} {frame vaddr size region page : Nat}
    {pages rest : List Nat}
    (stopped : pages.dropWhile (proceeds memory frame vaddr size region) = page :: rest) :
    pages = pages.takeWhile (proceeds memory frame vaddr size region) ++ page :: rest ∧
      (∀ other ∈ pages.takeWhile (proceeds memory frame vaddr size region),
        ¬StopsAt memory frame (partStart vaddr region) (partEnd vaddr size region)
          other) ∧
      StopsAt memory frame (partStart vaddr region) (partEnd vaddr size region) page := by
  refine ⟨?_, ?_, ?_⟩
  · rw [← stopped, List.takeWhile_append_dropWhile]
  · intro other member
    simpa [proceeds] using List.mem_takeWhile_imp member
  · have nonempty : pages.dropWhile (proceeds memory frame vaddr size region) ≠ [] := by
      simp [stopped]
    have head := List.head_dropWhile_not _ nonempty
    simpa [stopped, proceeds] using head

theorem dropWhile_proceeds_nil {memory : Memory} {frame vaddr size region : Nat}
    {pages : List Nat}
    (complete : pages.dropWhile (proceeds memory frame vaddr size region) = []) :
    ∀ page ∈ pages,
      ¬StopsAt memory frame (partStart vaddr region) (partEnd vaddr size region) page := by
  intro page member
  have passes := List.dropWhile_eq_nil_iff.mp complete page member
  simpa [proceeds] using passes

theorem regionEnding (memory : Memory) (root vaddr size region : Nat) :
    RegionEnding memory root vaddr size region
      (regionEffect memory root vaddr size region) := by
  unfold regionEffect
  rcases (memory root (dirIndex region)).isTable_or with table | large | absent
  · simp only [table, if_true, tableEffect]
    split
    next page rest stopped =>
      obtain ⟨split, passes, stops⟩ := dropWhile_proceeds_cons stopped
      exact .stopped table rfl split passes stops
    next complete =>
      have complete := dropWhile_proceeds_nil complete
      split
      next used => exact .kept table rfl complete used.1 used.2
      next unused =>
        refine .unlinked table rfl complete fun cut => ?_
        simpa [cut] using unused
  · have present := large
    simp only [PTEntry.isLarge, Bool.and_eq_true] at present
    simp only [PTEntry.isLarge_not_isTable large, Bool.false_eq_true, if_false,
      present.1, if_true]
    split
    next cut => exact .cutLarge large cut
    next whole => exact .wholeLarge large whole
  · simp only [PTEntry.not_present_not_isTable absent, Bool.false_eq_true, if_false,
      absent]
    exact .idle absent

/-! ## The iteration has this effect -/

section Run

variable {A : Type} [PageAllocatorTrait PageSize A] (state : State A)

/-- `unmap_free` on a page table is the loop over the pages of its range. -/
theorem unmapFree_pageTable_eq {frame lo length : Nat}
    (bounded : lo + length + 0x1000 < 0x100000000) :
    unmapFree 1 (pageTable frame) lo length =
      Program.forEach (pagesOf lo (lo + length))
        (unmapRegion (unmapFree 0) (pageTable frame) lo length) := by
  have sumBound : lo + length < 0x100000000 := by omega
  have startBound : lo < 0x100000000 := by omega
  have rounded : (alignUp (lo + length) 0x1000 : PagingM Nat) =
      .ret ((lo + length + 0x1000 - 1) / 0x1000 * 0x1000) :=
    alignUp_of_lt (k := 12) (by decide) bounded
  rw [unmapFree, checkedAdd_of_lt sumBound, Program.ret_bind, regionSize_pageTable,
    alignDown_page startBound, rounded, Program.ret_bind, pagesOf]

/-- The addresses that the scan of a table reads. -/
theorem mem_scan {region entryAddr : Nat} (onRegion : region % 0x400000 = 0) :
    entryAddr ∈ stepBy region (region + 0x400000) 0x1000 ↔
      entryAddr % 0x1000 = 0 ∧ region ≤ entryAddr ∧ entryAddr < region + 0x400000 := by
  have multiple : region / 0x1000 * 0x1000 = region := by omega
  have multipleEnd : (region / 0x1000 + 0x400) * 0x1000 = region + 0x400000 := by
    rw [Nat.add_mul, multiple]
  have members : entryAddr ∈ stepBy (region / 0x1000 * 0x1000)
      ((region / 0x1000 + 0x400) * 0x1000) 0x1000 ↔ _ := mem_stepBy (by decide)
  rwa [multiple, multipleEnd] at members

/-- The scan visits one address for each index of a table. -/
theorem any_stepBy_region {region : Nat} (onRegion : region % 0x400000 = 0)
    (memory : Memory) (frame : Nat) :
    ((stepBy region (region + 0x400000) 0x1000).any fun entryAddr =>
      (memory frame (tableIndex entryAddr)).isMapped) = tableInUse memory frame := by
  rw [Bool.eq_iff_iff, tableInUse_iff, List.any_eq_true]
  constructor
  · rintro ⟨entryAddr, -, mapped⟩
    exact ⟨tableIndex entryAddr, tableIndex_lt entryAddr, mapped⟩
  · rintro ⟨index, inside, mapped⟩
    refine ⟨region + index * 0x1000, ?_, ?_⟩
    · rw [mem_scan onRegion]
      omega
    · have selected : tableIndex (region + index * 0x1000) = index := by
        unfold tableIndex
        omega
      rw [selected]
      exact mapped

/-- The scan of a table for mapped entries. -/
theorem run_anyMapped {frame region : Nat} (aligned : frame % 0x1000 = 0)
    (onRegion : region % 0x400000 = 0) (bounded : region + 0x400000 < 0x100000000) :
    run handler (anyMapped region 0x400000 (pageTable frame)) state =
      (.ok (tableInUse state.memory frame), state) := by
  simp only [anyMapped, Program.run_bind, run_checkedAdd_of_lt handler bounded,
    Outcome.andThen_ok, regionSize_pageTable]
  rw [Program.run_anyOf_of_reads handler _ _
    (fun entryAddr => (state.memory frame (tableIndex entryAddr)).isMapped),
    any_stepBy_region onRegion]
  intro entryAddr member
  simp only [Program.run_bind, run_getEntry_pageTable state entryAddr aligned,
    Outcome.andThen_ok, Program.run_pure]
  rw [← decode_pageTable frame, decode_mapped]

/-- Unlinking a table frees it and clears its directory entry. -/
theorem run_unlinkSublevel {root frame region : Nat} (rootAligned : root % 0x1000 = 0)
    (onRegion : region % 0x400000 = 0)
    (ps : (state.memory root (dirIndex region)).flags.ps = false) :
    run handler (unlinkSublevel (directory root) region (pageTable frame)) state =
      (.ok (), {
        memory := state.memory.write root (dirIndex region) unlinkedEntry
        allocator := PageAllocatorTrait.free state.allocator frame PageSize.size4K }) := by
  simp only [unlinkSublevel, Program.run_bind, run_freeSublevel, Outcome.andThen_ok,
    PageTableEntry.NULL]
  rw [run_setEntry_directory_page { state with
      allocator := PageAllocatorTrait.free state.allocator frame PageSize.size4K }
    rootAligned onRegion 0 .empty ps, PTEntry.newPage_null_4M, unlinkedEntry]

theorem unmapFree_part_eq {frame vaddr size region : Nat}
    (visits : Visits vaddr size region) :
    unmapFree 1 (pageTable frame) (partStart vaddr region)
        (partEnd vaddr size region - partStart vaddr region) =
      Program.forEach (partPages vaddr size region)
        (unmapRegion (unmapFree 0) (pageTable frame) (partStart vaddr region)
          (partEnd vaddr size region - partStart vaddr region)) := by
  have stop := partEnd_bounds visits
  have bound := visits.region_bound
  have whole : partStart vaddr region +
      (partEnd vaddr size region - partStart vaddr region) =
        partEnd vaddr size region := by omega
  rw [unmapFree_pageTable_eq (by omega), whole, partPages]

/-- A part without a page that stops the loop is unmapped. -/
theorem run_unmapFree_part_ok {frame vaddr size region : Nat}
    (aligned : frame % 0x1000 = 0) (visits : Visits vaddr size region)
    (complete : (partPages vaddr size region).dropWhile
      (proceeds state.memory frame vaddr size region) = []) :
    run handler (unmapFree 1 (pageTable frame) (partStart vaddr region)
        (partEnd vaddr size region - partStart vaddr region)) state =
      (.ok (), {
        memory := state.memory.clearPages frame (partPages vaddr size region)
        allocator := freeAll state.allocator
          (leafFrames state.memory frame (partPages vaddr size region)) }) := by
  have stop := partEnd_bounds visits
  have bound := visits.region_bound
  have whole : partStart vaddr region +
      (partEnd vaddr size region - partStart vaddr region) =
        partEnd vaddr size region := by omega
  rw [unmapFree_part_eq visits]
  apply run_unmapPages state _ aligned (by omega) _ (partPages_bound visits)
    (partPages_tableIndex visits)
  rw [whole]
  exact dropWhile_proceeds_nil complete

/-- A part with a page that stops the loop is unmapped up to that page. -/
theorem run_unmapFree_part_err {frame vaddr size region page : Nat} {rest : List Nat}
    (aligned : frame % 0x1000 = 0) (visits : Visits vaddr size region)
    (stopped : (partPages vaddr size region).dropWhile
      (proceeds state.memory frame vaddr size region) = page :: rest) :
    run handler (unmapFree 1 (pageTable frame) (partStart vaddr region)
        (partEnd vaddr size region - partStart vaddr region)) state =
      (.err (.unmappingPartOfLargePage (state.memory frame (tableIndex page)).address), {
        memory := state.memory.clearPages frame ((partPages vaddr size region).takeWhile
          (proceeds state.memory frame vaddr size region))
        allocator := freeAll state.allocator (leafFrames state.memory frame
          ((partPages vaddr size region).takeWhile
            (proceeds state.memory frame vaddr size region))) }) := by
  have stop := partEnd_bounds visits
  have bound := visits.region_bound
  have whole : partStart vaddr region +
      (partEnd vaddr size region - partStart vaddr region) =
        partEnd vaddr size region := by omega
  obtain ⟨split, passes, stops⟩ := dropWhile_proceeds_cons stopped
  have inside := partPages_bound visits
  have distinct := partPages_tableIndex visits
  rw [unmapFree_part_eq visits]
  rw [split] at inside distinct
  rw [← whole] at stops passes
  nth_rewrite 1 [split]
  exact run_unmapPages_stopped state _ aligned (by omega) _ rest page inside distinct
    passes stops

/-- Both branches for a partly covered region unmap the same kind of part. -/
theorem unmapPart_eq {frame vaddr size region : Nat} (visits : Visits vaddr size region)
    (cut : CutsRegion vaddr size region) :
    unmapPart (unmapFree 1) vaddr size region 0x400000 (pageTable frame) =
      unmapFree 1 (pageTable frame) (partStart vaddr region)
        (partEnd vaddr size region - partStart vaddr region) := by
  have bound := visits.region_bound
  have rangeBound := visits.bounded
  have above := visits.above
  have below := visits.below
  unfold unmapPart
  split
  next head =>
    have endBound : region + 0x400000 < 0x100000000 := by omega
    have ordered : vaddr ≤ region + 0x400000 := by omega
    rw [checkedAdd_of_lt endBound, Program.ret_bind, checkedSub_of_le ordered,
      Program.ret_bind, partStart, if_pos head, partEnd, if_pos head]
  next tail =>
    have shorter : vaddr + size < region + 0x400000 := cut.resolve_left tail
    have endBound : vaddr + size < 0x100000000 := by omega
    have ordered : region ≤ vaddr + size := by omega
    rw [checkedAdd_of_lt endBound, Program.ret_bind, checkedSub_of_le ordered,
      Program.ret_bind, partStart, if_neg tail, partEnd, if_neg tail, if_pos shorter]

theorem part_of_whole {vaddr size region : Nat} (whole : ¬CutsRegion vaddr size region) :
    partStart vaddr region = region ∧ partEnd vaddr size region = region + 0x400000 := by
  unfold CutsRegion at whole
  unfold partStart partEnd
  constructor
  · rw [if_neg (by omega)]
  · rw [if_neg (by omega), if_neg (by omega)]

/-- Unmapping the part of a region whose table is at `frame`, by either of the two
branches. -/
def unmapTable (root frame vaddr size region : Nat) : PagingM Unit := do
  unmapFree 1 (pageTable frame) (partStart vaddr region)
    (partEnd vaddr size region - partStart vaddr region)
  if CutsRegion vaddr size region then do
    let mapped ← anyMapped region 0x400000 (pageTable frame)
    if mapped then pure () else unlinkSublevel (directory root) region (pageTable frame)
  else unlinkSublevel (directory root) region (pageTable frame)

theorem unmapRegion_eq {vaddr size region : Nat} (root : Nat)
    (visits : Visits vaddr size region) :
    ∃ next, unmapRegion (unmapFree 1) (directory root) vaddr size region =
        getEntry (directory root) region >>= next ∧
      ∀ word, next ((directory root).decode word) =
        if word.isTable then unmapTable root word.address vaddr size region
        else unmapLeaf (directory root) (CutsRegion vaddr size region) region word := by
  have bound := visits.region_bound
  have rangeBound := visits.bounded
  refine ⟨_, rfl, fun word => ?_⟩
  rw [regionSize_directory, cutByRange_eq (by omega) (by omega), Program.ret_bind,
    decode_directory]
  by_cases cut : CutsRegion vaddr size region
  · have isCut : decide (region < vaddr ∨ vaddr + size < region + 0x400000) = true :=
      decide_eq_true cut
    rw [isCut]
    cases word.isTable with
    | true =>
        simp only [if_true, unmapCutTable, regionSize_directory, unmapPart_eq visits cut,
          unmapTable, cut]
    | false =>
        simp only [Bool.false_eq_true, if_false, unmapLeaf, cut, decide_true, if_true,
          PTEFlags.toMapping]
  · have notCut : decide (region < vaddr ∨ vaddr + size < region + 0x400000) = false :=
      decide_eq_false cut
    rw [notCut]
    cases word.isTable with
    | true =>
        obtain ⟨startEq, endEq⟩ := part_of_whole cut
        simp only [if_true, unmapWholeTable, regionSize_directory, unmapTable, cut, if_false,
          startEq, endEq, Nat.add_sub_cancel_left]
    | false =>
        simp only [Bool.false_eq_true, if_false, unmapLeaf, cut, decide_false,
          PTEFlags.toMapping]

/-- A region whose directory entry is a page table. -/
theorem run_unmapTable {root vaddr size region : Nat}
    (wf : WellFormed state.memory root) (visits : Visits vaddr size region)
    (table : (state.memory root (dirIndex region)).isTable = true) :
    run handler (unmapTable root (state.memory root (dirIndex region)).frame vaddr size region)
        state =
      (tableEffect state.memory root (state.memory root (dirIndex region)).frame vaddr
        size region).apply state.allocator := by
  have inside := dirIndex_lt region
  have bound := visits.region_bound
  have aligned := (state.memory root (dirIndex region)).frame_aligned
  have notRoot := wf.table_ne_root _ inside table
  have entrySame := clearPages_of_frame_ne state.memory _ (Ne.symm notRoot)
    (partPages vaddr size region) (dirIndex region)
  rw [unmapTable, Program.run_bind]
  simp only [tableEffect]
  cases ending : (partPages vaddr size region).dropWhile
      (proceeds state.memory (state.memory root (dirIndex region)).frame vaddr size region) with
  | cons page rest =>
      rw [run_unmapFree_part_err state aligned visits ending, Outcome.andThen_err, Effect.apply]
  | nil =>
      rw [run_unmapFree_part_ok state aligned visits ending, Outcome.andThen_ok]
      by_cases cut : CutsRegion vaddr size region
      · simp only [cut, if_true, true_and]
        rw [Program.run_bind, run_anyMapped _ aligned visits.onRegion (by omega),
          Outcome.andThen_ok]
        split
        next inUse => rw [Program.run_pure, Effect.apply]
        next empty =>
          rw [run_unlinkSublevel _ wf.root_aligned visits.onRegion
            (by simpa only [entrySame] using PTEntry.isTable_ps table)]
          simp [Effect.apply, freeAll_append]
      · simp only [cut, if_false, false_and]
        rw [run_unlinkSublevel _ wf.root_aligned visits.onRegion
          (by simpa only [entrySame] using PTEntry.isTable_ps table)]
        simp [Effect.apply, freeAll_append]

/-- A present 4 MiB page inside the range is freed, but its entry is not cleared:
`set_entry` refuses. -/
theorem run_freePage_large {root region : Nat} (rootAligned : root % 0x1000 = 0)
    (onRegion : region % 0x400000 = 0)
    (ps : (state.memory root (dirIndex region)).flags.ps = true) (paddr : Nat) :
    run handler (freePage (directory root) region paddr) state =
      (.err (.mappingOver (state.memory root (dirIndex region)).address), { state with
        allocator := PageAllocatorTrait.free state.allocator paddr PageSize.size4M }) := by
  simp only [freePage, pageSize_directory, Program.run_bind, Program.run_unwrap_some,
    Outcome.andThen_ok, run_free]
  exact run_setEntry_directory_refused { state with
    allocator := PageAllocatorTrait.free state.allocator paddr PageSize.size4M }
    rootAligned _ (.inl onRegion) ps

/-- One iteration of `unmap_free` on a well-formed directory has the effect that
`regionEffect` computes. -/
theorem run_unmapRegion {root vaddr size region : Nat}
    (wf : WellFormed state.memory root) (visits : Visits vaddr size region) :
    run handler (unmapRegion (unmapFree 1) (directory root) vaddr size region) state =
      (regionEffect state.memory root vaddr size region).apply state.allocator := by
  obtain ⟨next, code, onWord⟩ := unmapRegion_eq root visits
  rw [code, Program.run_bind, run_getEntry state (directory root) region wf.root_aligned,
    Outcome.andThen_ok, index_directory, onWord, regionEffect]
  cases table : (state.memory root (dirIndex region)).isTable with
  | true =>
      simp only [if_true, wf.table_address (dirIndex_lt region) table]
      exact run_unmapTable state wf visits table
  | false =>
      simp only [Bool.false_eq_true, if_false, unmapLeaf]
      cases present : (state.memory root (dirIndex region)).flags.p with
      | false => simp [Effect.apply]
      | true =>
          have ps : (state.memory root (dirIndex region)).flags.ps = true := by
            simpa [PTEntry.isTable, present] using table
          by_cases cut : CutsRegion vaddr size region
          · simp [cut, Effect.apply]
          · simp only [cut, decide_false, Bool.false_eq_true, if_false, if_true]
            rw [run_freePage_large state wf.root_aligned visits.onRegion ps]
            simp [Effect.apply]

end Run

end SatanKernel.X86
