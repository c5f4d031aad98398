import SatanKernel.X86.TableUpdates
import SatanKernel.Memory.Allocators

/-!
# Unmapping pages of one table

`unmap_free` on a page table, the last level of its recursion.  A page that the range
covers is freed and cleared if it is present; a present page that the range cuts
stops the loop with an error.
-/

namespace SatanKernel.X86

open Lib NestedPageTableLevel
open Lib.Program (run)

/-! ## The pages that a range touches -/

/-- Starts of the 4 KiB pages that `[lo, hi)` touches, in the order of the loop. -/
def pagesOf (lo hi : Nat) : List Nat :=
  stepBy (lo / 0x1000 * 0x1000) ((hi + 0x1000 - 1) / 0x1000 * 0x1000) 0x1000

theorem mem_pagesOf {lo hi page : Nat} :
    page ∈ pagesOf lo hi ↔ page % 0x1000 = 0 ∧ lo < page + 0x1000 ∧ page < hi := by
  rw [pagesOf, mem_stepBy (by decide)]
  omega

theorem pagesOf_pairwise_lt (lo hi : Nat) : (pagesOf lo hi).Pairwise (· < ·) :=
  stepBy_pairwise_lt _ _ (by decide)

/-- Pages of one 4 MiB region have different indices in its table. -/
theorem pagesOf_tableIndex {lo hi region : Nat} (onRegion : region % 0x400000 = 0)
    (lower : region ≤ lo) (upper : hi ≤ region + 0x400000) :
    (pagesOf lo hi).Pairwise fun left right => tableIndex left ≠ tableIndex right := by
  apply (pagesOf_pairwise_lt lo hi).imp_of_mem
  intro left right leftMem rightMem less
  rw [mem_pagesOf] at leftMem rightMem
  unfold tableIndex
  omega

/-! ## Clearing pages of a table -/

/-- Memory in which the present entries of `pages` in the table at `frame` have been
cleared. -/
def Memory.clearPages (memory : Memory) (frame : Nat) (pages : List Nat) : Memory :=
  fun otherFrame index =>
    if otherFrame = frame ∧ (memory frame index).flags.p = true ∧
        pages.any (tableIndex · == index) = true then .NULL
    else memory otherFrame index

/-- The frames behind the present entries of `pages` in the table at `frame`. -/
def leafFrames (memory : Memory) (frame : Nat) (pages : List Nat) :
    List (Nat × PageSize) :=
  (pages.filter fun page => (memory frame (tableIndex page)).flags.p).map fun page =>
    ((memory frame (tableIndex page)).address, .size4K)

section ClearPages

variable (memory : Memory) (frame : Nat)

theorem clearPages_nil : memory.clearPages frame [] = memory := by
  funext otherFrame index
  simp [Memory.clearPages]

theorem clearPages_of_frame_ne {other : Nat} (different : other ≠ frame)
    (pages : List Nat) (index : Nat) :
    memory.clearPages frame pages other index = memory other index := by
  simp [Memory.clearPages, different]

theorem clearPages_self (pages : List Nat) (index : Nat) :
    memory.clearPages frame pages frame index =
      if (memory frame index).flags.p = true ∧ (∃ page ∈ pages, tableIndex page = index)
      then .NULL else memory frame index := by
  simp [Memory.clearPages]

/-- Clearing a list of pages starts with clearing its first page. -/
theorem clearPages_cons_present {page : Nat} (pages : List Nat)
    (present : (memory frame (tableIndex page)).flags.p = true) :
    memory.clearPages frame (page :: pages) =
      (memory.write frame (tableIndex page) .NULL).clearPages frame pages := by
  funext otherFrame index
  by_cases sameFrame : otherFrame = frame
  · subst otherFrame
    rw [clearPages_self, clearPages_self]
    by_cases sameIndex : index = tableIndex page
    · subst index
      simp [present]
    · rw [Memory.write_of_index_ne _ _ _ _ sameIndex]
      simp [Ne.symm sameIndex]
  · rw [clearPages_of_frame_ne _ _ sameFrame, clearPages_of_frame_ne _ _ sameFrame,
      Memory.write_of_frame_ne _ _ _ sameFrame]

theorem clearPages_cons_absent {page : Nat} (pages : List Nat)
    (absent : (memory frame (tableIndex page)).flags.p = false) :
    memory.clearPages frame (page :: pages) = memory.clearPages frame pages := by
  funext otherFrame index
  by_cases sameFrame : otherFrame = frame
  · subst otherFrame
    rw [clearPages_self, clearPages_self]
    by_cases sameIndex : index = tableIndex page
    · subst index
      simp [absent]
    · simp [Ne.symm sameIndex]
  · rw [clearPages_of_frame_ne _ _ sameFrame, clearPages_of_frame_ne _ _ sameFrame]

/-- The frames of other pages do not depend on an entry that none of them selects. -/
theorem leafFrames_write {page : Nat} {pages : List Nat} (entry : PTEntry)
    (different : ∀ other ∈ pages, tableIndex page ≠ tableIndex other) :
    leafFrames (memory.write frame (tableIndex page) entry) frame pages =
      leafFrames memory frame pages := by
  have unchanged : ∀ other ∈ pages,
      memory.write frame (tableIndex page) entry frame (tableIndex other) =
        memory frame (tableIndex other) := fun other member =>
    Memory.write_of_index_ne _ _ _ _ (Ne.symm (different other member))
  have sameFilter : (pages.filter fun other =>
      (memory.write frame (tableIndex page) entry frame (tableIndex other)).flags.p) =
      pages.filter fun other => (memory frame (tableIndex other)).flags.p := by
    apply List.filter_congr
    intro other member
    rw [unchanged other member]
  rw [leafFrames, leafFrames, sameFilter]
  apply List.map_congr_left
  intro other member
  rw [unchanged other (List.mem_filter.mp member).1]

end ClearPages

/-! ## The loop over pages -/

section Loop

variable {A : Type} [PageAllocatorTrait PageSize A] (state : State A)

/-- The range cuts the page. -/
def CutsPage (lo hi page : Nat) : Prop := page < lo ∨ hi < page + 0x1000

instance (lo hi page : Nat) : Decidable (CutsPage lo hi page) :=
  inferInstanceAs (Decidable (_ ∨ _))

/-- The test of the source, where its sums stay inside the address space. -/
theorem cutByRange_eq {L S : Type} {lo length page region : Nat}
    (pageBound : page + region < 0x100000000) (rangeBound : lo + length < 0x100000000) :
    (cutByRange lo length page region : PageTableM L S Bool) =
      .ret (decide (page < lo ∨ lo + length < page + region)) := by
  rw [cutByRange]
  split
  next below =>
    rw [decide_eq_true (Or.inl below)]
    rfl
  next above =>
    rw [checkedAdd_of_lt pageBound, Program.ret_bind, checkedAdd_of_lt rangeBound,
      Program.ret_bind]
    simp only [above, false_or]
    rfl

/-- What an iteration does with an entry that is not a table. -/
def unmapLeaf (self : PageTableLevel) (cut : Bool) (page : Nat) (word : PTEntry) :
    PagingM Unit :=
  if word.flags.p then
    if cut then .throw (.unmappingPartOfLargePage word.address)
    else freePage self page word.address
  else pure ()

/-- An iteration on a page table reads an entry and unmaps its page. -/
theorem unmapPage_eq (recurse : PageTableLevel → Nat → Nat → PagingM Unit) (frame : Nat)
    {lo length page : Nat} (pageBound : page + 0x1000 < 0x100000000)
    (rangeBound : lo + length < 0x100000000) :
    ∃ next, unmapRegion recurse (pageTable frame) lo length page =
        getEntry (pageTable frame) page >>= next ∧
      ∀ word, next ((pageTable frame).decode word) =
        unmapLeaf (pageTable frame) (CutsPage lo (lo + length) page) page word := by
  refine ⟨_, rfl, fun word => ?_⟩
  rw [regionSize_pageTable, cutByRange_eq pageBound rangeBound, Program.ret_bind,
    decode_pageTable]
  unfold unmapLeaf
  by_cases cut : page < lo ∨ lo + length < page + 0x1000
  · have isCut : CutsPage lo (lo + length) page := cut
    simp only [cut, isCut, decide_true, if_true, PTEFlags.toMapping]
  · have isWhole : ¬CutsPage lo (lo + length) page := cut
    simp only [cut, isWhole, decide_false, Bool.false_eq_true, if_false, PTEFlags.toMapping]

/-- One iteration on a page table. -/
theorem run_unmapPage (recurse : PageTableLevel → Nat → Nat → PagingM Unit)
    {frame lo length page : Nat} (aligned : frame % 0x1000 = 0)
    (onPage : page % 0x1000 = 0) (pageBound : page + 0x1000 < 0x100000000)
    (rangeBound : lo + length < 0x100000000) :
    run handler (unmapRegion recurse (pageTable frame) lo length page) state =
      if (state.memory frame (tableIndex page)).flags.p then
        if CutsPage lo (lo + length) page then
          (.err (.unmappingPartOfLargePage
            (state.memory frame (tableIndex page)).address), state)
        else
          (.ok (), {
            memory := state.memory.write frame (tableIndex page) .NULL
            allocator := PageAllocatorTrait.free state.allocator
              (state.memory frame (tableIndex page)).address PageSize.size4K })
      else (.ok (), state) := by
  obtain ⟨next, code, onWord⟩ := unmapPage_eq recurse frame pageBound rangeBound
  rw [code, Program.run_bind, run_getEntry state (pageTable frame) page aligned,
    Outcome.andThen_ok, index_pageTable, onWord, unmapLeaf]
  cases (state.memory frame (tableIndex page)).flags.p with
  | false => rfl
  | true =>
      by_cases cut : CutsPage lo (lo + length) page
      · simp only [cut, decide_true, if_true, Program.run_throw]
      · simp only [cut, decide_false, Bool.false_eq_true, if_false, if_true, freePage,
          pageSize_pageTable, Program.run_bind, Program.run_unwrap_some, Outcome.andThen_ok,
          run_free, PageTableEntry.NULL, run_setEntry_pageTable _ aligned onPage,
          PTEntry.newPage_null_4K]

/-- A present page that the range cuts, which stops the loop. -/
def StopsAt (memory : Memory) (frame lo hi page : Nat) : Prop :=
  CutsPage lo hi page ∧ (memory frame (tableIndex page)).flags.p = true

instance (memory : Memory) (frame lo hi page : Nat) :
    Decidable (StopsAt memory frame lo hi page) :=
  inferInstanceAs (Decidable (_ ∧ _))

/-- A loop in which no page stops it frees and clears what is present. -/
theorem run_unmapPages (recurse : PageTableLevel → Nat → Nat → PagingM Unit)
    {frame lo length : Nat} (aligned : frame % 0x1000 = 0)
    (rangeBound : lo + length < 0x100000000) (pages : List Nat)
    (inside : ∀ page ∈ pages, page % 0x1000 = 0 ∧ page + 0x1000 < 0x100000000)
    (distinct : pages.Pairwise fun left right => tableIndex left ≠ tableIndex right)
    (complete : ∀ page ∈ pages, ¬StopsAt state.memory frame lo (lo + length) page) :
    run handler (Program.forEach pages
        (unmapRegion recurse (pageTable frame) lo length)) state =
      (.ok (), {
        memory := state.memory.clearPages frame pages
        allocator := freeAll state.allocator (leafFrames state.memory frame pages) }) := by
  induction pages generalizing state with
  | nil => simp [clearPages_nil, leafFrames]
  | cons page pages ih =>
      obtain ⟨onPage, pageBound⟩ := inside page (by simp)
      have inside := fun other member => inside other (List.mem_cons_of_mem page member)
      obtain ⟨different, distinct⟩ := List.pairwise_cons.mp distinct
      have notStopped := complete page (by simp)
      rw [Program.run_forEach_cons,
        run_unmapPage state recurse aligned onPage pageBound rangeBound]
      cases present : (state.memory frame (tableIndex page)).flags.p with
      | false =>
          have complete := fun other member =>
            complete other (List.mem_cons_of_mem page member)
          simp only [Bool.false_eq_true, if_false, Outcome.andThen_ok]
          rw [ih state inside distinct complete,
            clearPages_cons_absent _ _ _ present]
          simp [leafFrames, present]
      | true =>
          have notCut : ¬CutsPage lo (lo + length) page := fun cut =>
            notStopped ⟨cut, present⟩
          simp only [if_true, if_neg notCut, Outcome.andThen_ok]
          rw [ih _ inside distinct]
          · simp only [leafFrames_write state.memory frame _ different,
              clearPages_cons_present _ _ _ present]
            simp [leafFrames, present]
          · intro other member
            have unchanged := Memory.write_of_index_ne state.memory frame frame .NULL
              (Ne.symm (different other member))
            simp only [StopsAt, unchanged]
            exact complete other (List.mem_cons_of_mem page member)

/-- A loop that meets a page that stops it has freed and cleared what is before. -/
theorem run_unmapPages_stopped (recurse : PageTableLevel → Nat → Nat → PagingM Unit)
    {frame lo length : Nat} (aligned : frame % 0x1000 = 0)
    (rangeBound : lo + length < 0x100000000) (before rest : List Nat) (page : Nat)
    (inside : ∀ other ∈ before ++ page :: rest,
      other % 0x1000 = 0 ∧ other + 0x1000 < 0x100000000)
    (distinct : (before ++ page :: rest).Pairwise fun left right =>
      tableIndex left ≠ tableIndex right)
    (complete : ∀ other ∈ before, ¬StopsAt state.memory frame lo (lo + length) other)
    (stops : StopsAt state.memory frame lo (lo + length) page) :
    run handler (Program.forEach (before ++ page :: rest)
        (unmapRegion recurse (pageTable frame) lo length)) state =
      (.err (.unmappingPartOfLargePage (state.memory frame (tableIndex page)).address), {
        memory := state.memory.clearPages frame before
        allocator := freeAll state.allocator (leafFrames state.memory frame before) }) := by
  obtain ⟨distinctBefore, -, separate⟩ := List.pairwise_append.mp distinct
  obtain ⟨onPage, pageBound⟩ := inside page (by simp)
  have unchanged : state.memory.clearPages frame before frame (tableIndex page) =
      state.memory frame (tableIndex page) := by
    rw [clearPages_self, if_neg]
    rintro ⟨-, other, member, equal⟩
    exact separate other member page (by simp) equal
  rw [Program.run_forEach_append, run_unmapPages state recurse aligned rangeBound before
    (fun other member => inside other (by simp [member])) distinctBefore complete]
  simp only [Outcome.andThen_ok, Program.run_forEach_cons]
  rw [run_unmapPage _ recurse aligned onPage pageBound rangeBound]
  simp only [unchanged, stops.2, if_true, if_pos stops.1, Outcome.andThen_err]

end Loop

end SatanKernel.X86
