import Mathlib.Data.List.Sort
import Mathlib.Algebra.Order.BigOperators.Group.List
import SatanKernel.X86.UnmapFree

/-!
# What a successful `unmap_free` does to a range

The translations that a successful call leaves behind and the blocks it frees, in terms
of the memory before it.  Where the range starts inside a 4 MiB region, the call
unmaps that region to its end, so both may go beyond the range that was asked for.
-/

namespace SatanKernel.X86

open Lib NestedPageTableLevel
open Lib.Program (run)

/-! ## Translations after an iteration -/

/-- Some byte of the page directory's region or table maps `vaddr`. -/
theorem walk_ne_none_iff {memory : Memory} {root vaddr : Nat} :
    walk memory root vaddr ≠ none ↔
      (memory root (dirIndex vaddr)).isLarge = true ∨
      ((memory root (dirIndex vaddr)).isTable = true ∧
        (memory (memory root (dirIndex vaddr)).frame (tableIndex vaddr)).flags.p = true) := by
  rcases (memory root (dirIndex vaddr)).isTable_or with table | large | absent
  · have small : (memory root (dirIndex vaddr)).isLarge = false := by
      simp [PTEntry.isLarge, PTEntry.isTable_ps table]
    rw [walk_of_table table]
    simp [table, small]
  · rw [walk_of_large large]
    simp [large]
  · rw [walk_of_not_present absent]
    simp [PTEntry.isLarge, PTEntry.isTable, absent]

/-- All addresses of a page translate, or none does. -/
theorem walk_none_of_same_page {memory : Memory} {root left right : Nat}
    (samePage : left / 0x1000 = right / 0x1000) (free : walk memory root left = none) :
    walk memory root right = none := by
  have directorySame : dirIndex right = dirIndex left := by
    unfold dirIndex
    omega
  have tableSame : tableIndex right = tableIndex left := by
    unfold tableIndex
    omega
  by_contra translated
  have leftTranslates : walk memory root left ≠ none := by
    rw [walk_ne_none_iff, ← directorySame, ← tableSame]
    exact walk_ne_none_iff.mp translated
  exact leftTranslates free

/-- After clearing pages of a table their addresses no longer translate. -/
theorem walk_clearPages {memory : Memory} {root vaddr : Nat} (wf : WellFormed memory root)
    (table : (memory root (dirIndex vaddr)).isTable = true) (pages : List Nat) :
    walk (memory.clearPages (memory root (dirIndex vaddr)).frame pages) root vaddr =
      if ∃ page ∈ pages, tableIndex page = tableIndex vaddr then none
      else walk memory root vaddr := by
  have notRoot := wf.table_ne_root _ (dirIndex_lt vaddr) table
  have directory := clearPages_of_frame_ne memory _ (Ne.symm notRoot) pages
    (dirIndex vaddr)
  rw [walk_of_table (by rw [directory]; exact table), walk_of_table table]
  simp only [directory, clearPages_self]
  by_cases cleared : ∃ page ∈ pages, tableIndex page = tableIndex vaddr
  · cases present : (memory (memory root (dirIndex vaddr)).frame
      (tableIndex vaddr)).flags.p with
    | true => simp [cleared]
    | false => simp [present]
  · simp [cleared]

section Iteration

variable {memory : Memory} {root vaddr size region query : Nat}

/-- An address of a visited region selects one of its unmapped pages exactly when its
page meets the part that is unmapped. -/
theorem exists_partPages_iff (visits : Visits vaddr size region)
    (lower : region ≤ query) (upper : query < region + 0x400000) :
    (∃ page ∈ partPages vaddr size region, tableIndex page = tableIndex query) ↔
      query / 0x1000 * 0x1000 ∈ partPages vaddr size region := by
  have onRegion := visits.onRegion
  constructor
  · rintro ⟨page, member, sameIndex⟩
    have inside := partPages_region visits member
    have pageEq : query / 0x1000 * 0x1000 = page := by
      unfold tableIndex at sameIndex
      omega
    rw [pageEq]
    exact member
  · intro member
    refine ⟨_, member, ?_⟩
    unfold tableIndex
    omega

theorem dirIndex_of_region (onRegion : region % 0x400000 = 0) (lower : region ≤ query)
    (upper : query < region + 0x400000) : dirIndex query = dirIndex region := by
  unfold dirIndex
  omega

theorem mem_partPages_of_part (inside : partStart vaddr region ≤ query)
    (below : query < partEnd vaddr size region) :
    query / 0x1000 * 0x1000 ∈ partPages vaddr size region := by
  rw [mem_partPages]
  omega

/-- An address whose page meets the part without being in it lies in a page that the
part cuts. -/
theorem cutsPage_of_not_part
    (outside : ¬(partStart vaddr region ≤ query ∧ query < partEnd vaddr size region)) :
    CutsPage (partStart vaddr region) (partEnd vaddr size region)
      (query / 0x1000 * 0x1000) := by
  unfold CutsPage
  omega

theorem tableIndex_page (query : Nat) :
    tableIndex (query / 0x1000 * 0x1000) = tableIndex query := by
  unfold tableIndex
  omega

/-- Where nothing stops the iteration, an address of the region outside of the part
either keeps its page or never had one. -/
theorem walk_clear_part (wf : WellFormed memory root) (visits : Visits vaddr size region)
    (table : (memory root (dirIndex region)).isTable = true)
    (complete : ∀ page ∈ partPages vaddr size region,
      ¬StopsAt memory (memory root (dirIndex region)).frame (partStart vaddr region)
        (partEnd vaddr size region) page)
    (lower : region ≤ query) (upper : query < region + 0x400000) :
    walk (memory.clearPages (memory root (dirIndex region)).frame
        (partPages vaddr size region)) root query =
      if partStart vaddr region ≤ query ∧ query < partEnd vaddr size region then none
      else walk memory root query := by
  have selected := dirIndex_of_region visits.onRegion lower upper
  rw [← selected] at table complete ⊢
  rw [walk_clearPages wf table]
  simp only [exists_partPages_iff visits lower upper]
  by_cases inside : partStart vaddr region ≤ query ∧ query < partEnd vaddr size region
  · rw [if_pos (mem_partPages_of_part inside.1 inside.2), if_pos inside]
  · rw [if_neg inside]
    split
    next member =>
      -- The page is cut by the part, so it was not present.
      have absent : ¬(memory (memory root (dirIndex query)).frame
          (tableIndex query)).flags.p = true := by
        intro present
        refine complete _ member ⟨cutsPage_of_not_part inside, ?_⟩
        rw [tableIndex_page]
        exact present
      rw [walk_of_table table]
      simp [absent]
    next => rfl

/-- A successful iteration unmaps the part of the region that it works on. -/
theorem walk_regionEffect_ok (wf : WellFormed memory root)
    (visits : Visits vaddr size region)
    (succeeded : (regionEffect memory root vaddr size region).outcome = .ok ())
    (lower : region ≤ query) (upper : query < region + 0x400000) :
    walk (regionEffect memory root vaddr size region).memory root query =
      if partStart vaddr region ≤ query ∧ query < partEnd vaddr size region then none
      else walk memory root query := by
  have selected := dirIndex_of_region visits.onRegion lower upper
  have ending := regionEnding memory root vaddr size region
  generalize regionEffect memory root vaddr size region = effect at ending succeeded ⊢
  cases ending with
  | idle absent =>
      rw [walk_of_not_present (selected ▸ absent), ite_self]
  | cutLarge large cut => cases succeeded
  | wholeLarge large whole => cases succeeded
  | stopped table framed split passes stops => cases succeeded
  | kept table framed complete cut inUse =>
      subst framed
      exact walk_clear_part wf visits table complete lower upper
  | unlinked table framed complete unused =>
      subst framed
      have cleared := walk_clear_part wf visits table complete lower upper
      have unmapped : ∀ entry : PTEntry, entry.flags.p = false →
          walk ((memory.clearPages (memory root (dirIndex region)).frame
            (partPages vaddr size region)).write root (dirIndex region) entry) root query =
            none := by
        intro entry absent
        apply walk_of_not_present
        rw [selected, Memory.write_self]
        exact absent
      rw [unmapped unlinkedEntry (by decide)]
      split
      next => rfl
      next outside =>
        -- Only a table without mapped entries is unlinked from a region that is cut.
        by_cases cut : CutsRegion vaddr size region
        · have empty := unused cut
          rw [if_neg outside] at cleared
          rw [← cleared]
          symm
          by_contra translated
          rw [← Ne, walk_ne_none_iff, selected, clearPages_of_frame_ne _ _
            (Ne.symm (wf.table_ne_root _ (dirIndex_lt region) table))] at translated
          rcases translated with large | ⟨-, present⟩
          · rw [PTEntry.isLarge_not_isTable large] at table
            cases table
          · rw [Bool.eq_false_iff, Ne, tableInUse_iff] at empty
            apply empty
            refine ⟨tableIndex query, tableIndex_lt query, ?_⟩
            rw [PTEntry.isMapped, present, Bool.true_or]
        · obtain ⟨startEq, endEq⟩ := part_of_whole cut
          rw [startEq, endEq] at outside
          exact absurd ⟨lower, upper⟩ outside

end Iteration

/-- An iteration succeeds unless it meets a 4 MiB page or a present page that the part
cuts. -/
theorem regionEffect_ok_iff {memory : Memory} {root vaddr size region : Nat} :
    (regionEffect memory root vaddr size region).outcome = .ok () ↔
      (memory root (dirIndex region)).isLarge = false ∧
        ((memory root (dirIndex region)).isTable = true →
          ∀ page ∈ partPages vaddr size region,
            ¬StopsAt memory (memory root (dirIndex region)).frame (partStart vaddr region)
              (partEnd vaddr size region) page) := by
  have ending := regionEnding memory root vaddr size region
  generalize regionEffect memory root vaddr size region = effect at ending ⊢
  cases ending with
  | idle absent => simp [PTEntry.isLarge, PTEntry.isTable, absent]
  | cutLarge large cut => simp [large]
  | wholeLarge large whole => simp [large]
  | @stopped frame table framed before rest page split passes stops =>
      subst framed
      refine iff_of_false (by simp) ?_
      rintro ⟨-, complete⟩
      exact complete table page (by simp [split]) stops
  | kept table framed complete cut inUse =>
      subst framed
      have small : (memory root (dirIndex region)).isLarge = false := by
        simp [PTEntry.isLarge, PTEntry.isTable_ps table]
      exact iff_of_true rfl ⟨small, fun _ => complete⟩
  | unlinked table framed complete unused =>
      subst framed
      have small : (memory root (dirIndex region)).isLarge = false := by
        simp [PTEntry.isLarge, PTEntry.isTable_ps table]
      exact iff_of_true rfl ⟨small, fun _ => complete⟩

/-! ## Translations after a call -/

/-- Where the call stops unmapping: the end of the range or, if that is further, the end
of the 4 MiB region that the range starts inside of. -/
def unmapEnd (vaddr size : Nat) : Nat :=
  max (vaddr + size) ((vaddr + 0x3fffff) / 0x400000 * 0x400000)

/-- The part of a visited region that is unmapped is what lies between the start of the
range and `unmapEnd`. -/
theorem part_iff {vaddr size region query : Nat} (visits : Visits vaddr size region)
    (lower : region ≤ query) (upper : query < region + 0x400000) :
    (partStart vaddr region ≤ query ∧ query < partEnd vaddr size region) ↔
      (vaddr ≤ query ∧ query < unmapEnd vaddr size) := by
  obtain ⟨onRegion, above, below, -⟩ := visits
  unfold partStart partEnd unmapEnd
  split
  · omega
  · split <;> omega

/-- The regions that are not visited are disjoint from what is unmapped. -/
theorem not_visited {vaddr size query : Nat}
    (outside : query / 0x400000 * 0x400000 ∉ regionsOf vaddr size) :
    ¬(vaddr ≤ query ∧ query < unmapEnd vaddr size) := by
  rw [mem_regionsOf] at outside
  unfold unmapEnd
  omega

section Call

variable {memory : Memory} {root vaddr size : Nat}

/-- A call succeeds when all of its iterations do. -/
theorem unmapEffect_ok_iff (wf : WellFormed memory root)
    (bounded : vaddr + size + 0x400000 < 0x100000000) :
    (unmapEffect memory root vaddr size).outcome = .ok () ↔
      ∀ region ∈ regionsOf vaddr size,
        (regionEffect memory root vaddr size region).outcome = .ok () := by
  rcases regionsEffect_done wf vaddr size _ (regionsOf_dirIndex bounded) with
    ⟨allOk, succeeded, -⟩ | ⟨before, failing, rest, split, -, failed, outcome, -⟩
  · exact iff_of_true succeeded allOk
  · refine iff_of_false ?_ fun allOk => failed (allOk failing (by simp [split]))
    intro succeeded
    exact failed (outcome.symm.trans succeeded)

/-- The part of a region of whole pages cuts no page. -/
theorem not_cutsPage_part {region page : Nat} (visits : Visits vaddr size region)
    (onPage : vaddr % 0x1000 = 0) (wholePages : size % 0x1000 = 0)
    (member : page ∈ partPages vaddr size region) :
    ¬CutsPage (partStart vaddr region) (partEnd vaddr size region) page := by
  have onRegion := visits.onRegion
  rw [mem_partPages] at member
  unfold partStart partEnd at *
  unfold CutsPage
  repeat' split at member
  all_goals
    simp only [*, if_true, if_false]
    omega

/-- Only a 4 MiB page makes a call on whole pages fail. -/
theorem regionEffect_ok_of_wholePages (bounded : vaddr + size + 0x400000 < 0x100000000)
    (onPage : vaddr % 0x1000 = 0) (wholePages : size % 0x1000 = 0)
    (small : ∀ region ∈ regionsOf vaddr size,
      (memory root (dirIndex region)).isLarge = false) :
    ∀ region ∈ regionsOf vaddr size,
      (regionEffect memory root vaddr size region).outcome = .ok () := by
  intro region member
  rw [regionEffect_ok_iff]
  refine ⟨small region member, ?_⟩
  intro _ page inPart stops
  exact not_cutsPage_part (visits_of_mem bounded member) onPage wholePages inPart stops.1

theorem unmapEffect_ok_done (wf : WellFormed memory root)
    (bounded : vaddr + size + 0x400000 < 0x100000000)
    (succeeded : (unmapEffect memory root vaddr size).outcome = .ok ()) :
    RegionsDone memory root vaddr size (regionsOf vaddr size)
      (unmapEffect memory root vaddr size) := by
  rcases regionsEffect_done wf vaddr size _ (regionsOf_dirIndex bounded) with
    ⟨-, -, done⟩ | ⟨before, failing, rest, split, -, failed, outcome, -⟩
  · exact done
  · exact absurd (outcome.symm.trans succeeded) failed

/-- A successful call unmaps everything from the start of the range up to `unmapEnd`,
and nothing else. -/
theorem walk_unmapEffect_ok (wf : WellFormed memory root)
    (bounded : vaddr + size + 0x400000 < 0x100000000)
    (succeeded : (unmapEffect memory root vaddr size).outcome = .ok ())
    {query : Nat} (queryBound : query < 0x100000000) :
    walk (unmapEffect memory root vaddr size).memory root query =
      if vaddr ≤ query ∧ query < unmapEnd vaddr size then none
      else walk memory root query := by
  have done := unmapEffect_ok_done wf bounded succeeded
  have allOk := (unmapEffect_ok_iff wf bounded).mp succeeded
  by_cases member : query / 0x400000 * 0x400000 ∈ regionsOf vaddr size
  · have visits := visits_of_mem bounded member
    have lower : query / 0x400000 * 0x400000 ≤ query := by omega
    have upper : query < query / 0x400000 * 0x400000 + 0x400000 := by omega
    rw [(done.touched _ member).walk_eq (dirIndex_of_region visits.onRegion lower upper),
      walk_regionEffect_ok wf visits (allOk _ member) lower upper]
    simp only [part_iff visits lower upper]
  · rw [if_neg (not_visited member)]
    refine (done.untouched (dirIndex query) (dirIndex_lt query) ?_).walk_eq rfl
    intro region regionMember sameIndex
    have visits := visits_of_mem bounded regionMember
    have regionBound := visits.region_bound
    have onRegion := visits.onRegion
    apply member
    have regionEq : query / 0x400000 * 0x400000 = region := by
      unfold dirIndex at sameIndex
      omega
    rw [regionEq]
    exact regionMember

end Call

/-! ## Blocks that a call frees -/

/-- The pages of a region that lie in `[lo, hi)`. -/
def pagesWithin (region lo hi : Nat) : List Nat :=
  (pagesOf region (region + 0x400000)).filter fun page =>
    decide (lo ≤ page ∧ page + 0x1000 ≤ hi)

/-- The present pages of a region that lie in `[lo, hi)`, as blocks of their own size. -/
def pageBlocks (memory : Memory) (root lo hi region : Nat) : List (Nat × PageSize) :=
  let pde := memory root (dirIndex region)
  if pde.isTable then leafFrames memory pde.frame (pagesWithin region lo hi)
  else if pde.isLarge = true ∧ lo ≤ region ∧ region + 0x400000 ≤ hi then
    [(pde.address, .size4M)]
  else []

/-- The region has a table that nothing needs once `[lo, hi)` is unmapped: the whole
region is in `[lo, hi)`, or every mapped entry is a present page in `[lo, hi)`. -/
def TableEmptied (memory : Memory) (root lo hi region : Nat) : Prop :=
  (memory root (dirIndex region)).isTable = true ∧
    ((lo ≤ region ∧ region + 0x400000 ≤ hi) ∨
      ∀ index < 0x400,
        (memory (memory root (dirIndex region)).frame index).isMapped = true →
        (memory (memory root (dirIndex region)).frame index).flags.p = true ∧
          lo ≤ region + index * 0x1000 ∧ region + index * 0x1000 + 0x1000 ≤ hi)

instance (memory : Memory) (root lo hi region : Nat) :
    Decidable (TableEmptied memory root lo hi region) :=
  inferInstanceAs (Decidable (_ ∧ _))

/-- The frame of such a table. -/
def tableBlock (memory : Memory) (root lo hi region : Nat) : List (Nat × PageSize) :=
  if TableEmptied memory root lo hi region then
    [((memory root (dirIndex region)).frame, .size4K)]
  else []

/-- What unmapping `[vaddr, vaddr + size)` has to give back: its present pages, each of
them once, and the tables that only they need. -/
def releasedBlocks (memory : Memory) (root vaddr size : Nat) : List (Nat × PageSize) :=
  (regionsOf vaddr size).flatMap (pageBlocks memory root vaddr (vaddr + size)) ++
    (regionsOf vaddr size).flatMap (tableBlock memory root vaddr (vaddr + size))

theorem mem_pagesWithin {region lo hi page : Nat} :
    page ∈ pagesWithin region lo hi ↔
      (page % 0x1000 = 0 ∧ region < page + 0x1000 ∧ page < region + 0x400000) ∧
        lo ≤ page ∧ page + 0x1000 ≤ hi := by
  rw [pagesWithin, List.mem_filter, mem_pagesOf, decide_eq_true_iff]

theorem pagesWithin_pairwise_lt (region lo hi : Nat) :
    (pagesWithin region lo hi).Pairwise (· < ·) :=
  (pagesOf_pairwise_lt _ _).filter _

/-- The frames of two sorted lists of pages agree if their present pages do. -/
theorem leafFrames_eq {memory : Memory} {frame : Nat} {first second : List Nat}
    (firstSorted : first.Pairwise (· < ·)) (secondSorted : second.Pairwise (· < ·))
    (same : ∀ page, (memory frame (tableIndex page)).flags.p = true →
      (page ∈ first ↔ page ∈ second)) :
    leafFrames memory frame first = leafFrames memory frame second := by
  have filtered : (first.filter fun page => (memory frame (tableIndex page)).flags.p) =
      second.filter fun page => (memory frame (tableIndex page)).flags.p := by
    apply (firstSorted.filter _).eq_of_mem_iff (secondSorted.filter _)
    intro page
    simp only [List.mem_filter]
    constructor
    · rintro ⟨member, present⟩
      exact ⟨(same page present).mp member, present⟩
    · rintro ⟨member, present⟩
      exact ⟨(same page present).mpr member, present⟩
  rw [leafFrames, leafFrames, filtered]

section Freed

variable {memory : Memory} {root vaddr size region : Nat}

/-- A present page that an iteration meets without stopping lies between the start of the
range and `unmapEnd`. -/
theorem mem_partPages_iff_within (visits : Visits vaddr size region)
    (complete : ∀ page ∈ partPages vaddr size region,
      ¬StopsAt memory (memory root (dirIndex region)).frame (partStart vaddr region)
        (partEnd vaddr size region) page) {page : Nat}
    (present : (memory (memory root (dirIndex region)).frame
      (tableIndex page)).flags.p = true) :
    page ∈ partPages vaddr size region ↔
      page ∈ pagesWithin region vaddr (unmapEnd vaddr size) := by
  obtain ⟨onRegion, above, below, -⟩ := visits
  constructor
  · intro member
    have notCut : ¬CutsPage (partStart vaddr region) (partEnd vaddr size region) page :=
      fun cut => complete page member ⟨cut, present⟩
    rw [mem_partPages] at member
    rw [mem_pagesWithin]
    unfold CutsPage partStart partEnd at notCut
    unfold partStart partEnd at member
    unfold unmapEnd
    split at notCut
    next head =>
      simp only [if_pos head] at member
      omega
    next tail =>
      simp only [if_neg tail] at member
      split at notCut
      next shorter =>
        simp only [if_pos shorter] at member
        omega
      next longer =>
        simp only [if_neg longer] at member
        omega
  · intro member
    rw [mem_pagesWithin] at member
    rw [mem_partPages]
    unfold unmapEnd at member
    unfold partStart partEnd
    split
    · omega
    · split <;> omega

/-- A region that reaches from the start of the range to `unmapEnd` is not cut. -/
theorem whole_iff (visits : Visits vaddr size region) :
    ¬CutsRegion vaddr size region ↔
      vaddr ≤ region ∧ region + 0x400000 ≤ unmapEnd vaddr size := by
  obtain ⟨onRegion, above, below, -⟩ := visits
  unfold CutsRegion unmapEnd
  omega

/-- The page of an index of the region's table. -/
theorem tableIndex_add (onRegion : region % 0x400000 = 0) {index : Nat}
    (inside : index < 0x400) : tableIndex (region + index * 0x1000) = index := by
  unfold tableIndex
  omega

theorem eq_add_tableIndex (onRegion : region % 0x400000 = 0) {page : Nat}
    (onPage : page % 0x1000 = 0) (lower : region ≤ page)
    (upper : page < region + 0x400000) : page = region + tableIndex page * 0x1000 := by
  unfold tableIndex
  omega

/-- Once the part is cleared, the table is unused exactly when it only held present pages
of the part. -/
theorem tableInUse_clear_part (visits : Visits vaddr size region)
    (complete : ∀ page ∈ partPages vaddr size region,
      ¬StopsAt memory (memory root (dirIndex region)).frame (partStart vaddr region)
        (partEnd vaddr size region) page) :
    tableInUse (memory.clearPages (memory root (dirIndex region)).frame
        (partPages vaddr size region)) (memory root (dirIndex region)).frame = false ↔
      ∀ index < 0x400,
        (memory (memory root (dirIndex region)).frame index).isMapped = true →
        (memory (memory root (dirIndex region)).frame index).flags.p = true ∧
          vaddr ≤ region + index * 0x1000 ∧
          region + index * 0x1000 + 0x1000 ≤ unmapEnd vaddr size := by
  have onRegion := visits.onRegion
  -- An entry is cleared if it is present and its page lies in the part.
  have cleared : ∀ index < 0x400, ((memory.clearPages (memory root (dirIndex region)).frame
      (partPages vaddr size region)) (memory root (dirIndex region)).frame index).isMapped =
        true ↔
      (memory (memory root (dirIndex region)).frame index).isMapped = true ∧
        ¬((memory (memory root (dirIndex region)).frame index).flags.p = true ∧
          vaddr ≤ region + index * 0x1000 ∧
          region + index * 0x1000 + 0x1000 ≤ unmapEnd vaddr size) := by
    intro index inside
    have selected := tableIndex_add onRegion inside
    have within : (memory (memory root (dirIndex region)).frame index).flags.p = true →
        ((∃ page ∈ partPages vaddr size region, tableIndex page = index) ↔
          vaddr ≤ region + index * 0x1000 ∧
            region + index * 0x1000 + 0x1000 ≤ unmapEnd vaddr size) := by
      intro present
      have member := mem_partPages_iff_within visits complete
        (show _ = true by rw [selected]; exact present)
      rw [mem_pagesWithin] at member
      constructor
      · rintro ⟨page, pageMember, sameIndex⟩
        have bounds := partPages_region visits pageMember
        have pageEq := eq_add_tableIndex onRegion bounds.1 bounds.2.1 (by omega)
        rw [sameIndex] at pageEq
        rw [pageEq] at pageMember
        exact (member.mp pageMember).2
      · intro bounds
        exact ⟨_, member.mpr ⟨by omega, bounds⟩, selected⟩
    rw [clearPages_self]
    cases present : (memory (memory root (dirIndex region)).frame index).flags.p with
    | false => simp
    | true =>
        rw [← within present]
        by_cases inPart : ∃ page ∈ partPages vaddr size region, tableIndex page = index
        · simp [inPart, PTEntry.isMapped]
        · simp [inPart]
  rw [Bool.eq_false_iff, Ne, tableInUse_iff]
  constructor
  · intro unused index inside mapped
    by_contra outside
    exact unused ⟨index, inside, (cleared index inside).mpr ⟨mapped, outside⟩⟩
  · rintro covered ⟨index, inside, mapped⟩
    obtain ⟨wasMapped, outside⟩ := (cleared index inside).mp mapped
    exact outside (covered index inside wasMapped)

/-- A table that stays in use is needed. -/
theorem not_tableEmptied_of_kept (visits : Visits vaddr size region)
    (complete : ∀ page ∈ partPages vaddr size region,
      ¬StopsAt memory (memory root (dirIndex region)).frame (partStart vaddr region)
        (partEnd vaddr size region) page)
    (cut : CutsRegion vaddr size region)
    (inUse : tableInUse (memory.clearPages (memory root (dirIndex region)).frame
      (partPages vaddr size region)) (memory root (dirIndex region)).frame = true) :
    ¬TableEmptied memory root vaddr (unmapEnd vaddr size) region := by
  rintro ⟨-, whole | covered⟩
  · exact (whole_iff visits).mpr whole cut
  · rw [(tableInUse_clear_part visits complete).mpr covered] at inUse
    cases inUse

/-- A table that is unlinked is no longer needed. -/
theorem tableEmptied_of_unlinked (visits : Visits vaddr size region)
    (table : (memory root (dirIndex region)).isTable = true)
    (complete : ∀ page ∈ partPages vaddr size region,
      ¬StopsAt memory (memory root (dirIndex region)).frame (partStart vaddr region)
        (partEnd vaddr size region) page)
    (unused : CutsRegion vaddr size region → tableInUse (memory.clearPages
      (memory root (dirIndex region)).frame (partPages vaddr size region))
        (memory root (dirIndex region)).frame = false) :
    TableEmptied memory root vaddr (unmapEnd vaddr size) region := by
  refine ⟨table, ?_⟩
  by_cases cut : CutsRegion vaddr size region
  · exact .inr ((tableInUse_clear_part visits complete).mp (unused cut))
  · exact .inl ((whole_iff visits).mp cut)

/-- The blocks that a successful iteration frees. -/
theorem regionEffect_freed_ok (visits : Visits vaddr size region)
    (succeeded : (regionEffect memory root vaddr size region).outcome = .ok ()) :
    (regionEffect memory root vaddr size region).freed =
      pageBlocks memory root vaddr (unmapEnd vaddr size) region ++
        tableBlock memory root vaddr (unmapEnd vaddr size) region := by
  have ending := regionEnding memory root vaddr size region
  generalize regionEffect memory root vaddr size region = effect at ending succeeded ⊢
  -- The frames of the part are those of the pages up to `unmapEnd`.
  have sameFrames : (∀ page ∈ partPages vaddr size region,
      ¬StopsAt memory (memory root (dirIndex region)).frame (partStart vaddr region)
        (partEnd vaddr size region) page) →
      leafFrames memory (memory root (dirIndex region)).frame
        (partPages vaddr size region) =
      leafFrames memory (memory root (dirIndex region)).frame
        (pagesWithin region vaddr (unmapEnd vaddr size)) := fun complete =>
    leafFrames_eq (pagesOf_pairwise_lt _ _) (pagesWithin_pairwise_lt _ _ _)
      fun page present => mem_partPages_iff_within visits complete present
  cases ending with
  | idle absent =>
      simp [pageBlocks, tableBlock, TableEmptied, PTEntry.isTable, PTEntry.isLarge, absent]
  | cutLarge large cut => cases succeeded
  | wholeLarge large whole => cases succeeded
  | stopped table framed split passes stops => cases succeeded
  | kept table framed complete cut inUse =>
      subst framed
      have notEmptied := not_tableEmptied_of_kept visits complete cut inUse
      simp only [pageBlocks, table, if_true, tableBlock, if_neg notEmptied,
        List.append_nil]
      exact sameFrames complete
  | unlinked table framed complete unused =>
      subst framed
      have emptied := tableEmptied_of_unlinked visits table complete unused
      simp only [pageBlocks, table, if_true, tableBlock, if_pos emptied,
        sameFrames complete]

/-- The blocks that a successful call frees. -/
theorem unmapEffect_freed_ok (wf : WellFormed memory root)
    (bounded : vaddr + size + 0x400000 < 0x100000000)
    (succeeded : (unmapEffect memory root vaddr size).outcome = .ok ()) :
    (unmapEffect memory root vaddr size).freed =
      (regionsOf vaddr size).flatMap fun region =>
        pageBlocks memory root vaddr (unmapEnd vaddr size) region ++
          tableBlock memory root vaddr (unmapEnd vaddr size) region := by
  rw [(unmapEffect_ok_done wf bounded succeeded).freed]
  apply List.flatMap_congr
  intro region member
  exact regionEffect_freed_ok (visits_of_mem bounded member)
    ((unmapEffect_ok_iff wf bounded).mp succeeded region member)

end Freed

end SatanKernel.X86
