import Mathlib.Data.List.Nodup
import SatanKernel.X86.UnmapFailure

/-!
# What a successful `unmap_free` leaves behind

A successful call has unmapped its range.  Its calls of `free` correspond one to one to
the pages that it cleared and the tables that it unlinked, and what it leaves in the
tables is such that a second call with the same arguments finds nothing to do.
-/

namespace SatanKernel.X86

open Lib NestedPageTableLevel
open Lib.Program (run)

/-! ## Calling again -/

section Again

variable {memory : Memory} {root vaddr size region : Nat}

/-- Whether an iteration has something to do depends on its own region only. -/
theorem Idle.congr {first second : Memory}
    (same : SameRegion first second root (dirIndex region))
    (idle : Idle first root vaddr size region) : Idle second root vaddr size region := by
  unfold Idle
  rw [same.directory]
  rcases idle with absent | ⟨table, absent, cut, inUse⟩
  · exact .inl absent
  · refine .inr ⟨table, ?_, cut, ?_⟩
    · intro page member
      rw [same.table table _ (tableIndex_lt page)]
      exact absent page member
    · obtain ⟨index, inside, mapped⟩ := tableInUse_iff.mp inUse
      refine tableInUse_iff.mpr ⟨index, inside, ?_⟩
      rw [same.table table _ inside]
      exact mapped

/-- After a successful iteration there is nothing left to do in its region. -/
theorem idle_of_ok (wf : WellFormed memory root)
    (succeeded : (regionEffect memory root vaddr size region).outcome = .ok ()) :
    Idle (regionEffect memory root vaddr size region).memory root vaddr size region := by
  have ending := regionEnding memory root vaddr size region
  generalize regionEffect memory root vaddr size region = effect at ending succeeded ⊢
  cases ending with
  | idle absent => exact .inl absent
  | cutLarge large cut => cases succeeded
  | wholeLarge large whole => cases succeeded
  | stopped table framed split passes stops => cases succeeded
  | kept table framed complete cut inUse =>
      subst framed
      have entrySame := clearPages_of_frame_ne memory _
        (Ne.symm (wf.table_ne_root _ (dirIndex_lt region) table))
        (partPages vaddr size region) (dirIndex region)
      unfold Idle
      dsimp only
      rw [entrySame]
      refine .inr ⟨table, ?_, cut, inUse⟩
      intro page member
      rw [clearPages_self]
      split
      next => rw [PTEntry.flags_NULL]
      next kept =>
        rw [Bool.eq_false_iff]
        exact fun present => kept ⟨present, page, member, rfl⟩
  | unlinked table framed complete unused =>
      left
      dsimp only
      rw [Memory.write_self]
      decide

/-- After a successful call there is nothing left to do in any of its regions. -/
theorem idle_after_ok (wf : WellFormed memory root)
    (bounded : vaddr + size + 0x400000 < 0x100000000)
    (succeeded : (unmapEffect memory root vaddr size).outcome = .ok ())
    (member : region ∈ regionsOf vaddr size) :
    Idle (unmapEffect memory root vaddr size).memory root vaddr size region :=
  (idle_of_ok wf ((unmapEffect_ok_iff wf bounded).mp succeeded region member)).congr
    ((unmapEffect_ok_done wf bounded succeeded).touched region member)

/-- A call with nothing to do succeeds without any effect. -/
theorem unmapEffect_idle (wf : WellFormed memory root)
    (bounded : vaddr + size + 0x400000 < 0x100000000)
    (idle : ∀ region ∈ regionsOf vaddr size, Idle memory root vaddr size region) :
    (unmapEffect memory root vaddr size).outcome = .ok () ∧
      SameTables memory (unmapEffect memory root vaddr size).memory root ∧
      (unmapEffect memory root vaddr size).freed = [] := by
  have succeeded : (unmapEffect memory root vaddr size).outcome = .ok () :=
    (unmapEffect_ok_iff wf bounded).mpr fun region member => (idle region member).succeeds
  refine ⟨succeeded, (unmapEffect_ok_done wf bounded succeeded).unchanged_iff.mpr ?_⟩
  intro region member
  exact (ineffective_iff_idle (idle region member).succeeds).mpr (idle region member)

variable {A : Type} [PageAllocatorTrait PageSize A]

/-- Unmapping a range twice is unmapping it once: the second call succeeds, frees nothing
and changes no entry of a table. -/
theorem unmapFree_twice {state after : State A} (wf : WellFormed state.memory root)
    (succeeded : run handler ((AddressSpace.fromPaddr root).unmapFree vaddr size) state =
      (.ok (), after)) :
    ∃ again, run handler ((AddressSpace.fromPaddr root).unmapFree vaddr size)
        (recording after) = (.ok (), again) ∧
      again.allocator.freed = [] ∧ SameTables after.memory again.memory root := by
  have bounded := bounded_of_run succeeded (by simp)
  rw [run_unmapFree state wf bounded] at succeeded
  have outcome : (unmapEffect state.memory root vaddr size).outcome = .ok () := by
    rw [← Effect.apply_outcome _ state.allocator, succeeded]
  have memoryEq : after.memory = (unmapEffect state.memory root vaddr size).memory := by
    rw [← Effect.apply_memory _ state.allocator, succeeded]
  have wfAfter : WellFormed after.memory root := by
    rw [memoryEq]
    exact (unmapEffect_ok_done wf bounded outcome).wellFormed
  have idle : ∀ region ∈ regionsOf vaddr size, Idle after.memory root vaddr size region := by
    intro region member
    rw [memoryEq]
    exact idle_after_ok wf bounded outcome member
  obtain ⟨secondOk, same, nothingFreed⟩ := unmapEffect_idle wfAfter bounded idle
  obtain ⟨ranOutcome, ranMemory, ranFreed⟩ := run_unmapFree_recording wfAfter bounded
  refine ⟨_, Prod.ext (ranOutcome.trans secondOk) rfl, ?_, ?_⟩
  · rw [ranFreed, nothingFreed]
  · rw [ranMemory]
    exact same

end Again

/-- The second call for the only page of a table, which the first call has unlinked. -/
theorem unmapFree_twice_last_page :
    ∃ after again,
      run handler ((AddressSpace.fromPaddr 0x1000).unmapFree 0x3ff000 0x1000)
        (oneTable [0x3ff]) = (.ok (), after) ∧
      run handler ((AddressSpace.fromPaddr 0x1000).unmapFree 0x3ff000 0x1000)
        (recording after) = (.ok (), again) ∧
      again.allocator.freed = [] ∧ SameTables after.memory again.memory 0x1000 := by
  have returned : (run handler ((AddressSpace.fromPaddr 0x1000).unmapFree 0x3ff000 0x1000)
      (oneTable [0x3ff])).1 = .ok () := by decide +kernel
  have succeeded : run handler ((AddressSpace.fromPaddr 0x1000).unmapFree 0x3ff000 0x1000)
      (oneTable [0x3ff]) = (.ok (), (run handler
        ((AddressSpace.fromPaddr 0x1000).unmapFree 0x3ff000 0x1000)
        (oneTable [0x3ff])).2) := by
    rw [← returned]
  obtain ⟨again, ran, nothingFreed, same⟩ :=
    unmapFree_twice (oneTable_wellFormed [0x3ff]) succeeded
  exact ⟨_, again, succeeded, ran, nothingFreed, same⟩

/-! ## What is given back -/

/-- Something that a call gives back: a 4 KiB page, named by its address, or a page
table, named by the region it maps. -/
inductive Released where
  | page (start : Nat)
  | table (start : Nat)
  deriving DecidableEq, Repr

namespace Released

/-- The block that it is given back as: the address that its entry decodes to. -/
def block (memory : Memory) (root : Nat) : Released → Nat × PageSize
  | .page start =>
      ((memory (memory root (dirIndex start)).frame (tableIndex start)).address, .size4K)
  | .table start => ((memory root (dirIndex start)).address, .size4K)

/-- The region that it belongs to. -/
def region : Released → Nat
  | .page start => start / 0x400000 * 0x400000
  | .table start => start

end Released

/-- What the iteration for a region gives back, in order. -/
def releasedIn (memory : Memory) (root vaddr size region : Nat) : List Released :=
  (if (memory root (dirIndex region)).isTable then
    ((pagesWithin region vaddr (unmapEnd vaddr size)).filter fun page =>
      (memory (memory root (dirIndex region)).frame (tableIndex page)).flags.p).map .page
  else []) ++
    if TableEmptied memory root vaddr (unmapEnd vaddr size) region then [.table region] else []

/-- What a call gives back, in order. -/
def releasedBy (memory : Memory) (root vaddr size : Nat) : List Released :=
  (regionsOf vaddr size).flatMap (releasedIn memory root vaddr size)

section Released

variable {memory : Memory} {root vaddr size region page : Nat}

theorem page_mem_releasedIn (onRegion : region % 0x400000 = 0) :
    .page page ∈ releasedIn memory root vaddr size region ↔
      region = page / 0x400000 * 0x400000 ∧ page % 0x1000 = 0 ∧
        vaddr ≤ page ∧ page + 0x1000 ≤ unmapEnd vaddr size ∧
        (memory root (dirIndex page)).isTable = true ∧
        (memory (memory root (dirIndex page)).frame (tableIndex page)).flags.p = true := by
  have sameRegion : region = page / 0x400000 * 0x400000 → dirIndex page = dirIndex region :=
    fun own => dirIndex_of_region onRegion (by omega) (by omega)
  have notTable : ∀ emptied : Prop, ∀ _ : Decidable emptied,
      ¬(.page page ∈ if emptied then [Released.table region] else []) := by
    intro emptied _
    split <;> simp
  rw [releasedIn, List.mem_append, or_iff_left (notTable _ _)]
  constructor
  · intro member
    split at member
    next table =>
      obtain ⟨_, filtered, equal⟩ := List.mem_map.mp member
      cases equal
      obtain ⟨within, present⟩ := List.mem_filter.mp filtered
      rw [mem_pagesWithin] at within
      have own : region = page / 0x400000 * 0x400000 := by omega
      rw [sameRegion own]
      exact ⟨own, within.1.1, within.2.1, within.2.2, table, present⟩
    next => cases member
  · rintro ⟨own, onPage, above, below, table, present⟩
    rw [sameRegion own] at table present
    rw [if_pos table]
    refine List.mem_map_of_mem (List.mem_filter.mpr ⟨?_, present⟩)
    rw [mem_pagesWithin]
    omega

theorem table_mem_releasedIn {other : Nat} :
    .table other ∈ releasedIn memory root vaddr size region ↔
      other = region ∧ TableEmptied memory root vaddr (unmapEnd vaddr size) region := by
  have notPage : ∀ table : Prop, ∀ _ : Decidable table, ∀ pages : List Nat,
      ¬(.table other ∈ if table then pages.map Released.page else []) := by
    intro table _ pages
    split <;> simp
  rw [releasedIn, List.mem_append, or_iff_right (notPage _ _ _)]
  split
  next emptied => simp [emptied]
  next needed => simp [needed]

/-- Everything that an iteration gives back belongs to its region. -/
theorem region_of_mem_releasedIn {released : Released} (onRegion : region % 0x400000 = 0)
    (member : released ∈ releasedIn memory root vaddr size region) :
    released.region = region := by
  cases released with
  | page page => exact ((page_mem_releasedIn onRegion).mp member).1.symm
  | table other => exact (table_mem_releasedIn.mp member).1

theorem releasedIn_nodup : (releasedIn memory root vaddr size region).Nodup := by
  have pages : (pagesWithin region vaddr (unmapEnd vaddr size)).Nodup :=
    (pagesWithin_pairwise_lt _ _ _).imp Nat.ne_of_lt
  rw [releasedIn, List.nodup_append]
  refine ⟨?_, ?_, ?_⟩
  · split
    · exact (pages.filter _).map fun left right equal => Released.page.inj equal
    · exact List.nodup_nil
  · split <;> simp
  · intro left leftMember right rightMember equal
    split at leftMember
    next =>
      obtain ⟨page, -, rfl⟩ := List.mem_map.mp leftMember
      split at rightMember
      next => simp [← equal] at rightMember
      next => cases rightMember
    next => cases leftMember

/-- Nothing is given back twice. -/
theorem releasedBy_nodup : (releasedBy memory root vaddr size).Nodup := by
  rw [releasedBy, List.nodup_flatMap]
  refine ⟨fun region _ => releasedIn_nodup, ?_⟩
  have increasing : (regionsOf vaddr size).Pairwise (· < ·) :=
    stepBy_pairwise_lt _ _ (by decide)
  refine increasing.imp_of_mem ?_
  intro left right leftMember rightMember less released inLeft inRight
  have leftRegion := region_of_mem_releasedIn (mem_regionsOf.mp leftMember).1 inLeft
  have rightRegion := region_of_mem_releasedIn (mem_regionsOf.mp rightMember).1 inRight
  omega

theorem page_mem_releasedBy :
    .page page ∈ releasedBy memory root vaddr size ↔
      page % 0x1000 = 0 ∧ vaddr ≤ page ∧ page + 0x1000 ≤ unmapEnd vaddr size ∧
        (memory root (dirIndex page)).isTable = true ∧
        (memory (memory root (dirIndex page)).frame (tableIndex page)).flags.p = true := by
  rw [releasedBy, List.mem_flatMap]
  constructor
  · rintro ⟨region, visited, member⟩
    exact ((page_mem_releasedIn (mem_regionsOf.mp visited).1).mp member).2
  · rintro ⟨onPage, above, below, present⟩
    have visited : page / 0x400000 * 0x400000 ∈ regionsOf vaddr size := by
      by_contra outside
      exact not_visited outside ⟨above, by omega⟩
    exact ⟨_, visited, (page_mem_releasedIn (mem_regionsOf.mp visited).1).mpr
      ⟨rfl, onPage, above, below, present⟩⟩

theorem table_mem_releasedBy :
    .table region ∈ releasedBy memory root vaddr size ↔
      region ∈ regionsOf vaddr size ∧
        TableEmptied memory root vaddr (unmapEnd vaddr size) region := by
  rw [releasedBy, List.mem_flatMap]
  constructor
  · rintro ⟨visited, member, inIteration⟩
    obtain ⟨rfl, emptied⟩ := table_mem_releasedIn.mp inIteration
    exact ⟨member, emptied⟩
  · rintro ⟨member, emptied⟩
    exact ⟨region, member, table_mem_releasedIn.mpr ⟨rfl, emptied⟩⟩

/-- The calls of `free` of an iteration are for what it gives back. -/
theorem blocks_releasedIn (wf : WellFormed memory root) (visits : Visits vaddr size region)
    (small : (memory root (dirIndex region)).isLarge = false) :
    (releasedIn memory root vaddr size region).map (Released.block memory root) =
      pageBlocks memory root vaddr (unmapEnd vaddr size) region ++
        tableBlock memory root vaddr (unmapEnd vaddr size) region := by
  have onRegion := visits.onRegion
  rw [releasedIn, List.map_append]
  congr 1
  · rw [pageBlocks]
    cases table : (memory root (dirIndex region)).isTable with
    | false => simp [small]
    | true =>
        simp only [if_true, leafFrames, List.map_map]
        apply List.map_congr_left
        intro page member
        have within := mem_pagesWithin.mp (List.mem_filter.mp member).1
        have selected : dirIndex page = dirIndex region :=
          dirIndex_of_region onRegion (by omega) (by omega)
        simp [Released.block, selected]
  · rw [tableBlock]
    split
    next emptied =>
      simp [Released.block, wf.table_address (dirIndex_lt region) emptied.1]
    next => rfl

/-- The calls of `free` of a successful call are for what it gives back. -/
theorem blocks_releasedBy (wf : WellFormed memory root)
    (bounded : vaddr + size + 0x400000 < 0x100000000)
    (succeeded : (unmapEffect memory root vaddr size).outcome = .ok ()) :
    (unmapEffect memory root vaddr size).freed =
      (releasedBy memory root vaddr size).map (Released.block memory root) := by
  rw [unmapEffect_freed_ok wf bounded succeeded, releasedBy, List.map_flatMap]
  apply List.flatMap_congr
  intro region member
  have succeeds := (unmapEffect_ok_iff wf bounded).mp succeeded region member
  exact (blocks_releasedIn wf (visits_of_mem bounded member)
    (regionEffect_ok_iff.mp succeeds).1).symm

/-- A successful iteration unlinks its table exactly when nothing needs it any more. -/
theorem tableEmptied_iff_unlinked (wf : WellFormed memory root)
    (visits : Visits vaddr size region)
    (succeeded : (regionEffect memory root vaddr size region).outcome = .ok ()) :
    TableEmptied memory root vaddr (unmapEnd vaddr size) region ↔
      (memory root (dirIndex region)).isTable = true ∧
        ((regionEffect memory root vaddr size region).memory root
          (dirIndex region)).isTable = false := by
  have ending := regionEnding memory root vaddr size region
  generalize regionEffect memory root vaddr size region = effect at ending succeeded ⊢
  cases ending with
  | idle absent => simp [TableEmptied, PTEntry.isTable, absent]
  | cutLarge large cut => cases succeeded
  | wholeLarge large whole => cases succeeded
  | stopped table framed split passes stops => cases succeeded
  | kept table framed complete cut inUse =>
      subst framed
      dsimp only
      rw [clearPages_of_frame_ne memory _
        (Ne.symm (wf.table_ne_root _ (dirIndex_lt region) table)), table]
      exact iff_of_false (not_tableEmptied_of_kept visits complete cut inUse) (by simp)
  | unlinked table framed complete unused =>
      subst framed
      dsimp only
      rw [Memory.write_self]
      exact iff_of_true (tableEmptied_of_unlinked visits table complete unused)
        ⟨table, by decide⟩

/-- The tables that a successful call gives back are those that it unlinks. -/
theorem table_mem_releasedBy_iff_unlinked (wf : WellFormed memory root)
    (bounded : vaddr + size + 0x400000 < 0x100000000)
    (succeeded : (unmapEffect memory root vaddr size).outcome = .ok ())
    (onRegion : region % 0x400000 = 0) (regionBound : region < 0x100000000) :
    .table region ∈ releasedBy memory root vaddr size ↔
      (memory root (dirIndex region)).isTable = true ∧
        ((unmapEffect memory root vaddr size).memory root
          (dirIndex region)).isTable = false := by
  have done := unmapEffect_ok_done wf bounded succeeded
  rw [table_mem_releasedBy]
  by_cases member : region ∈ regionsOf vaddr size
  · have succeeds := (unmapEffect_ok_iff wf bounded).mp succeeded region member
    rw [(done.touched region member).directory,
      tableEmptied_iff_unlinked wf (visits_of_mem bounded member) succeeds]
    simp [member]
  · have unchanged := done.untouched (dirIndex region) (dirIndex_lt region) (by
      intro visited visitedMember sameIndex
      have visits := visits_of_mem bounded visitedMember
      have visitedBound := visits.region_bound
      have visitedOn := visits.onRegion
      have equal : visited = region := by
        unfold dirIndex at sameIndex
        omega
      exact member (equal ▸ visitedMember))
    rw [unchanged.directory]
    refine iff_of_false (fun released => member released.1) ?_
    rintro ⟨table, unlinked⟩
    rw [table] at unlinked
    cases unlinked

/-- A present page that meets the range of a successful call lies in what it unmaps. -/
theorem within_of_meets (wf : WellFormed memory root)
    (bounded : vaddr + size + 0x400000 < 0x100000000)
    (succeeded : (unmapEffect memory root vaddr size).outcome = .ok ())
    (mapped : PresentPage memory root page .size4K) {query : Nat}
    (inRange : InRange vaddr size query) (samePage : query / 0x1000 = page / 0x1000) :
    vaddr ≤ page ∧ page + 0x1000 ≤ unmapEnd vaddr size := by
  cases mapped with
  | small onPage pageBound table present =>
      have further := le_unmapEnd vaddr size
      obtain ⟨above, below⟩ := inRange
      have translates : ∀ offset < 0x1000, walk memory root (page + offset) ≠ none := by
        intro offset inside
        have free : walk memory root page ≠ none :=
          walk_ne_none_iff.mpr (.inr ⟨table, present⟩)
        exact fun none => free (walk_none_of_same_page (by omega) none)
      have unmapped : walk (unmapEffect memory root vaddr size).memory root query = none := by
        rw [walk_unmapEffect_ok wf bounded succeeded (by omega), if_pos ⟨above, by omega⟩]
      -- A byte of the page outside of what is unmapped would still translate.
      have allUnmapped : ∀ offset < 0x1000,
          vaddr ≤ page + offset ∧ page + offset < unmapEnd vaddr size := by
        intro offset inside
        by_contra outside
        have free := walk_none_of_same_page
          (show query / 0x1000 = (page + offset) / 0x1000 by omega) unmapped
        rw [walk_unmapEffect_ok wf bounded succeeded (by omega), if_neg outside] at free
        exact translates offset inside free
      have first := allUnmapped 0 (by decide)
      have last := allUnmapped 0xfff (by decide)
      omega

/-- Something that shares its block with nothing else is given back once. -/
theorem count_block_eq_one {released : List Released} {item : Released}
    (distinct : released.Nodup) (member : item ∈ released)
    (unshared : ∀ other ∈ released,
      other.block memory root = item.block memory root → other = item) :
    (released.map (Released.block memory root)).count (item.block memory root) = 1 := by
  rw [List.count_eq_countP, List.countP_map, ← List.count_eq_one_of_mem distinct member,
    List.count_eq_countP]
  apply List.countP_congr
  intro other otherMember
  simp only [Function.comp_apply, beq_iff_eq]
  exact ⟨unshared other otherMember, fun equal => congrArg _ equal⟩

end Released

/-- What a call that returns `Ok` has done: nothing in the range translates, and the calls
of `free` are one for each present page that meets the range (along with those up to
`unmapEnd`) and one for each table that was unlinked. -/
structure UnmapsCompletely {A : Type} (before : Memory) (root vaddr size : Nat)
    (after : State (Recorder PageSize A)) (released : List Released) : Prop where
  unmaps : ∀ query, InRange vaddr size query → walk after.memory root query = none
  frees : after.allocator.freed = released.map (Released.block before root)
  distinct : released.Nodup
  pages : ∀ page, PresentPage before root page .size4K →
    (∃ query, InRange vaddr size query ∧ query / 0x1000 = page / 0x1000) →
      .page page ∈ released
  onlyPages : ∀ page, .page page ∈ released → PresentPage before root page .size4K ∧
    vaddr ≤ page ∧ page + 0x1000 ≤ unmapEnd vaddr size
  tables : ∀ region, region % 0x400000 = 0 → region < 0x100000000 →
    (.table region ∈ released ↔ (before root (dirIndex region)).isTable = true ∧
      (after.memory root (dirIndex region)).isTable = false)
  once : ∀ item ∈ released, (∀ other ∈ released,
    other.block before root = item.block before root → other = item) →
      after.allocator.freed.count (item.block before root) = 1

section Complete

variable {A : Type} [PageAllocatorTrait PageSize A] {state : State A}
  {root vaddr size : Nat}

end Complete

end SatanKernel.X86
