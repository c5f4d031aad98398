import Mathlib.Data.List.Basic
import SatanKernel.X86.UnmapRegion

/-!
# Unmapping a range

`unmap_free` on an address space is a loop over 4 MiB regions.  The regions have
separate tables, so an iteration neither sees nor changes what another one works on:
the whole call is described by the effects that its iterations would have on the
memory before the call.
-/

namespace SatanKernel.X86

open Lib NestedPageTableLevel
open Lib.Program (run)

/-! ## The part of memory that belongs to a region -/

/-- Two memories hold the same directory entry and, where it is a table, the same
table for region `i`. -/
structure SameRegion (before after : Memory) (root i : Nat) : Prop where
  directory : after root i = before root i
  table : (before root i).isTable = true → ∀ index < 0x400,
    after (before root i).frame index = before (before root i).frame index

namespace SameRegion

variable {first second third : Memory} {root i : Nat}

theorem refl (memory : Memory) (root i : Nat) : SameRegion memory memory root i :=
  ⟨rfl, fun _ _ _ => rfl⟩

theorem trans (left : SameRegion first second root i)
    (right : SameRegion second third root i) : SameRegion first third root i where
  directory := right.directory.trans left.directory
  table := by
    intro isTable index inside
    have leftEq := left.table isTable index inside
    rw [← left.directory] at isTable leftEq ⊢
    exact (right.table isTable index inside).trans leftEq

/-- Walks of a region depend on nothing else. -/
theorem walk_eq (same : SameRegion first second root i) {vaddr : Nat}
    (selected : dirIndex vaddr = i) : walk second root vaddr = walk first root vaddr := by
  subst selected
  exact walk_congr same.directory fun isTable =>
    same.table isTable _ (tableIndex_lt vaddr)

end SameRegion

/-! ## An iteration works on its own region -/

section Local

variable {before after : Memory} {frame : Nat}

/-- Two memories hold the same table at `frame`. -/
def SameTable (before after : Memory) (frame : Nat) : Prop :=
  ∀ index < 0x400, after frame index = before frame index

theorem leafFrames_congr (same : SameTable before after frame) (pages : List Nat) :
    leafFrames after frame pages = leafFrames before frame pages := by
  have unchanged : ∀ page, after frame (tableIndex page) =
      before frame (tableIndex page) := fun page => same _ (tableIndex_lt page)
  simp only [leafFrames, unchanged]

theorem proceeds_congr (same : SameTable before after frame)
    (vaddr size region : Nat) :
    proceeds after frame vaddr size region =
      proceeds before frame vaddr size region := by
  funext page
  unfold proceeds
  congr 2
  simp only [StopsAt, same _ (tableIndex_lt page)]

theorem clearPages_congr (same : SameTable before after frame) (pages : List Nat) :
    SameTable (before.clearPages frame pages) (after.clearPages frame pages) frame := by
  intro index inside
  simp only [clearPages_self, same index inside]

theorem tableInUse_congr (same : SameTable before after frame) :
    tableInUse after frame = tableInUse before frame := by
  rw [Bool.eq_iff_iff, tableInUse_iff, tableInUse_iff]
  constructor
  · rintro ⟨index, inside, mapped⟩
    exact ⟨index, inside, same index inside ▸ mapped⟩
  · rintro ⟨index, inside, mapped⟩
    exact ⟨index, inside, (same index inside).symm ▸ mapped⟩

theorem unlinkedEntry_not_isTable : unlinkedEntry.isTable = false := by decide

variable {root vaddr size region : Nat}

/-- The effect on a region depends on that region only. -/
theorem regionEffect_congr (same : SameRegion before after root (dirIndex region))
    (beforeWf : WellFormed before root) :
    (regionEffect after root vaddr size region).outcome =
        (regionEffect before root vaddr size region).outcome ∧
      (regionEffect after root vaddr size region).freed =
        (regionEffect before root vaddr size region).freed ∧
      SameRegion (regionEffect before root vaddr size region).memory
        (regionEffect after root vaddr size region).memory root (dirIndex region) := by
  have inside := dirIndex_lt region
  unfold regionEffect
  simp only [same.directory]
  cases table : (before root (dirIndex region)).isTable with
  | false =>
      simp only [Bool.false_eq_true, if_false]
      split
      · split
        · exact ⟨rfl, rfl, same⟩
        · exact ⟨rfl, rfl, same⟩
      · exact ⟨rfl, rfl, same⟩
  | true =>
      have notRoot := beforeWf.table_ne_root _ inside table
      have sameTable : SameTable before after (before root (dirIndex region)).frame :=
        same.table table
      -- Clearing entries of the table leaves the directory entry.
      have cleared : ∀ pages, SameRegion
          (before.clearPages (before root (dirIndex region)).frame pages)
          (after.clearPages (before root (dirIndex region)).frame pages) root
          (dirIndex region) := by
        intro pages
        constructor
        · rw [clearPages_of_frame_ne _ _ (Ne.symm notRoot),
            clearPages_of_frame_ne _ _ (Ne.symm notRoot), same.directory]
        · intro _ index indexInside
          rw [clearPages_of_frame_ne before _ (Ne.symm notRoot)]
          exact clearPages_congr sameTable pages index indexInside
      simp only [if_true, tableEffect, leafFrames_congr sameTable,
        proceeds_congr sameTable,
        tableInUse_congr (clearPages_congr sameTable (partPages vaddr size region))]
      split
      next page rest stopped =>
        exact ⟨by rw [sameTable _ (tableIndex_lt page)], rfl, cleared _⟩
      next complete =>
        split
        · exact ⟨rfl, rfl, cleared _⟩
        · refine ⟨rfl, rfl, ?_, ?_⟩
          · exact (Memory.write_self _ _ _ _).trans (Memory.write_self _ _ _ _).symm
          · intro isTable
            simp only [Memory.write_self, unlinkedEntry_not_isTable] at isTable
            cases isTable

end Local

/-- Clearing pages of a region's table changes no other region. -/
theorem clearPages_other {memory : Memory} {root i j : Nat} (wf : WellFormed memory root)
    (iInside : i < 0x400) (table : (memory root i).isTable = true) (jInside : j < 0x400)
    (different : j ≠ i) (pages : List Nat) :
    SameRegion memory (memory.clearPages (memory root i).frame pages) root j where
  directory := clearPages_of_frame_ne _ _
    (Ne.symm (wf.table_ne_root i iInside table)) _ _
  table otherTable _ _ := clearPages_of_frame_ne _ _
    (fun equal => different
      (wf.table_injective j jInside i iInside otherTable table equal)) _ _

/-- Writing a directory entry changes no other region. -/
theorem write_directory_other {memory : Memory} {root i j : Nat}
    (wf : WellFormed memory root) (jInside : j < 0x400) (different : j ≠ i)
    (entry : PTEntry) : SameRegion memory (memory.write root i entry) root j where
  directory := Memory.write_of_index_ne _ _ _ _ different
  table otherTable _ _ :=
    Memory.write_of_frame_ne _ _ _ (wf.table_ne_root j jInside otherTable) _

theorem clearPages_wellFormed {memory : Memory} {root i : Nat}
    (wf : WellFormed memory root) (inside : i < 0x400)
    (table : (memory root i).isTable = true) (pages : List Nat) :
    WellFormed (memory.clearPages (memory root i).frame pages) root :=
  wf.of_directory_eq fun _ _ =>
    clearPages_of_frame_ne _ _ (Ne.symm (wf.table_ne_root i inside table)) _ _

/-- An iteration keeps the tree. -/
theorem regionEffect_wellFormed {memory : Memory} {root : Nat}
    (wf : WellFormed memory root) (vaddr size region : Nat) :
    WellFormed (regionEffect memory root vaddr size region).memory root := by
  have inside := dirIndex_lt region
  have ending := regionEnding memory root vaddr size region
  generalize regionEffect memory root vaddr size region = effect at ending ⊢
  cases ending with
  | idle absent => exact wf
  | cutLarge large cut => exact wf
  | wholeLarge large whole => exact wf
  | stopped table framed split passes stops =>
      subst framed
      exact clearPages_wellFormed wf inside table _
  | kept table framed complete cut inUse =>
      subst framed
      exact clearPages_wellFormed wf inside table _
  | unlinked table framed complete unused =>
      subst framed
      exact (clearPages_wellFormed wf inside table _).write_directory _
        unlinkedEntry_not_isTable

/-- An iteration changes no other region. -/
theorem regionEffect_other {memory : Memory} {root i : Nat} (wf : WellFormed memory root)
    (vaddr size region : Nat) (inside : i < 0x400) (different : i ≠ dirIndex region) :
    SameRegion memory (regionEffect memory root vaddr size region).memory root i := by
  have regionInside := dirIndex_lt region
  have ending := regionEnding memory root vaddr size region
  generalize regionEffect memory root vaddr size region = effect at ending ⊢
  cases ending with
  | idle absent => exact SameRegion.refl memory root i
  | cutLarge large cut => exact SameRegion.refl memory root i
  | wholeLarge large whole => exact SameRegion.refl memory root i
  | stopped table framed split passes stops =>
      subst framed
      exact clearPages_other wf regionInside table inside different _
  | kept table framed complete cut inUse =>
      subst framed
      exact clearPages_other wf regionInside table inside different _
  | unlinked table framed complete unused =>
      subst framed
      exact (clearPages_other wf regionInside table inside different _).trans
        (write_directory_other (clearPages_wellFormed wf regionInside table _) inside
          different _)

/-! ## The loop over regions -/

/-- Starts of the 4 MiB regions that the loop visits, in order. -/
def regionsOf (vaddr size : Nat) : List Nat :=
  stepBy (vaddr / 0x400000 * 0x400000)
    ((vaddr + size + 0x400000 - 1) / 0x400000 * 0x400000) 0x400000

theorem mem_regionsOf {vaddr size region : Nat} :
    region ∈ regionsOf vaddr size ↔
      region % 0x400000 = 0 ∧ vaddr < region + 0x400000 ∧ region < vaddr + size := by
  rw [regionsOf, mem_stepBy (by decide)]
  omega

theorem visits_of_mem {vaddr size region : Nat}
    (bounded : vaddr + size + 0x400000 < 0x100000000)
    (member : region ∈ regionsOf vaddr size) : Visits vaddr size region := by
  obtain ⟨onRegion, above, below⟩ := mem_regionsOf.mp member
  exact ⟨onRegion, above, below, bounded⟩

theorem regionsOf_dirIndex {vaddr size : Nat}
    (bounded : vaddr + size + 0x400000 < 0x100000000) :
    (regionsOf vaddr size).Pairwise fun left right =>
      dirIndex left ≠ dirIndex right := by
  apply (stepBy_pairwise_lt _ _ (by decide : 0 < 0x400000)).imp_of_mem
  intro left right leftMem rightMem less
  have leftVisits := visits_of_mem bounded leftMem
  have rightVisits := visits_of_mem bounded rightMem
  have leftOn := leftVisits.onRegion
  have rightOn := rightVisits.onRegion
  have leftBound := leftVisits.region_bound
  have rightBound := rightVisits.region_bound
  unfold dirIndex
  omega

/-- The loop over `regions`, which ends at the first iteration that fails. -/
def regionsEffect (memory : Memory) (root vaddr size : Nat) : List Nat → Effect
  | [] => ⟨.ok (), memory, []⟩
  | region :: regions =>
      let head := regionEffect memory root vaddr size region
      match head.outcome with
      | .ok () =>
          let tail := regionsEffect head.memory root vaddr size regions
          ⟨tail.outcome, tail.memory, head.freed ++ tail.freed⟩
      | _ => head

/-- The effect of `unmap_free` on an address space. -/
def unmapEffect (memory : Memory) (root vaddr size : Nat) : Effect :=
  regionsEffect memory root vaddr size (regionsOf vaddr size)

/-- What a loop that visits `visited` has done, in terms of the memory before it: each
visited region is as its own iteration leaves it, the others are unchanged. -/
structure RegionsDone (memory : Memory) (root vaddr size : Nat) (visited : List Nat)
    (done : Effect) : Prop where
  freed : done.freed = visited.flatMap fun region =>
    (regionEffect memory root vaddr size region).freed
  touched : ∀ region ∈ visited,
    SameRegion (regionEffect memory root vaddr size region).memory done.memory root
      (dirIndex region)
  untouched : ∀ i < 0x400, (∀ region ∈ visited, dirIndex region ≠ i) →
    SameRegion memory done.memory root i
  wellFormed : WellFormed done.memory root

namespace RegionsDone

variable {memory : Memory} {root vaddr size region : Nat} {visited : List Nat}
  {rest : Effect}

theorem nil (wf : WellFormed memory root) (outcome : Outcome MappingError Unit) :
    RegionsDone memory root vaddr size [] ⟨outcome, memory, []⟩ where
  freed := rfl
  touched := by simp
  untouched _ _ _ := .refl _ _ _
  wellFormed := wf

theorem single (wf : WellFormed memory root) (vaddr size region : Nat) :
    RegionsDone memory root vaddr size [region]
      (regionEffect memory root vaddr size region) where
  freed := by simp
  touched := by
    intro other member
    rw [List.mem_singleton.mp member]
    exact .refl _ _ _
  untouched i inside different :=
    regionEffect_other wf vaddr size region inside (Ne.symm (different region (by simp)))
  wellFormed := regionEffect_wellFormed wf vaddr size region

/-- One iteration before a loop over other regions. -/
theorem cons (wf : WellFormed memory root)
    (different : ∀ other ∈ visited, dirIndex region ≠ dirIndex other)
    (tail : RegionsDone (regionEffect memory root vaddr size region).memory root vaddr size
      visited rest) :
    RegionsDone memory root vaddr size (region :: visited)
      ⟨rest.outcome, rest.memory,
        (regionEffect memory root vaddr size region).freed ++ rest.freed⟩ := by
  -- The first iteration leaves what the others work on.
  have same : ∀ other ∈ visited, SameRegion memory
      (regionEffect memory root vaddr size region).memory root (dirIndex other) :=
    fun other member => regionEffect_other wf vaddr size region (dirIndex_lt other)
      (Ne.symm (different other member))
  constructor
  · simp only [List.flatMap_cons, tail.freed]
    congr 1
    apply List.flatMap_congr
    intro other member
    exact (regionEffect_congr (same other member) wf).2.1
  · intro other member
    rcases List.mem_cons.mp member with rfl | member
    · exact tail.untouched _ (dirIndex_lt other) fun later laterMember =>
        Ne.symm (different later laterMember)
    · exact (regionEffect_congr (same other member) wf).2.2.trans
        (tail.touched other member)
  · intro i inside outside
    exact (regionEffect_other wf vaddr size region inside
      (Ne.symm (outside region (by simp)))).trans
        (tail.untouched i inside fun other member => outside other (by simp [member]))
  · exact tail.wellFormed

end RegionsDone

/-- A loop over regions runs to its end, or up to the first iteration that fails. -/
theorem regionsEffect_done {memory : Memory} {root : Nat} (wf : WellFormed memory root)
    (vaddr size : Nat) (regions : List Nat)
    (distinct : regions.Pairwise fun left right => dirIndex left ≠ dirIndex right) :
    ((∀ region ∈ regions, (regionEffect memory root vaddr size region).outcome = .ok ()) ∧
      (regionsEffect memory root vaddr size regions).outcome = .ok () ∧
      RegionsDone memory root vaddr size regions
        (regionsEffect memory root vaddr size regions)) ∨
    ∃ before region rest, regions = before ++ region :: rest ∧
      (∀ other ∈ before, (regionEffect memory root vaddr size other).outcome = .ok ()) ∧
      (regionEffect memory root vaddr size region).outcome ≠ .ok () ∧
      (regionsEffect memory root vaddr size regions).outcome =
        (regionEffect memory root vaddr size region).outcome ∧
      RegionsDone memory root vaddr size (before ++ [region])
        (regionsEffect memory root vaddr size regions) := by
  induction regions generalizing memory with
  | nil => exact .inl ⟨by simp, rfl, .nil wf _⟩
  | cons region regions ih =>
      obtain ⟨different, distinct⟩ := List.pairwise_cons.mp distinct
      by_cases succeeded : (regionEffect memory root vaddr size region).outcome = .ok ()
      · have unfolded : regionsEffect memory root vaddr size (region :: regions) =
            ⟨(regionsEffect (regionEffect memory root vaddr size region).memory root vaddr
                size regions).outcome,
              (regionsEffect (regionEffect memory root vaddr size region).memory root vaddr
                size regions).memory,
              (regionEffect memory root vaddr size region).freed ++
                (regionsEffect (regionEffect memory root vaddr size region).memory root
                  vaddr size regions).freed⟩ := by
          rw [regionsEffect]
          simp only [succeeded]
        have sameOutcome : ∀ other ∈ regions,
            (regionEffect (regionEffect memory root vaddr size region).memory root vaddr
              size other).outcome =
            (regionEffect memory root vaddr size other).outcome := fun other member =>
          (regionEffect_congr (regionEffect_other wf vaddr size region (dirIndex_lt other)
            (Ne.symm (different other member))) wf).1
        rw [unfolded]
        rcases ih (regionEffect_wellFormed wf vaddr size region) distinct with
          ⟨allOk, outcome, done⟩ | ⟨before, failing, rest, split, allOk, failed, outcome,
            done⟩
        · refine .inl ⟨?_, outcome, done.cons wf different⟩
          intro other member
          rcases List.mem_cons.mp member with rfl | member
          · exact succeeded
          · exact (sameOutcome other member) ▸ allOk other member
        · have failingMember : failing ∈ regions := by simp [split]
          have beforeMember : ∀ other ∈ before, other ∈ regions := by
            intro other member
            simp [split, member]
          refine .inr ⟨region :: before, failing, rest, by simp [split], ?_, ?_, ?_, ?_⟩
          · intro other member
            rcases List.mem_cons.mp member with rfl | member
            · exact succeeded
            · exact (sameOutcome other (beforeMember other member)) ▸ allOk other member
          · exact (sameOutcome failing failingMember) ▸ failed
          · exact outcome.trans (sameOutcome failing failingMember)
          · refine done.cons wf fun other member => different other ?_
            rcases List.mem_append.mp member with member | member
            · exact beforeMember other member
            · exact List.mem_singleton.mp member ▸ failingMember
      · have unfolded : regionsEffect memory root vaddr size (region :: regions) =
            regionEffect memory root vaddr size region := by
          rw [regionsEffect]
          split
          next ok => exact absurd ok succeeded
          next => rfl
        rw [unfolded]
        exact .inr ⟨[], region, regions, rfl, by simp, succeeded, rfl,
          .single wf vaddr size region⟩

section Run

variable {A : Type} [PageAllocatorTrait PageSize A]

theorem run_unmapRegions {root vaddr size : Nat} (regions : List Nat) (state : State A)
    (wf : WellFormed state.memory root)
    (visits : ∀ region ∈ regions, Visits vaddr size region) :
    run handler (Program.forEach regions
        (unmapRegion (unmapFree 1) (directory root) vaddr size)) state =
      (regionsEffect state.memory root vaddr size regions).apply state.allocator := by
  induction regions generalizing state with
  | nil => simp [regionsEffect, Effect.apply]
  | cons region regions ih =>
      rw [Program.run_forEach_cons,
        run_unmapRegion state wf (visits region (by simp)), Effect.apply, regionsEffect]
      cases ending : (regionEffect state.memory root vaddr size region).outcome with
      | ok value =>
          have after := ih ⟨(regionEffect state.memory root vaddr size region).memory,
            freeAll state.allocator
              (regionEffect state.memory root vaddr size region).freed⟩
            (regionEffect_wellFormed wf vaddr size region)
            (fun other member => visits other (by simp [member]))
          rw [Outcome.andThen_ok, after]
          simp only [Effect.apply, freeAll_append]
      | err error => simp only [Outcome.andThen_err, Effect.apply, ending]
      | panic => simp only [Outcome.andThen_panic, Effect.apply, ending]

/-- `unmap_free` is the loop over the regions of its range. -/
theorem unmapFree_eq {root vaddr size : Nat}
    (bounded : vaddr + size + 0x400000 < 0x100000000) :
    (AddressSpace.fromPaddr root).unmapFree vaddr size =
      Program.forEach (regionsOf vaddr size)
        (unmapRegion (unmapFree 1) (directory root) vaddr size) := by
  have sumBound : vaddr + size < 0x100000000 := by omega
  have startBound : vaddr < 0x100000000 := by omega
  have rounded : (alignUp (vaddr + size) 0x400000 : PagingM Nat) =
      .ret ((vaddr + size + 0x400000 - 1) / 0x400000 * 0x400000) :=
    alignUp_of_lt (k := 22) (by decide) bounded
  rw [AddressSpace.unmapFree, AddressSpace.fromPaddr, levels, unmapFree,
    checkedAdd_of_lt sumBound, Program.ret_bind, regionSize_directory,
    alignDown_region startBound, rounded, Program.ret_bind, regionsOf]

/-- `unmap_free` panics where the end of the range cannot be rounded up. -/
theorem unmapFree_overflow {root vaddr size : Nat}
    (overflow : 0x100000000 ≤ vaddr + size + 0x400000) :
    (AddressSpace.fromPaddr root).unmapFree vaddr size = .panic := by
  rw [AddressSpace.unmapFree, AddressSpace.fromPaddr, levels, unmapFree]
  by_cases sumBound : vaddr + size < 0x100000000
  · rw [checkedAdd_of_lt sumBound, Program.ret_bind, regionSize_directory,
      alignUp_overflow (Nat.not_lt.mpr overflow), Program.panic_bind]
  · rw [checkedAdd_overflow sumBound, Program.panic_bind]

/-- `unmap_free` on a well-formed address space has the effect that `unmapEffect`
computes. -/
theorem run_unmapFree (state : State A) {root vaddr size : Nat}
    (wf : WellFormed state.memory root)
    (bounded : vaddr + size + 0x400000 < 0x100000000) :
    run handler ((AddressSpace.fromPaddr root).unmapFree vaddr size) state =
      (unmapEffect state.memory root vaddr size).apply state.allocator := by
  rw [unmapFree_eq bounded,
    run_unmapRegions _ state wf fun region => visits_of_mem bounded, unmapEffect]

theorem run_unmapFree_overflow (state : State A) {root vaddr size : Nat}
    (overflow : 0x100000000 ≤ vaddr + size + 0x400000) :
    run handler ((AddressSpace.fromPaddr root).unmapFree vaddr size) state =
      (.panic, state) := by
  rw [unmapFree_overflow overflow, Program.run_panic]

end Run

end SatanKernel.X86
