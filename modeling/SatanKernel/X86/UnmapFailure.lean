import SatanKernel.X86.UnmapGuarantees

/-!
# What a failed `unmap_free` leaves behind

`unmap_free` works from the start of its range and returns at the first page that it
cannot unmap, without undoing what it has done before.  A failed call therefore leaves
the state as it was only if it had nothing to do before that page.
-/

namespace SatanKernel.X86

open Lib NestedPageTableLevel
open Lib.Program (run)

/-- No entry of the directory or of one of its tables has changed. -/
def SameTables (before after : Memory) (root : Nat) : Prop :=
  ∀ frame, IsTableFrame before root frame → ∀ index < 0x400,
    after frame index = before frame index

theorem SameRegion.symm {first second : Memory} {root i : Nat}
    (same : SameRegion first second root i) : SameRegion second first root i where
  directory := same.directory.symm
  table := by
    intro isTable index inside
    rw [same.directory] at isTable ⊢
    exact (same.table isTable index inside).symm

theorem sameTables_iff {before after : Memory} {root : Nat} :
    SameTables before after root ↔ ∀ i < 0x400, SameRegion before after root i := by
  constructor
  · intro same i inside
    exact ⟨same root (.inl rfl) i inside,
      fun isTable index indexInside => same _ (.inr ⟨i, inside, isTable, rfl⟩) index
        indexInside⟩
  · intro same frame tableFrame index inside
    rcases tableFrame with rfl | ⟨i, iInside, isTable, rfl⟩
    · exact (same index inside).directory
    · exact (same i iInside).table isTable index inside

/-! ## Iterations without an effect -/

section Iteration

variable (memory : Memory) (root vaddr size region : Nat)

/-- The iteration for `region` has nothing to do: nothing is mapped there, or its table
has no present page in the part that is unmapped and stays in use. -/
def Idle : Prop :=
  (memory root (dirIndex region)).flags.p = false ∨
    ((memory root (dirIndex region)).isTable = true ∧
      (∀ page ∈ partPages vaddr size region,
        (memory (memory root (dirIndex region)).frame (tableIndex page)).flags.p = false) ∧
      CutsRegion vaddr size region ∧
      tableInUse memory (memory root (dirIndex region)).frame = true)

/-- The iteration for `region` cannot do anything: the range cuts its 4 MiB page, or the
first of the present pages in the part that is unmapped. -/
def FailsAtOnce : Prop :=
  ((memory root (dirIndex region)).isLarge = true ∧ CutsRegion vaddr size region) ∨
    ((memory root (dirIndex region)).isTable = true ∧
      ∃ page, (partPages vaddr size region).find? (fun page =>
          (memory (memory root (dirIndex region)).frame (tableIndex page)).flags.p) =
            some page ∧
        CutsPage (partStart vaddr region) (partEnd vaddr size region) page)

/-- The iteration for `region` changes no entry and frees nothing. -/
def Ineffective : Prop :=
  SameRegion memory (regionEffect memory root vaddr size region).memory root
      (dirIndex region) ∧
    (regionEffect memory root vaddr size region).freed = []

end Iteration

section Iteration

variable {memory : Memory} {root vaddr size region : Nat}

theorem leafFrames_eq_nil {frame : Nat} {pages : List Nat} :
    leafFrames memory frame pages = [] ↔
      ∀ page ∈ pages, (memory frame (tableIndex page)).flags.p = false := by
  simp [leafFrames]

/-- Clearing pages none of which is present changes nothing. -/
theorem clearPages_of_absent {frame : Nat} {pages : List Nat}
    (absent : ∀ page ∈ pages, (memory frame (tableIndex page)).flags.p = false) :
    memory.clearPages frame pages = memory := by
  funext otherFrame index
  by_cases sameFrame : otherFrame = frame
  · subst otherFrame
    rw [clearPages_self, if_neg]
    rintro ⟨present, page, member, rfl⟩
    rw [absent page member] at present
    cases present
  · exact clearPages_of_frame_ne _ _ sameFrame _ _

/-- A successful iteration has no effect exactly when it is idle. -/
theorem ineffective_iff_idle
    (succeeded : (regionEffect memory root vaddr size region).outcome = .ok ()) :
    Ineffective memory root vaddr size region ↔ Idle memory root vaddr size region := by
  unfold Ineffective Idle
  have ending := regionEnding memory root vaddr size region
  generalize regionEffect memory root vaddr size region = effect at ending succeeded ⊢
  cases ending with
  | idle absent => exact iff_of_true ⟨.refl _ _ _, rfl⟩ (.inl absent)
  | cutLarge large cut => cases succeeded
  | wholeLarge large whole => cases succeeded
  | stopped table framed split passes stops => cases succeeded
  | kept table framed complete cut inUse =>
      subst framed
      constructor
      · rintro ⟨-, nothingFreed⟩
        have absent := leafFrames_eq_nil.mp nothingFreed
        rw [clearPages_of_absent absent] at inUse
        exact .inr ⟨table, absent, cut, inUse⟩
      · rintro (notPresent | ⟨-, absent, -, -⟩)
        · rw [PTEntry.isTable_present table] at notPresent
          cases notPresent
        · refine ⟨?_, leafFrames_eq_nil.mpr absent⟩
          rw [clearPages_of_absent absent]
          exact .refl _ _ _
  | unlinked table framed complete unused =>
      subst framed
      apply iff_of_false
      · rintro ⟨-, nothingFreed⟩
        simp at nothingFreed
      · rintro (notPresent | ⟨-, absent, cut, inUse⟩)
        · rw [PTEntry.isTable_present table] at notPresent
          cases notPresent
        · have notInUse := unused cut
          rw [clearPages_of_absent absent, inUse] at notInUse
          cases notInUse

/-- A failed iteration has no effect exactly when it fails at once. -/
theorem ineffective_iff_failsAtOnce
    (failed : (regionEffect memory root vaddr size region).outcome ≠ .ok ()) :
    Ineffective memory root vaddr size region ↔
      FailsAtOnce memory root vaddr size region := by
  unfold Ineffective FailsAtOnce
  have ending := regionEnding memory root vaddr size region
  generalize regionEffect memory root vaddr size region = effect at ending failed ⊢
  cases ending with
  | idle absent => exact absurd rfl failed
  | cutLarge large cut => exact iff_of_true ⟨.refl _ _ _, rfl⟩ (.inl ⟨large, cut⟩)
  | wholeLarge large whole =>
      apply iff_of_false
      · rintro ⟨-, nothingFreed⟩
        cases nothingFreed
      · rintro (⟨-, cut⟩ | ⟨table, -⟩)
        · exact whole cut
        · rw [PTEntry.isLarge_not_isTable large] at table
          cases table
  | @stopped frame table framed before rest page split passes stops =>
      subst framed
      rw [split, List.find?_append]
      constructor
      · rintro ⟨-, nothingFreed⟩
        have absent := leafFrames_eq_nil.mp nothingFreed
        refine .inr ⟨table, page, ?_, stops.1⟩
        rw [List.find?_eq_none.mpr (by simpa using absent)]
        simp [stops.2]
      · rintro (⟨large, -⟩ | ⟨-, first, found, cut⟩)
        · rw [PTEntry.isLarge_not_isTable large] at table
          cases table
        · -- A present page before the one that stops the loop is not cut.
          have absent : ∀ other ∈ before, (memory (memory root (dirIndex region)).frame
              (tableIndex other)).flags.p = false := by
            cases earlier : before.find? (fun page =>
                (memory (memory root (dirIndex region)).frame
                  (tableIndex page)).flags.p) with
            | none => simpa using List.find?_eq_none.mp earlier
            | some other =>
                rw [earlier, Option.some_or, Option.some.injEq] at found
                subst first
                have present := List.find?_some earlier
                exact absurd ⟨cut, present⟩ (passes other (List.mem_of_find?_eq_some earlier))
          refine ⟨?_, leafFrames_eq_nil.mpr absent⟩
          rw [clearPages_of_absent absent]
          exact .refl _ _ _
  | kept table framed complete cut inUse => exact absurd rfl failed
  | unlinked table framed complete unused => exact absurd rfl failed

theorem Idle.succeeds (idle : Idle memory root vaddr size region) :
    (regionEffect memory root vaddr size region).outcome = .ok () := by
  rw [regionEffect_ok_iff]
  rcases idle with absent | ⟨table, absent, -, -⟩
  · simp [PTEntry.isLarge, PTEntry.isTable, absent]
  · refine ⟨by simp [PTEntry.isLarge, PTEntry.isTable_ps table], ?_⟩
    rintro - page member ⟨-, present⟩
    rw [absent page member] at present
    cases present

theorem FailsAtOnce.fails (fails : FailsAtOnce memory root vaddr size region) :
    (regionEffect memory root vaddr size region).outcome ≠ .ok () := by
  rw [Ne, regionEffect_ok_iff]
  rintro ⟨small, complete⟩
  rcases fails with ⟨large, -⟩ | ⟨table, page, found, cut⟩
  · rw [small] at large
    cases large
  · have present := List.find?_some found
    exact complete table page (List.mem_of_find?_eq_some found) ⟨cut, present⟩

end Iteration

/-! ## Calls without an effect -/

/-- The first region of the loop that is not idle fails at once. -/
def FailsCleanly (memory : Memory) (root vaddr size : Nat) : List Nat → Prop
  | [] => False
  | region :: rest =>
      FailsAtOnce memory root vaddr size region ∨
        (Idle memory root vaddr size region ∧ FailsCleanly memory root vaddr size rest)

section Call

variable {memory : Memory} {root vaddr size : Nat}

/-- Where a loop fails at `region`, it fails cleanly exactly when none of its iterations
has an effect. -/
theorem failsCleanly_iff {before rest : List Nat} {region : Nat}
    (succeeded : ∀ other ∈ before,
      (regionEffect memory root vaddr size other).outcome = .ok ())
    (failed : (regionEffect memory root vaddr size region).outcome ≠ .ok ()) :
    FailsCleanly memory root vaddr size (before ++ region :: rest) ↔
      ∀ visited ∈ before ++ [region], Ineffective memory root vaddr size visited := by
  induction before with
  | nil =>
      simp only [List.nil_append, FailsCleanly, List.mem_singleton, forall_eq,
        ineffective_iff_failsAtOnce failed]
      constructor
      · rintro (fails | ⟨idle, -⟩)
        · exact fails
        · exact absurd idle.succeeds failed
      · exact .inl
  | cons first before ih =>
      have firstOk := succeeded first (by simp)
      have ih := ih fun other member => succeeded other (by simp [member])
      rw [List.cons_append, List.cons_append, FailsCleanly, List.forall_mem_cons, ← ih,
        ineffective_iff_idle firstOk]
      constructor
      · rintro (fails | clean)
        · exact absurd firstOk fails.fails
        · exact clean
      · exact .inr

/-- A loop has changed nothing exactly when none of its iterations has. -/
theorem RegionsDone.unchanged_iff {visited : List Nat} {done : Effect}
    (finished : RegionsDone memory root vaddr size visited done) :
    (SameTables memory done.memory root ∧ done.freed = []) ↔
      ∀ region ∈ visited, Ineffective memory root vaddr size region := by
  rw [sameTables_iff, finished.freed, List.flatMap_eq_nil_iff]
  constructor
  · rintro ⟨same, nothingFreed⟩ region member
    exact ⟨(same _ (dirIndex_lt region)).trans (finished.touched region member).symm,
      nothingFreed region member⟩
  · intro ineffective
    refine ⟨?_, fun region member => (ineffective region member).2⟩
    intro i inside
    by_cases touched : ∃ region ∈ visited, dirIndex region = i
    · obtain ⟨region, member, rfl⟩ := touched
      exact (ineffective region member).1.trans (finished.touched region member)
    · exact finished.untouched i inside fun region member equal =>
        touched ⟨region, member, equal⟩

variable {A : Type} [PageAllocatorTrait PageSize A]

/-- A failed `unmap_free` leaves the state as it was exactly when the first region in
which it has something to do makes it fail before it has done anything there. -/
theorem unmapFree_failed_unchanged_iff {state : State A}
    {after : State (Recorder PageSize A)} {error : MappingError}
    (wf : WellFormed state.memory root)
    (failed : run handler ((AddressSpace.fromPaddr root).unmapFree vaddr size)
      (recording state) = (.err error, after)) :
    (SameTables state.memory after.memory root ∧ after.allocator.freed = []) ↔
      FailsCleanly state.memory root vaddr size (regionsOf vaddr size) := by
  have bounded := bounded_of_run failed (by simp)
  obtain ⟨outcome, memoryEq, freedEq⟩ := run_unmapFree_recording wf bounded
  rw [failed] at outcome memoryEq freedEq
  rw [memoryEq, freedEq]
  rcases regionsEffect_done wf vaddr size _ (regionsOf_dirIndex bounded) with
    ⟨-, succeeded, -⟩ | ⟨before, region, rest, split, beforeOk, regionFailed, -, done⟩
  · cases outcome.trans succeeded
  · rw [unmapEffect, split, failsCleanly_iff beforeOk regionFailed]
    rw [split] at done
    exact done.unchanged_iff

end Call

/-- A call that starts inside of the only page leaves everything as it was. -/
theorem unmapFree_failed_unchanged_cut_page :
    SameTables (oneTable [0]).memory
      (run handler ((AddressSpace.fromPaddr 0x1000).unmapFree 0x800 0x100)
        (recording (oneTable [0]))).2.memory 0x1000 ∧
      (run handler ((AddressSpace.fromPaddr 0x1000).unmapFree 0x800 0x100)
        (recording (oneTable [0]))).2.allocator.freed = [] := by
  have returned : (run handler ((AddressSpace.fromPaddr 0x1000).unmapFree 0x800 0x100)
      (recording (oneTable [0]))).1 = .err (.unmappingPartOfLargePage 0x4000) := by
    decide +kernel
  have failed : run handler ((AddressSpace.fromPaddr 0x1000).unmapFree 0x800 0x100)
      (recording (oneTable [0])) = (.err (.unmappingPartOfLargePage 0x4000), (run handler
        ((AddressSpace.fromPaddr 0x1000).unmapFree 0x800 0x100)
        (recording (oneTable [0]))).2) := by
    rw [← returned]
  have regions : regionsOf 0x800 0x100 = [0] := by decide
  refine (unmapFree_failed_unchanged_iff (oneTable_wellFormed _) failed).mpr ?_
  rw [regions]
  refine .inl (.inr ⟨by decide, 0, by decide +kernel, .inl (by decide)⟩)

/-- A call that ends inside of the second page fails after it has freed the first. -/
theorem unmapFree_failed_first_page_freed :
    WellFormed (oneTable [0, 1]).memory 0x1000 ∧
    (run handler ((AddressSpace.fromPaddr 0x1000).unmapFree 0 0x1800)
      (recording (oneTable [0, 1]))).1 = .err (.unmappingPartOfLargePage 0x5000) ∧
    (run handler ((AddressSpace.fromPaddr 0x1000).unmapFree 0 0x1800)
      (recording (oneTable [0, 1]))).2.allocator.freed = [(0x4000, .size4K)] ∧
    ¬SameTables (oneTable [0, 1]).memory
      (run handler ((AddressSpace.fromPaddr 0x1000).unmapFree 0 0x1800)
        (recording (oneTable [0, 1]))).2.memory 0x1000 := by
  refine ⟨oneTable_wellFormed _, by decide +kernel, by decide +kernel, fun same => ?_⟩
  have table : IsTableFrame (oneTable [0, 1]).memory 0x1000 0x2000 :=
    .inr ⟨0, by decide, by decide +kernel, by decide +kernel⟩
  have cleared : (run handler ((AddressSpace.fromPaddr 0x1000).unmapFree 0 0x1800)
      (recording (oneTable [0, 1]))).2.memory 0x2000 0 ≠
        (oneTable [0, 1]).memory 0x2000 0 := by
    decide +kernel
  exact cleared (same 0x2000 table 0 (by decide))

end SatanKernel.X86
