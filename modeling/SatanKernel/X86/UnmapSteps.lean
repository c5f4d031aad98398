import SatanKernel.Lib.Performs
import SatanKernel.X86.UnmapGuarantees

/-!
# The steps of `unmap_free`

What `unmap_free` does on its way: the arithmetic that it evaluates at both levels, and
the state of a page table at the moment at which the table is given back.
-/

namespace SatanKernel.X86

open Lib NestedPageTableLevel
open Lib.Program (run Panics Performs)

/-! ## Arithmetic -/

section Arithmetic

variable {A : Type} [PageAllocatorTrait PageSize A] {state : State A}

/-- Code that goes on from an entry panics only if it does so for some word that can be
in the table. -/
theorem not_panics_getEntry_bind {α : Type} {self : PageTableLevel} {vaddr : Nat}
    {next : PageTableEntry PageTableLevel → PagingM α}
    (never : ∀ word, ¬Panics handler (next (self.decode word)) state) :
    ¬Panics handler (getEntry self vaddr >>= next) state := by
  by_cases aligned : self.paddr % 0x1000 = 0
  · rw [Program.panics_bind, run_getEntry state self vaddr aligned]
    rintro (here | ⟨entry, after, returned, later⟩)
    · exact Program.not_panics_call (fun _ _ => Program.not_panics_ofExcept _) here
    · cases returned
      exact never _ later
  · have refused : handler (.getEntry self vaddr) state = none := if_neg aligned
    rw [Program.panics_bind, getEntry, Program.run_call_none handler refused]
    rintro (⟨_, _, handled, -⟩ | ⟨_, _, returned, -⟩)
    · rw [refused] at handled
      cases handled
    · cases returned

theorem not_panics_setEntry (self : PageTableLevel) (vaddr : Nat)
    (entry : PageTableEntry PageTableLevel) :
    ¬Panics handler (setEntry self vaddr entry) state :=
  Program.not_panics_call fun _ _ => Program.not_panics_ofExcept _

theorem not_panics_unlinkSublevel (self sublevel : PageTableLevel) (page : Nat) :
    ¬Panics handler (unlinkSublevel self page sublevel) state :=
  Program.not_panics_bind
    (Program.not_panics_call fun _ _ => Program.not_panics_ofExcept _)
    fun _ _ => not_panics_setEntry self page .NULL

theorem not_panics_freePage {self : PageTableLevel} {ownSize : PageSize}
    (sized : pageSize self = some ownSize) (page paddr : Nat) :
    ¬Panics handler (freePage self page paddr) state := by
  rw [freePage, sized]
  exact Program.not_panics_bind (Program.not_panics_ret ownSize) fun _ _ =>
    Program.not_panics_bind (Program.not_panics_call fun _ _ => Program.not_panics_ret _)
      fun _ _ => not_panics_setEntry self page .NULL

theorem not_panics_unmapLeaf {self : PageTableLevel} {ownSize : PageSize}
    (sized : pageSize self = some ownSize) (cut : Bool) (page : Nat) (word : PTEntry) :
    ¬Panics handler (unmapLeaf self cut page word) state := by
  unfold unmapLeaf
  split
  · split
    · exact Program.not_panics_throw _
    · exact not_panics_freePage sized page word.address
  · exact Program.not_panics_pure _

/-- An iteration on a page table. -/
theorem not_panics_unmapPage (recurse : PageTableLevel → Nat → Nat → PagingM Unit)
    {frame lo length page : Nat} (pageBound : page + 0x1000 < 0x100000000)
    (rangeBound : lo + length < 0x100000000) :
    ¬Panics handler (unmapRegion recurse (pageTable frame) lo length page) state := by
  obtain ⟨next, code, onWord⟩ := unmapPage_eq recurse frame pageBound rangeBound
  rw [code]
  apply not_panics_getEntry_bind
  intro word
  rw [onWord]
  exact not_panics_unmapLeaf (pageSize_pageTable frame) _ page word

/-- The recursive call for the part of a region. -/
theorem not_panics_unmapPart {frame vaddr size region : Nat}
    (visits : Visits vaddr size region) :
    ¬Panics handler (unmapFree 1 (pageTable frame) (partStart vaddr region)
      (partEnd vaddr size region - partStart vaddr region)) state := by
  have stop := partEnd_bounds visits
  have bound := visits.region_bound
  rw [unmapFree_part_eq visits]
  apply Program.not_panics_forEach
  intro page member current
  exact not_panics_unmapPage _ (partPages_bound visits page member).2 (by omega)

theorem not_panics_anyMapped {frame region : Nat}
    (bounded : region + 0x400000 < 0x100000000) :
    ¬Panics handler (anyMapped region 0x400000 (pageTable frame)) state := by
  rw [anyMapped, checkedAdd_of_lt bounded, Program.ret_bind]
  apply Program.not_panics_anyOf
  intro entryAddr _ current
  apply not_panics_getEntry_bind
  exact fun word => Program.not_panics_pure _

/-- An iteration on the page directory. -/
theorem not_panics_unmapRegion {root vaddr size region : Nat}
    (visits : Visits vaddr size region) :
    ¬Panics handler (unmapRegion (unmapFree 1) (directory root) vaddr size region)
      state := by
  have bound := visits.region_bound
  obtain ⟨next, code, onWord⟩ := unmapRegion_eq root visits
  rw [code]
  apply not_panics_getEntry_bind
  intro word
  rw [onWord]
  split
  · refine Program.not_panics_bind (not_panics_unmapPart visits) fun _ _ => ?_
    split
    · refine Program.not_panics_bind (not_panics_anyMapped (by omega)) fun mapped _ => ?_
      split
      · exact Program.not_panics_pure _
      · exact not_panics_unlinkSublevel _ _ _
    · exact not_panics_unlinkSublevel _ _ _
  · exact not_panics_unmapLeaf (pageSize_directory root) _ region word

/-- Rounding the end of the range up to a region is the only arithmetic of `unmap_free`
that can leave the address space, and it does so for every range that does not end before
the last region. -/
theorem unmapFree_arithmetic_iff (root vaddr size : Nat) (state : State A) :
    ¬Panics handler ((AddressSpace.fromPaddr root).unmapFree vaddr size) state ↔
      vaddr + size + 0x400000 < 0x100000000 := by
  constructor
  · intro fine
    by_contra overflow
    rw [unmapFree_overflow (Nat.not_lt.mp overflow)] at fine
    exact fine Program.panics_panic
  · intro bounded
    rw [unmapFree_eq bounded]
    apply Program.not_panics_forEach
    intro region member current
    exact not_panics_unmapRegion (visits_of_mem bounded member)

end Arithmetic

/-- A page of the last region that `map_alloc` has mapped cannot be unmapped. -/
theorem unmapFree_last_region_panics :
    ∃ after : State (Scripted 0x1000),
      run handler ((AddressSpace.fromPaddr 0x1000).mapAlloc 0xffffe000 0x1000 .readWrite)
        (emptySpace [some 0x2000, some 0x3000]) = (.ok 0xffffe000, after) ∧
      (walk after.memory 0x1000 0xffffe000).isSome = true ∧
      0xffffe000 + 0x1000 ≤ 0xffffffff ∧
      Panics handler ((AddressSpace.fromPaddr 0x1000).unmapFree 0xffffe000 0x1000) after := by
  have returned : (run handler ((AddressSpace.fromPaddr 0x1000).mapAlloc 0xffffe000 0x1000
      .readWrite) (emptySpace [some 0x2000, some 0x3000])).1 = .ok 0xffffe000 := by
    decide +kernel
  refine ⟨_, Prod.ext returned rfl, by decide +kernel, by decide, ?_⟩
  rw [unmapFree_overflow (by decide)]
  exact Program.panics_panic

/-! ## Tables that are given back -/

/-- No entry of the table is mapped. -/
def HoldsNothing (memory : Memory) (table : PageTableLevel) : Prop :=
  ∀ index < 0x400, (table.decode (memory table.paddr index)).mapped = false

theorem holdsNothing_iff {memory : Memory} {frame : Nat} :
    HoldsNothing memory (pageTable frame) ↔ tableInUse memory frame = false := by
  rw [Bool.eq_false_iff, Ne, tableInUse_iff]
  simp only [HoldsNothing, decode_mapped]
  push Not
  simp

section Discards

variable {A : Type} [PageAllocatorTrait PageSize A] {state moment : State A}
  {level sublevel : PageTableLevel}

/-- Code that goes on from an entry. -/
theorem performs_getEntry_bind {α : Type} {self : PageTableLevel} {vaddr : Nat}
    (aligned : self.paddr % 0x1000 = 0)
    {next : PageTableEntry PageTableLevel → PagingM α} :
    Performs handler (.freeSublevel level sublevel) moment (getEntry self vaddr >>= next)
        state ↔
      Performs handler (.freeSublevel level sublevel) moment
        (next (self.decode (state.memory self.paddr (self.index vaddr)))) state := by
  rw [Program.performs_bind, run_getEntry state self vaddr aligned]
  constructor
  · rintro (here | ⟨entry, after, returned, later⟩)
    · exact absurd here (Program.not_performs_call (by simp) fun _ _ =>
        Program.not_performs_ofExcept _)
    · cases returned
      exact later
  · exact fun later => .inr ⟨_, _, rfl, later⟩

theorem not_performs_setEntry (self : PageTableLevel) (vaddr : Nat)
    (entry : PageTableEntry PageTableLevel) :
    ¬Performs handler (.freeSublevel level sublevel) moment (setEntry self vaddr entry)
      state :=
  Program.not_performs_call (by simp) fun _ _ => Program.not_performs_ofExcept _

theorem not_performs_freePage (self : PageTableLevel) (page paddr : Nat) :
    ¬Performs handler (.freeSublevel level sublevel) moment (freePage self page paddr)
      state := by
  rw [freePage]
  refine Program.not_performs_bind ?_ fun _ _ => Program.not_performs_bind
    (Program.not_performs_call (by simp) fun _ _ => Program.not_performs_ret _) fun _ _ =>
      not_performs_setEntry self page .NULL
  cases pageSize self <;> exact id

/-- Unlinking a table gives that table back. -/
theorem performs_unlinkSublevel {self table : PageTableLevel} {page : Nat} :
    Performs handler (.freeSublevel level sublevel) moment (unlinkSublevel self page table)
        state ↔
      (self = level ∧ table = sublevel) ∧ state = moment := by
  rw [unlinkSublevel, Program.performs_bind]
  constructor
  · rintro (here | ⟨_, after, -, later⟩)
    · rcases Program.performs_call.mp here with ⟨same, now⟩ | ⟨answer, after, -, later⟩
      · exact ⟨PageTableOp.freeSublevel.inj same, now⟩
      · exact absurd later (Program.not_performs_ofExcept answer)
    · exact absurd later (not_performs_setEntry self page .NULL)
  · rintro ⟨⟨rfl, rfl⟩, now⟩
    exact .inl (.inl ⟨rfl, now⟩)

theorem not_performs_unmapLeaf (self : PageTableLevel) (cut : Bool) (page : Nat)
    (word : PTEntry) :
    ¬Performs handler (.freeSublevel level sublevel) moment (unmapLeaf self cut page word)
      state := by
  unfold unmapLeaf
  split
  · split
    · exact Program.not_performs_throw _
    · exact not_performs_freePage _ _ _
  · exact Program.not_performs_pure _

/-- An iteration on a page table gives no table back. -/
theorem not_performs_unmapPage (recurse : PageTableLevel → Nat → Nat → PagingM Unit)
    {frame lo length page : Nat} (aligned : frame % 0x1000 = 0)
    (pageBound : page + 0x1000 < 0x100000000) (rangeBound : lo + length < 0x100000000) :
    ¬Performs handler (.freeSublevel level sublevel) moment
      (unmapRegion recurse (pageTable frame) lo length page) state := by
  obtain ⟨next, code, onWord⟩ := unmapPage_eq recurse frame pageBound rangeBound
  rw [code, performs_getEntry_bind aligned, onWord]
  exact not_performs_unmapLeaf _ _ _ _

/-- The state in which the part of a region has been unmapped. -/
def partUnmapped (state : State A) (frame vaddr size region : Nat) : State A where
  memory := state.memory.clearPages frame (partPages vaddr size region)
  allocator := freeAll state.allocator
    (leafFrames state.memory frame (partPages vaddr size region))

/-- The loop over the pages of a part meets none that it cannot unmap. -/
def PartPasses (memory : Memory) (frame vaddr size region : Nat) : Prop :=
  ∀ page ∈ partPages vaddr size region,
    ¬StopsAt memory frame (partStart vaddr region) (partEnd vaddr size region) page

/-- What comes after the recursive call for the part of a region gives a table back. -/
theorem performs_part_bind {frame vaddr size region : Nat} (aligned : frame % 0x1000 = 0)
    (visits : Visits vaddr size region) {next : Unit → PagingM Unit} :
    Performs handler (.freeSublevel level sublevel) moment
        (unmapFree 1 (pageTable frame) (partStart vaddr region)
          (partEnd vaddr size region - partStart vaddr region) >>= next) state ↔
      PartPasses state.memory frame vaddr size region ∧
        Performs handler (.freeSublevel level sublevel) moment (next ())
          (partUnmapped state frame vaddr size region) := by
  have stop := partEnd_bounds visits
  have bound := visits.region_bound
  have notHere : ¬Performs handler (.freeSublevel level sublevel) moment
      (unmapFree 1 (pageTable frame) (partStart vaddr region)
        (partEnd vaddr size region - partStart vaddr region)) state := by
    rw [unmapFree_part_eq visits]
    apply Program.not_performs_forEach
    intro page member current
    exact not_performs_unmapPage _ aligned (partPages_bound visits page member).2 (by omega)
  rw [Program.performs_bind, or_iff_right notHere]
  cases ending : (partPages vaddr size region).dropWhile
      (proceeds state.memory frame vaddr size region) with
  | nil =>
      rw [run_unmapFree_part_ok state aligned visits ending]
      constructor
      · rintro ⟨_, after, returned, later⟩
        cases returned
        exact ⟨dropWhile_proceeds_nil ending, later⟩
      · rintro ⟨-, later⟩
        exact ⟨(), _, rfl, later⟩
  | cons page rest =>
      rw [run_unmapFree_part_err state aligned visits ending]
      constructor
      · rintro ⟨_, after, returned, -⟩
        cases returned
      · rintro ⟨passes, -⟩
        obtain ⟨split, -, stops⟩ := dropWhile_proceeds_cons ending
        refine absurd stops (passes page ?_)
        rw [split]
        simp

/-- When an iteration gives a table back: the entry is a table, nothing in the part stops
the loop and, if the range cuts the region, the scan finds nothing mapped. -/
theorem performs_unmapRegion {root vaddr size region : Nat}
    (wf : WellFormed state.memory root) (visits : Visits vaddr size region) :
    Performs handler (.freeSublevel level sublevel) moment
        (unmapRegion (unmapFree 1) (directory root) vaddr size region) state ↔
      (state.memory root (dirIndex region)).isTable = true ∧
        PartPasses state.memory (state.memory root (dirIndex region)).frame vaddr size
          region ∧
        (CutsRegion vaddr size region → tableInUse
          (partUnmapped state (state.memory root (dirIndex region)).frame vaddr size
            region).memory (state.memory root (dirIndex region)).frame = false) ∧
        (directory root = level ∧
          pageTable (state.memory root (dirIndex region)).frame = sublevel) ∧
        partUnmapped state (state.memory root (dirIndex region)).frame vaddr size region =
          moment := by
  have bound := visits.region_bound
  have aligned := (state.memory root (dirIndex region)).frame_aligned
  obtain ⟨next, code, onWord⟩ := unmapRegion_eq root visits
  rw [code, performs_getEntry_bind wf.root_aligned, index_directory, onWord]
  cases table : (state.memory root (dirIndex region)).isTable with
  | false => exact iff_of_false (not_performs_unmapLeaf _ _ _ _) (by simp)
  | true =>
      simp only [if_true, wf.table_address (dirIndex_lt region) table, true_and]
      rw [unmapTable, performs_part_bind aligned visits]
      apply and_congr_right
      intro _
      by_cases cut : CutsRegion vaddr size region
      · have notScanned : ∀ current : State A, ¬Performs handler
            (.freeSublevel level sublevel) moment (anyMapped region 0x400000
              (pageTable (state.memory root (dirIndex region)).frame)) current := by
          intro current
          have endBound : region + 0x400000 < 0x100000000 := by omega
          rw [anyMapped, checkedAdd_of_lt endBound, Program.ret_bind]
          apply Program.not_performs_anyOf
          intro entryAddr _ current
          rw [performs_getEntry_bind aligned]
          exact Program.not_performs_pure _
        simp only [cut, if_true, true_implies]
        rw [Program.performs_bind, or_iff_right (notScanned _),
          run_anyMapped _ aligned visits.onRegion (by omega)]
        generalize tableInUse (partUnmapped state (state.memory root (dirIndex region)).frame
          vaddr size region).memory (state.memory root (dirIndex region)).frame = inUse
        constructor
        · rintro ⟨_, after, returned, later⟩
          cases returned
          cases inUse with
          | true => exact absurd later (Program.not_performs_pure _)
          | false => exact ⟨rfl, performs_unlinkSublevel.mp later⟩
        · rintro ⟨rfl, unlinked⟩
          exact ⟨_, _, rfl, performs_unlinkSublevel.mpr unlinked⟩
      · simp only [cut, if_false, false_implies, true_and]
        exact performs_unlinkSublevel

/-- Every table that the program gives back holds nothing at that moment. -/
def DiscardsEmpty (program : PagingM Unit) (state : State A) : Prop :=
  ∀ level sublevel moment,
    Performs handler (.freeSublevel level sublevel) moment program state →
      HoldsNothing moment.memory sublevel

end Discards

/-- Every mapped entry of the table is present: none is swapped out. -/
def AllPresent (memory : Memory) (frame : Nat) : Prop :=
  ∀ index < 0x400, (memory frame index).isMapped = true → (memory frame index).flags.p = true

/-- The iteration for `region` has no reason to stop: there is no 4 MiB page, and no
present page that the part cuts. -/
def RegionPasses (memory : Memory) (root vaddr size region : Nat) : Prop :=
  (memory root (dirIndex region)).isLarge = false ∧
    ((memory root (dirIndex region)).isTable = true →
      PartPasses memory (memory root (dirIndex region)).frame vaddr size region)

/-- In each table of a region inside the range, up to the first region at which the call
stops, no entry is swapped out. -/
def NoneSwapped (memory : Memory) (root vaddr size : Nat) : List Nat → Prop
  | [] => True
  | region :: rest =>
      (¬CutsRegion vaddr size region → (memory root (dirIndex region)).isTable = true →
        AllPresent memory (memory root (dirIndex region)).frame) ∧
      (RegionPasses memory root vaddr size region →
        NoneSwapped memory root vaddr size rest)

section Discards

variable {memory : Memory} {root vaddr size region : Nat}

/-- Nothing stops the unmapping of a region inside the range. -/
theorem partPasses_of_whole (onRegion : region % 0x400000 = 0)
    (whole : ¬CutsRegion vaddr size region) (frame : Nat) :
    PartPasses memory frame vaddr size region := by
  obtain ⟨startEq, endEq⟩ := part_of_whole whole
  rintro page member ⟨cut, -⟩
  rw [mem_partPages] at member
  rw [startEq, endEq] at member cut
  unfold CutsPage at cut
  omega

/-- A region inside the range leaves its table empty exactly when no entry is swapped
out. -/
theorem tableInUse_clear_whole (visits : Visits vaddr size region)
    (whole : ¬CutsRegion vaddr size region) :
    tableInUse (memory.clearPages (memory root (dirIndex region)).frame
        (partPages vaddr size region)) (memory root (dirIndex region)).frame = false ↔
      AllPresent memory (memory root (dirIndex region)).frame := by
  have onRegion := visits.onRegion
  obtain ⟨above, below⟩ := (whole_iff visits).mp whole
  rw [tableInUse_clear_part visits (partPasses_of_whole onRegion whole _)]
  constructor
  · intro covered index inside mapped
    exact (covered index inside mapped).1
  · intro allPresent index inside mapped
    exact ⟨allPresent index inside mapped, by omega, by omega⟩

variable {A : Type} [PageAllocatorTrait PageSize A]

/-- The scan protects the swapped entries of a region that is cut; those of a region
inside the range are lost. -/
theorem discardsEmpty_unmapRegion {state : State A} (wf : WellFormed state.memory root)
    (visits : Visits vaddr size region) :
    DiscardsEmpty (unmapRegion (unmapFree 1) (directory root) vaddr size region) state ↔
      (¬CutsRegion vaddr size region →
        (state.memory root (dirIndex region)).isTable = true →
          AllPresent state.memory (state.memory root (dirIndex region)).frame) := by
  constructor
  · intro discards whole table
    have empty := discards _ _ _ ((performs_unmapRegion wf visits).mpr
      ⟨table, partPasses_of_whole visits.onRegion whole _, fun cut => absurd cut whole,
        ⟨rfl, rfl⟩, rfl⟩)
    exact (tableInUse_clear_whole visits whole).mp (holdsNothing_iff.mp empty)
  · intro allPresent level sublevel moment performs
    obtain ⟨table, -, unused, ⟨-, rfl⟩, rfl⟩ := (performs_unmapRegion wf visits).mp performs
    rw [holdsNothing_iff]
    by_cases cut : CutsRegion vaddr size region
    · exact unused cut
    · exact (tableInUse_clear_whole visits cut).mpr (allPresent cut table)

theorem PartPasses.congr {first second : Memory} {frame : Nat}
    (same : ∀ index < 0x400, second frame index = first frame index) :
    PartPasses second frame vaddr size region ↔ PartPasses first frame vaddr size region := by
  unfold PartPasses StopsAt
  apply forall₂_congr
  intro page _
  rw [same _ (tableIndex_lt page)]

theorem AllPresent.congr {first second : Memory} {frame : Nat}
    (same : ∀ index < 0x400, second frame index = first frame index) :
    AllPresent second frame ↔ AllPresent first frame := by
  unfold AllPresent
  apply forall₂_congr
  intro index inside
  rw [same index inside]

/-- The condition depends on the regions of the list only. -/
theorem NoneSwapped.congr {first second : Memory} {regions : List Nat}
    (same : ∀ region ∈ regions, SameRegion first second root (dirIndex region)) :
    NoneSwapped second root vaddr size regions ↔
      NoneSwapped first root vaddr size regions := by
  induction regions with
  | nil => exact Iff.rfl
  | cons region rest ih =>
      have here := same region (by simp)
      have there := ih fun other member => same other (by simp [member])
      unfold NoneSwapped RegionPasses
      rw [there, here.directory]
      cases table : (first root (dirIndex region)).isTable with
      | false => simp
      | true =>
          rw [PartPasses.congr (here.table table), AllPresent.congr (here.table table)]

/-- A loop gives back only tables that hold nothing exactly when each iteration that it
reaches does. -/
theorem discardsEmpty_cons {regions : List Nat} {state : State A}
    {body : Nat → PagingM Unit} :
    DiscardsEmpty (Program.forEach (region :: regions) body) state ↔
      DiscardsEmpty (body region) state ∧ ∀ after, run handler (body region) state =
        (.ok (), after) → DiscardsEmpty (Program.forEach regions body) after := by
  unfold DiscardsEmpty
  simp only [Program.performs_forEach_cons]
  constructor
  · intro discards
    refine ⟨fun level sublevel moment performs => discards _ _ _ (.inl performs), ?_⟩
    intro after returned level sublevel moment performs
    exact discards _ _ _ (.inr ⟨after, returned, performs⟩)
  · rintro ⟨first, later⟩ level sublevel moment (performs | ⟨after, returned, performs⟩)
    · exact first _ _ _ performs
    · exact later after returned _ _ _ performs

theorem discardsEmpty_unmapRegions (regions : List Nat) (state : State A)
    (wf : WellFormed state.memory root)
    (visits : ∀ region ∈ regions, Visits vaddr size region)
    (distinct : regions.Pairwise fun left right => dirIndex left ≠ dirIndex right) :
    DiscardsEmpty (Program.forEach regions
        (unmapRegion (unmapFree 1) (directory root) vaddr size)) state ↔
      NoneSwapped state.memory root vaddr size regions := by
  induction regions generalizing state with
  | nil => exact iff_of_true (fun _ _ _ performs => absurd performs id) trivial
  | cons region rest ih =>
      obtain ⟨different, distinct⟩ := List.pairwise_cons.mp distinct
      have restVisits := fun other member => visits other (List.mem_cons_of_mem region member)
      rw [discardsEmpty_cons, discardsEmpty_unmapRegion wf (visits region (by simp)),
        run_unmapRegion state wf (visits region (by simp)), NoneSwapped]
      apply and_congr_right
      intro _
      -- The rest of the loop runs if the iteration succeeds, on regions it has not changed.
      have rest_iff : ∀ after : State A,
          after.memory = (regionEffect state.memory root vaddr size region).memory →
          (DiscardsEmpty (Program.forEach rest
            (unmapRegion (unmapFree 1) (directory root) vaddr size)) after ↔
              NoneSwapped state.memory root vaddr size rest) := by
        intro after memoryEq
        have wfAfter : WellFormed after.memory root := by
          rw [memoryEq]
          exact regionEffect_wellFormed wf vaddr size region
        rw [ih after wfAfter restVisits distinct, memoryEq]
        exact NoneSwapped.congr fun other member => regionEffect_other wf vaddr size region
          (dirIndex_lt other) (Ne.symm (different other member))
      constructor
      · intro later passes
        obtain ⟨after, applied, memoryEq⟩ := Effect.apply_ok _ state.allocator
          (regionEffect_ok_iff.mpr passes)
        exact (rest_iff after memoryEq).mp (later after applied)
      · intro later after applied
        have succeeded : (regionEffect state.memory root vaddr size region).outcome =
            .ok () := by
          rw [← Effect.apply_outcome _ state.allocator, applied]
        have memoryEq : after.memory =
            (regionEffect state.memory root vaddr size region).memory := by
          rw [← Effect.apply_memory _ state.allocator, applied]
        exact (rest_iff after memoryEq).mpr (later (regionEffect_ok_iff.mp succeeded))

/-- `unmap_free` gives a table back only once nothing in it is mapped, except that it does
not look for swapped pages in the tables of the regions inside of its range. -/
theorem unmapFree_discards_empty_iff (state : State A) (wf : WellFormed state.memory root) :
    DiscardsEmpty ((AddressSpace.fromPaddr root).unmapFree vaddr size) state ↔
      (vaddr + size + 0x400000 < 0x100000000 →
        NoneSwapped state.memory root vaddr size (regionsOf vaddr size)) := by
  by_cases bounded : vaddr + size + 0x400000 < 0x100000000
  · rw [unmapFree_eq bounded, discardsEmpty_unmapRegions _ state wf
      (fun region => visits_of_mem bounded) (regionsOf_dirIndex bounded)]
    simp [bounded]
  · rw [unmapFree_overflow (Nat.not_lt.mp bounded)]
    exact iff_of_true (fun _ _ _ performs => absurd performs id)
      fun inside => absurd inside bounded

end Discards

/-- A table with two present pages is given back when both have been cleared. -/
theorem unmapFree_discards_empty_two_pages :
    DiscardsEmpty ((AddressSpace.fromPaddr 0x1000).unmapFree 0 0x400000)
      (oneTable [0, 1]) := by
  have regions : regionsOf 0 0x400000 = [0] := by decide
  refine (unmapFree_discards_empty_iff (oneTable [0, 1]) (oneTable_wellFormed _)).mpr ?_
  rw [regions]
  refine fun _ => ⟨fun _ _ => ?_, fun _ => trivial⟩
  have framed : ((oneTable [0, 1]).memory 0x1000 (dirIndex 0)).frame = 0x2000 := by decide
  rw [framed]
  unfold AllPresent
  decide +kernel

/-- A directory at `0x1000` whose first entry is a table at `0x2000`, in which one entry
holds an address but is not present. -/
def swappedSpace : State (Scripted 0x1000) where
  memory := ((emptySpace []).memory.link 0x1000 0 0x2000).write 0x2000 0
    (leafEntry 0x5000 .empty)
  allocator := ⟨[], []⟩

theorem swappedSpace_wellFormed : WellFormed swappedSpace.memory 0x1000 := by
  have fresh : FreshFrame (emptySpace []).memory 0x1000 0x2000 := by
    refine ⟨by decide, by decide, ?_⟩
    rintro (equal | ⟨i, -, table, -⟩)
    · cases equal
    · simp [emptySpace, PTEntry.isTable] at table
  have empty := emptySpace_wellFormed [] (show 0x1000 % 0x1000 = 0 by decide)
  have linked := empty.link fresh 0
  exact linked.write_table (show 0x2000 ≠ 0x1000 by decide) 0 _

/-- Such a table can come from `map_page`, and unmapping its region gives it back with the
entry in it. -/
theorem unmapFree_discards_swapped_page :
    (run handler ((AddressSpace.fromPaddr 0x1000).mapPage 0 0x5000 .size4K .empty)
      (emptySpace [some 0x2000])).2.memory = swappedSpace.memory ∧
    WellFormed swappedSpace.memory 0x1000 ∧
    ¬DiscardsEmpty ((AddressSpace.fromPaddr 0x1000).unmapFree 0 0x400000) swappedSpace := by
  have regions : regionsOf 0 0x400000 = [0] := by decide
  have framed : (swappedSpace.memory 0x1000 (dirIndex 0)).frame = 0x2000 := by decide
  refine ⟨rfl, swappedSpace_wellFormed, fun discards => ?_⟩
  rw [unmapFree_eq (by decide), discardsEmpty_unmapRegions _ _ swappedSpace_wellFormed
    (fun region => visits_of_mem (by decide)) (regionsOf_dirIndex (by decide)),
    regions] at discards
  have allPresent := discards.1 (by decide) (by decide)
  rw [framed] at allPresent
  have present := allPresent 0 (by decide) (by decide)
  exact absurd present (by decide)

end SatanKernel.X86
