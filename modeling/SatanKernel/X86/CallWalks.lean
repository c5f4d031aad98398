import SatanKernel.X86.Footprint

/-!
# What a call does to the translations

`map_alloc` maps the pages of its range from the first one on and stops at the first page
that it cannot map; `unmap_free` unmaps its range from the start and stops at the first
page that it cannot unmap.  Whatever a call returns, it has worked on an initial part of
its range, and no other translation has changed.
-/

namespace SatanKernel.X86

open Lib NestedPageTableLevel
open Lib.Program (run)

/-! ## Unmapping -/

section Unmapping

variable {memory : Memory} {root vaddr size region query : Nat}

/-- The pages before the one that stops an iteration. -/
theorem mem_before_iff {before rest : List Nat} {page stop : Nat}
    (split : partPages vaddr size region = before ++ stop :: rest) :
    page ∈ before ↔ page ∈ partPages vaddr size region ∧ page < stop := by
  have sorted : (partPages vaddr size region).Pairwise (· < ·) := pagesOf_pairwise_lt _ _
  rw [split] at sorted ⊢
  obtain ⟨-, after, less⟩ := List.pairwise_append.mp sorted
  constructor
  · intro member
    exact ⟨by simp [member], less page member stop (by simp)⟩
  · rintro ⟨member, below⟩
    rcases List.mem_append.mp member with first | later
    · exact first
    · rcases List.mem_cons.mp later with rfl | later
      · omega
      · have above := (List.pairwise_cons.mp after).1 page later
        omega

/-- The pages before the one that stops an iteration are unmapped. -/
theorem walk_clear_before (wf : WellFormed memory root) (visits : Visits vaddr size region)
    (table : (memory root (dirIndex region)).isTable = true)
    {before rest : List Nat} {stop : Nat}
    (split : partPages vaddr size region = before ++ stop :: rest)
    (passes : ∀ page ∈ before, ¬StopsAt memory (memory root (dirIndex region)).frame
      (partStart vaddr region) (partEnd vaddr size region) page)
    (lower : region ≤ query) (upper : query < region + 0x400000) :
    walk (memory.clearPages (memory root (dirIndex region)).frame before) root query =
      if partStart vaddr region ≤ query ∧ query < stop then none
      else walk memory root query := by
  have selected := dirIndex_of_region visits.onRegion lower upper
  have stopMember : stop ∈ partPages vaddr size region := by simp [split]
  obtain ⟨stopOnPage, -, stopBelow⟩ := mem_partPages.mp stopMember
  have stopRegion := partPages_region visits stopMember
  have onRegion := visits.onRegion
  have reached : (∃ page ∈ before, tableIndex page = tableIndex query) ↔
      query / 0x1000 * 0x1000 ∈ before := by
    simp only [mem_before_iff split]
    rw [← exists_partPages_iff visits lower upper]
    constructor
    · rintro ⟨page, ⟨member, below⟩, sameIndex⟩
      have inside := partPages_region visits member
      refine ⟨⟨page, member, sameIndex⟩, ?_⟩
      unfold tableIndex at sameIndex
      omega
    · rintro ⟨⟨page, member, sameIndex⟩, below⟩
      have inside := partPages_region visits member
      refine ⟨page, ⟨member, ?_⟩, sameIndex⟩
      unfold tableIndex at sameIndex
      omega
  rw [← selected] at table passes ⊢
  rw [walk_clearPages wf table]
  simp only [reached]
  by_cases inside : partStart vaddr region ≤ query ∧ query < stop
  · have member : query / 0x1000 * 0x1000 ∈ before := by
      rw [mem_before_iff split]
      exact ⟨mem_partPages_of_part inside.1 (by omega), by omega⟩
    rw [if_pos member, if_pos inside]
  · rw [if_neg inside]
    split
    next member =>
      -- Only a page that is cut lies before `stop` without `query` doing so.
      have below := (mem_before_iff split).mp member
      have absent : ¬(memory (memory root (dirIndex query)).frame
          (tableIndex query)).flags.p = true := by
        intro present
        refine passes _ member ⟨.inl (by omega), ?_⟩
        rw [tableIndex_page]
        exact present
      rw [walk_of_table table]
      simp [absent]
    next => rfl

/-- An iteration that fails has unmapped its part up to some page. -/
theorem walk_regionEffect_err (wf : WellFormed memory root)
    (visits : Visits vaddr size region)
    (small : (memory root (dirIndex region)).isLarge = false)
    (failed : (regionEffect memory root vaddr size region).outcome ≠ .ok ()) :
    ∃ stop, region ≤ stop ∧ stop < partEnd vaddr size region ∧
      ∀ query, region ≤ query → query < region + 0x400000 →
        walk (regionEffect memory root vaddr size region).memory root query =
          if partStart vaddr region ≤ query ∧ query < stop then none
          else walk memory root query := by
  have ending := regionEnding memory root vaddr size region
  generalize regionEffect memory root vaddr size region = effect at ending failed ⊢
  cases ending with
  | idle absent => exact absurd rfl failed
  | cutLarge large cut =>
      rw [small] at large
      cases large
  | wholeLarge large whole =>
      rw [small] at large
      cases large
  | @stopped frame table framed before rest page split passes stops =>
      subst framed
      have member : page ∈ partPages vaddr size region := by simp [split]
      obtain ⟨-, -, below⟩ := mem_partPages.mp member
      exact ⟨page, (partPages_region visits member).2.1, below,
        fun query => walk_clear_before wf visits table split passes⟩
  | kept table framed complete cut inUse => exact absurd rfl failed
  | unlinked table framed complete unused => exact absurd rfl failed

/-- The translations of regions that were not visited have not changed. -/
theorem walk_unvisited {visited : List Nat} {done : Effect}
    (regionsDone : RegionsDone memory root vaddr size visited done)
    (visits : ∀ region ∈ visited, Visits vaddr size region) (queryBound : query < 0x100000000)
    (unvisited : query / 0x400000 * 0x400000 ∉ visited) :
    walk done.memory root query = walk memory root query := by
  refine (regionsDone.untouched (dirIndex query) (dirIndex_lt query) ?_).walk_eq rfl
  intro region member sameIndex
  have regionBound := (visits region member).region_bound
  have onRegion := (visits region member).onRegion
  have regionEq : query / 0x400000 * 0x400000 = region := by
    unfold dirIndex at sameIndex
    omega
  exact unvisited (regionEq ▸ member)

/-- Whatever `unmap_free` returns, it has unmapped its range up to some address. -/
theorem walk_unmapEffect (wf : WellFormed memory root)
    (small : ∀ i < 0x400, (memory root i).isLarge = false)
    (bounded : vaddr + size + 0x400000 < 0x100000000) :
    ∃ stop ≤ unmapEnd vaddr size,
      ((unmapEffect memory root vaddr size).outcome = .ok () → stop = unmapEnd vaddr size) ∧
      ∀ query < 0x100000000, walk (unmapEffect memory root vaddr size).memory root query =
        if vaddr ≤ query ∧ query < stop then none else walk memory root query := by
  rcases regionsEffect_done wf vaddr size (regionsOf vaddr size) (regionsOf_dirIndex bounded)
    with ⟨-, succeeded, -⟩ | ⟨before, region, rest, split, allOk, failed, outcome, done⟩
  · exact ⟨unmapEnd vaddr size, le_rfl, fun _ => rfl,
      fun query queryBound => walk_unmapEffect_ok wf bounded succeeded queryBound⟩
  have sorted : (before ++ region :: rest).Pairwise (· < ·) := by
    rw [← split]
    exact stepBy_pairwise_lt _ _ (by decide)
  obtain ⟨-, after, less⟩ := List.pairwise_append.mp sorted
  have visits : ∀ other ∈ before ++ [region], Visits vaddr size other := by
    intro other member
    apply visits_of_mem bounded
    rw [split]
    rcases List.mem_append.mp member with first | last
    · simp [first]
    · simp [List.mem_singleton.mp last]
  have failing := visits region (by simp)
  have onRegion := failing.onRegion
  have above := failing.above
  have below := failing.below
  obtain ⟨stop, stopLower, stopUpper, walked⟩ :=
    walk_regionEffect_err wf failing (small _ (dirIndex_lt region)) failed
  have stopBound : stop < region + 0x400000 :=
    lt_of_lt_of_le stopUpper (partEnd_bounds failing).2
  refine ⟨stop, ?_, fun succeeded => absurd (outcome ▸ succeeded) failed, ?_⟩
  · unfold partEnd at stopUpper
    unfold unmapEnd
    split_ifs at stopUpper <;> omega
  intro query queryBound
  have lower : query / 0x400000 * 0x400000 ≤ query := by omega
  have upper : query < query / 0x400000 * 0x400000 + 0x400000 := by omega
  by_cases visited : query / 0x400000 * 0x400000 ∈ before ++ [region]
  · rw [unmapEffect, (done.touched _ visited).walk_eq
      (dirIndex_of_region (visits _ visited).onRegion lower upper)]
    rcases List.mem_append.mp visited with earlier | last
    · -- An iteration that has succeeded, before the one that fails.
      rw [walk_regionEffect_ok wf (visits _ visited) (allOk _ earlier) lower upper]
      simp only [part_iff (visits _ visited) lower upper]
      have order := less _ earlier region (by simp)
      have endIff : query < unmapEnd vaddr size ↔ query < stop := by
        unfold unmapEnd
        omega
      simp only [endIff]
    · rw [List.mem_singleton.mp last] at lower upper ⊢
      rw [walked query lower upper]
      have startIff : partStart vaddr region ≤ query ↔ vaddr ≤ query := by
        unfold partStart
        split <;> omega
      simp only [startIff]
  · rw [unmapEffect, walk_unvisited done visits queryBound visited, if_neg]
    rintro ⟨start, beforeStop⟩
    -- A visit before the one that fails would not have been left out.
    have member : query / 0x400000 * 0x400000 ∈ before ++ region :: rest := by
      rw [← split, mem_regionsOf]
      omega
    simp only [List.mem_append, List.mem_cons, List.not_mem_nil, or_false] at visited member
    rcases member with first | equal | later
    · exact visited (.inl first)
    · exact visited (.inr equal)
    · have order := (List.pairwise_cons.mp after).1 _ later
      omega

end Unmapping

/-! ## Mapping -/

/-- The directory entries of the tables have the flags that `newPageTable` gives them: the
tables are writable and for the supervisor only. -/
def KernelTables (memory : Memory) (root : Nat) : Prop :=
  ∀ i entry, Refers memory root (.table i) entry →
    entry.flags = (PTEntry.newPageTable 0).flags

theorem KernelTables.confined {taken : Set Nat} {root : Nat} {before after : Memory}
    (tables : KernelTables before root) (confined : Confined taken root before after) :
    KernelTables after root := by
  intro i entry referred
  rcases confined.refers _ entry referred with old | ⟨-, flags⟩
  · exact tables i entry old
  · exact flags i rfl

/-- The translation of a page that `map_alloc` has mapped with `flags`. -/
def MappedWith (flags : MappingFlags) (result : Option Translation) : Prop :=
  if flags.present then
    ∃ translation, result = some translation ∧ translation.user = false ∧
      translation.writable = flags.write
  else result = none

theorem KernelTables.mappedWith {memory : Memory} {root vaddr paddr query : Nat}
    {flags : MappingFlags} (tables : KernelTables memory root) :
    MappedWith flags
      (pageTranslation (memory root (dirIndex vaddr)) vaddr paddr .size4K flags query) := by
  have kernel : tableFlags (memory root (dirIndex vaddr)) =
      (PTEntry.newPageTable 0).flags := by
    unfold tableFlags
    split
    next table => exact tables _ _ ⟨dirIndex_lt vaddr, rfl, table⟩
    next => decide
  have flagsEq : (PTEntry.newPageTable 0).flags =
      ⟨true, true, false, false, false, false, false⟩ := by decide
  unfold MappedWith pageTranslation
  split
  next => simp [kernel, flagsEq]
  next => rfl

section Mapping

variable {A : Type} [PageAllocatorTrait PageSize A] {root : Nat} {ledger : FrameLedger A root}

/-- Only an aligned page can be mapped. -/
theorem mapFrame_ok_aligned {page : Nat} {flags : MappingFlags} {state after : State A}
    (ready : MapReady ledger state)
    (mapped : run handler (mapFrame root flags page) state = (.ok (), after)) :
    page % 0x1000 = 0 := by
  by_contra offPage
  rcases answered : PageAllocatorTrait.alloc state.allocator PageSize.size4K with
    ⟨_ | frame, allocator⟩
  · rw [run_mapFrame_none answered] at mapped
    cases mapped
  · rw [run_mapFrame_some answered, run_mapPage_small, Outcome.andThen_eq_ok] at mapped
    obtain ⟨level, middle, found, stored⟩ := mapped
    have ready := ready.alloc answered
    have finds := findsTable ⟨state.memory, allocator⟩ page ready.wf
      (ledger.allocatesFresh ready.tables)
    rw [found] at finds
    have panics : ∀ table, run handler
        (mapPage 1 (pageTable table) page frame PageSize.size4K flags) middle =
          (.panic, middle) := by
      intro table
      simp only [mapPage, pageSize_pageTable, if_true]
      exact run_setEntry_pageTable_unaligned middle offPage _ flags
    cases finds with
    | existing table =>
        rw [panics] at stored
        cases stored
    | linked absent allocated ps =>
        rw [panics] at stored
        cases stored

/-- A page that has been mapped, and those that have not. -/
theorem walk_mapFrame_ok {page : Nat} {flags : MappingFlags} {state after : State A}
    (ready : MapReady ledger state) (tables : KernelTables state.memory root)
    (bounded : page < 0x100000000)
    (mapped : run handler (mapFrame root flags page) state = (.ok (), after)) :
    ∀ query < 0x100000000,
      (query / 0x1000 = page / 0x1000 → MappedWith flags (walk after.memory root query)) ∧
      (query / 0x1000 ≠ page / 0x1000 →
        walk after.memory root query = walk state.memory root query) := by
  have onPage := mapFrame_ok_aligned ready mapped
  have ending := mapsFrame ledger flags ready.wf ready.tables onPage
  rw [mapped] at ending
  cases ending with
  | @mapped allocator frame finished answered ending =>
      obtain ⟨aligned, frameBound, -, -, -⟩ := ledger.alloc_frame answered
      have ready := ready.alloc answered
      have fresh := ledger.allocatesFresh ready.tables
      intro query queryBound
      have walked := ending.walk_ok ready.wf fresh bounded onPage frameBound aligned queryBound
      rw [walked]
      constructor
      · intro same
        rw [if_pos same]
        exact tables.mappedWith
      · intro different
        rw [if_neg different]

/-- A page that could not be mapped has changed no translation. -/
theorem walk_mapFrame_err {page : Nat} {flags : MappingFlags} {state after : State A}
    {error : MappingError} (ready : MapReady ledger state)
    (failed : run handler (mapFrame root flags page) state = (.err error, after)) :
    ∀ query, walk after.memory root query = walk state.memory root query := by
  have ending := mapsFrame_or_panic ledger page flags ready.wf ready.tables
  rw [failed] at ending
  rcases ending with panicked | ending
  · cases panicked
  · cases ending with
    | @mapped allocator frame finished answered ending =>
        exact fun query =>
          ending.walk_err (ledger.allocatesFresh (ready.alloc answered).tables) query

/-- The loop of `map_alloc` has mapped an initial part of its pages. -/
theorem walk_mapPages {vaddr first count : Nat} {flags : MappingFlags}
    {state after : State A} {outcome : Outcome MappingError Unit}
    (ready : MapReady ledger state) (tables : KernelTables state.memory root)
    (finished : run handler (Program.forEach (List.range' first count)
      (mapAllocPage levels (directory root) vaddr flags)) state = (outcome, after))
    (returned : outcome ≠ .panic) :
    ∃ mapped ≤ count, (outcome = .ok () → mapped = count) ∧
      ∀ query < 0x100000000,
        (vaddr + first * 0x1000 ≤ query ∧ query < vaddr + (first + mapped) * 0x1000 →
          MappedWith flags (walk after.memory root query)) ∧
        (¬(vaddr + first * 0x1000 ≤ query ∧ query < vaddr + (first + mapped) * 0x1000) →
          walk after.memory root query = walk state.memory root query) := by
  induction count generalizing first state with
  | zero =>
      rw [List.range'_zero, Program.run_forEach_nil] at finished
      cases finished
      exact ⟨0, le_rfl, fun _ => rfl, fun query _ => ⟨fun inside => by omega, fun _ => rfl⟩⟩
  | succ count ih =>
      rw [List.range'_succ, Program.run_forEach_cons] at finished
      have bounded : vaddr + first * 0x1000 < 0x100000000 := by
        by_contra overflow
        rw [mapAllocPage_overflow flags overflow, Program.run_panic] at finished
        cases finished
        exact returned rfl
      rw [mapAllocPage_eq flags bounded] at finished
      rcases page : run handler (mapFrame root flags (vaddr + first * 0x1000)) state with
        ⟨_ | error | _, middle⟩
      · have onPage := mapFrame_ok_aligned ready page
        have walked := walk_mapFrame_ok ready tables bounded page
        have ending := mapsFrame ledger flags ready.wf ready.tables onPage
        have confined : Confined (ledger.outstanding state.allocator ∪ ∅) root _ _ :=
          confined_mapsFrame (fun _ _ _ _ => id) ready ending
        rw [page] at finished ending confined
        obtain ⟨mapped, upTo, all, rest⟩ :=
          ih (ending.ready ready) (tables.confined confined) finished
        refine ⟨mapped + 1, by omega, fun succeeded => by rw [all succeeded],
          fun query queryBound => ⟨?_, ?_⟩⟩
        · rintro ⟨lower, upper⟩
          by_cases here : query / 0x1000 = (vaddr + first * 0x1000) / 0x1000
          · rw [(rest query queryBound).2 (by omega)]
            exact (walked query queryBound).1 here
          · exact (rest query queryBound).1 (by omega)
        · intro outside
          have notRest : ¬(vaddr + (first + 1) * 0x1000 ≤ query ∧
              query < vaddr + (first + 1 + mapped) * 0x1000) := by
            intro inside
            omega
          rw [(rest query queryBound).2 notRest]
          apply (walked query queryBound).2
          intro here
          omega
      · rw [page] at finished
        cases finished
        refine ⟨0, by omega, nofun, fun query _ => ⟨?_, ?_⟩⟩
        · intro inside
          omega
        · exact fun _ => walk_mapFrame_err ready page query
      · rw [page] at finished
        cases finished
        exact absurd rfl returned

/-- Whatever `map_alloc` returns, it has mapped an initial part of its range. -/
theorem walk_mapAlloc {vaddr size : Nat} {flags : MappingFlags} {state : State A}
    (ready : MapReady ledger state) (tables : KernelTables state.memory root)
    (returned : (run handler ((Call.mapAlloc vaddr size flags).program root) state).1 ≠
      .panic) :
    ∃ mapped ≤ size / 0x1000,
      ((run handler ((Call.mapAlloc vaddr size flags).program root) state).1 = .ok () →
        mapped = size / 0x1000) ∧
      ∀ query < 0x100000000,
        (vaddr ≤ query ∧ query < vaddr + mapped * 0x1000 → MappedWith flags
          (walk (run handler ((Call.mapAlloc vaddr size flags).program root) state).2.memory
            root query)) ∧
        (¬(vaddr ≤ query ∧ query < vaddr + mapped * 0x1000) →
          walk (run handler ((Call.mapAlloc vaddr size flags).program root) state).2.memory
            root query = walk state.memory root query) := by
  rw [Call.program, AddressSpace.mapAlloc, AddressSpace.fromPaddr, mapAlloc,
    Program.run_bind, Program.run_bind] at returned ⊢
  rcases finished : run handler (Program.forEach
    (List.range (size / PageSizeTrait.into (PageSizeTrait.MIN : PageSize)))
    (mapAllocPage levels (directory root) vaddr flags)) state with ⟨outcome, after⟩
  have notPanic : outcome ≠ .panic := by
    rintro rfl
    rw [finished] at returned
    exact returned rfl
  rw [List.range_eq_range'] at finished
  obtain ⟨mapped, upTo, all, walked⟩ := walk_mapPages ready tables finished notPanic
  rw [Nat.zero_mul, Nat.add_zero, Nat.zero_add] at walked
  refine ⟨mapped, upTo, ?_, ?_⟩
  · cases outcome with
    | ok value => exact fun _ => all rfl
    | err error =>
      intro succeeded
      cases succeeded
    | panic =>
      intro succeeded
      cases succeeded
  · cases outcome <;> exact walked

end Mapping

end SatanKernel.X86
