import SatanKernel.X86.Runs

/-!
# One page in a region without a table

Mapping the first page of a region links a new table and gives the page a frame.
`OnePageTable` says what the tables are then; it survives everything that happens in other
frames.  Unmapping the page gives both frames back, the page's first.
-/

namespace SatanKernel.X86

open Lib NestedPageTableLevel
open Lib.Program (run)

/-- The table of the page's region is in `table` and has one entry, for the page. -/
structure OnePageTable (memory : Memory) (root vaddr table frame : Nat)
    (flags : MappingFlags) : Prop where
  wf : WellFormed memory root
  directory : memory root (dirIndex vaddr) = .newPageTable table
  page : memory table (tableIndex vaddr) = leafEntry frame flags
  others : ∀ index < 0x400, index ≠ tableIndex vaddr → memory table index = .NULL
  table_aligned : table % 0x1000 = 0
  table_bounded : table < 0x100000000
  frame_aligned : frame % 0x1000 = 0
  frame_bounded : frame < 0x100000000

/-- Memory in which the page and its table have just been mapped. -/
def mappedPage (memory : Memory) (root vaddr table frame : Nat) (flags : MappingFlags) :
    Memory :=
  (memory.link root (dirIndex vaddr) table).write table (tableIndex vaddr)
    (leafEntry frame flags)

theorem eq_singleton_of_unique {items : List Nat} {item : Nat} (distinct : items.Nodup)
    (unique : ∀ other, other ∈ items ↔ other = item) : items = [item] := by
  apply List.perm_singleton.mp
  apply (List.perm_ext_iff_of_nodup distinct (List.nodup_singleton item)).mpr
  simp [unique]

section Map

variable {memory : Memory} {root vaddr table frame : Nat} {flags : MappingFlags}

theorem onePageTable_mappedPage (wf : WellFormed memory root)
    (fresh : FreshFrame memory root table) (aligned : frame % 0x1000 = 0)
    (bounded : frame < 0x100000000) :
    OnePageTable (mappedPage memory root vaddr table frame flags) root vaddr table frame
      flags where
  wf := (wf.link fresh _).write_table fresh.ne_root _ _
  directory := by
    rw [mappedPage, Memory.write_of_frame_ne _ _ _ (Ne.symm fresh.ne_root), link_directory_self]
  page := Memory.write_self _ _ _ _
  others := by
    intro index inside different
    rw [mappedPage, Memory.write_of_index_ne _ _ _ _ different, link_frame_self fresh _ inside]
  table_aligned := fresh.aligned
  table_bounded := fresh.bounded
  frame_aligned := aligned
  frame_bounded := bounded

variable {A : Type} [PageAllocatorTrait PageSize A] {state : State A} {middle after : A}

/-- `map_alloc` of one page takes a frame for the page and one for its table. -/
theorem run_mapAlloc_page (wf : WellFormed state.memory root)
    (absent : (state.memory root (dirIndex vaddr)).flags.p = false)
    (small : (state.memory root (dirIndex vaddr)).flags.ps = false)
    (onPage : vaddr % 0x1000 = 0) (bounded : vaddr + 0x1000 ≤ 0x100000000)
    (first : PageAllocatorTrait.alloc state.allocator PageSize.size4K = (some frame, middle))
    (second : PageAllocatorTrait.alloc middle PageSize.size4K = (some table, after))
    (fresh : FreshFrame state.memory root table) :
    run handler ((AddressSpace.fromPaddr root).mapAlloc vaddr 0x1000 flags) state =
      (.ok vaddr, ⟨mappedPage state.memory root vaddr table frame flags, after⟩) := by
  have onlyFresh : AllocatesFresh { state with allocator := middle } root := by
    intro other allocator answered
    rw [second, Prod.mk.injEq, Option.some.injEq] at answered
    rw [← answered.1]
    exact fresh
  have ending := mapsSmallPage { state with allocator := middle } frame flags wf onPage onlyFresh
  have mapped : run handler ((AddressSpace.fromPaddr root).mapPage vaddr frame .size4K flags)
      { state with allocator := middle } =
        (.ok (), ⟨mappedPage state.memory root vaddr table frame flags, after⟩) := by
    generalize run handler ((AddressSpace.fromPaddr root).mapPage vaddr frame .size4K flags)
      { state with allocator := middle } = finished at ending
    cases ending with
    | existingTable isTable =>
        rw [PTEntry.not_present_not_isTable absent] at isTable
        cases isTable
    | largePage large =>
        rw [PTEntry.isLarge, absent] at large
        cases large
    | noFrame _ exhausted =>
        rw [second] at exhausted
        cases exhausted
    | refused _ _ ps =>
        rw [small] at ps
        cases ps
    | newTable _ allocated _ =>
        rw [second] at allocated
        cases allocated
        rfl
  have pages : rangePages vaddr 0x1000 = [vaddr] := by simp [rangePages]
  rw [run_mapAlloc flags state bounded, pages, Program.run_forEach_cons,
    run_mapFrame_some first, mapped, Outcome.andThen_ok, Program.run_forEach_nil,
    Outcome.andThen_ok]

/-- Without a second frame nothing is mapped. -/
theorem run_mapAlloc_page_noTable (wf : WellFormed state.memory root)
    (absent : (state.memory root (dirIndex vaddr)).flags.p = false)
    (onPage : vaddr % 0x1000 = 0) (bounded : vaddr + 0x1000 ≤ 0x100000000)
    (first : PageAllocatorTrait.alloc state.allocator PageSize.size4K = (some frame, middle))
    (second : PageAllocatorTrait.alloc middle PageSize.size4K = (none, after)) :
    run handler ((AddressSpace.fromPaddr root).mapAlloc vaddr 0x1000 flags) state =
      (.err .pageAllocationFailed, { state with allocator := after }) := by
  have onlyFresh : AllocatesFresh { state with allocator := middle } root := by
    intro other allocator answered
    rw [second] at answered
    cases answered
  have ending := mapsSmallPage { state with allocator := middle } frame flags wf onPage onlyFresh
  have refused : run handler ((AddressSpace.fromPaddr root).mapPage vaddr frame .size4K flags)
      { state with allocator := middle } =
        (.err .pageAllocationFailed, { state with allocator := after }) := by
    generalize run handler ((AddressSpace.fromPaddr root).mapPage vaddr frame .size4K flags)
      { state with allocator := middle } = finished at ending
    cases ending with
    | existingTable isTable =>
        rw [PTEntry.not_present_not_isTable absent] at isTable
        cases isTable
    | largePage large =>
        rw [PTEntry.isLarge, absent] at large
        cases large
    | noFrame _ exhausted =>
        rw [second] at exhausted
        cases exhausted
        rfl
    | refused _ allocated _ =>
        rw [second] at allocated
        cases allocated
    | newTable _ allocated _ =>
        rw [second] at allocated
        cases allocated
  have pages : rangePages vaddr 0x1000 = [vaddr] := by simp [rangePages]
  rw [run_mapAlloc flags state bounded, pages, Program.run_forEach_cons,
    run_mapFrame_some first, refused, Outcome.andThen_err, Outcome.andThen_err]

/-- Without a first frame `map_alloc` panics. -/
theorem run_mapAlloc_page_noFrame (bounded : vaddr + 0x1000 ≤ 0x100000000)
    (first : PageAllocatorTrait.alloc state.allocator PageSize.size4K = (none, after)) :
    run handler ((AddressSpace.fromPaddr root).mapAlloc vaddr 0x1000 flags) state =
      (.panic, { state with allocator := after }) := by
  have pages : rangePages vaddr 0x1000 = [vaddr] := by simp [rangePages]
  rw [run_mapAlloc flags state bounded, pages, Program.run_forEach_cons,
    run_mapFrame_none first, Outcome.andThen_panic, Outcome.andThen_panic]

end Map

namespace OnePageTable

variable {memory after : Memory} {root vaddr table frame : Nat} {flags : MappingFlags}

theorem isTable (one : OnePageTable memory root vaddr table frame flags) :
    (memory root (dirIndex vaddr)).isTable = true := by
  rw [one.directory]
  exact newPageTable_isTable one.table_aligned

theorem frame_eq (one : OnePageTable memory root vaddr table frame flags) :
    (memory root (dirIndex vaddr)).frame = table := by
  rw [one.directory]
  exact newPageTable_frame one.table_aligned one.table_bounded

theorem leaf_flags (one : OnePageTable memory root vaddr table frame flags) :
    (memory table (tableIndex vaddr)).flags = .ofMapping flags := by
  rw [one.page]
  exact PTEntry.newPage_4K_flags one.frame_aligned _

/-- Changes in other frames do not matter. -/
theorem congr (one : OnePageTable memory root vaddr table frame flags)
    (sameRoot : after root = memory root) (sameTable : after table = memory table) :
    OnePageTable after root vaddr table frame flags where
  wf := one.wf.of_directory_eq fun i _ => by rw [sameRoot]
  directory := by rw [sameRoot, one.directory]
  page := by rw [sameTable, one.page]
  others := by
    rw [sameTable]
    exact one.others
  table_aligned := one.table_aligned
  table_bounded := one.table_bounded
  frame_aligned := one.frame_aligned
  frame_bounded := one.frame_bounded

/-- The page leads to its frame, for the kernel only. -/
theorem walk_eq (one : OnePageTable memory root vaddr table frame flags)
    (present : flags.present = true) {query : Nat}
    (samePage : query / 0x1000 = vaddr / 0x1000) :
    walk memory root query =
      some ⟨frame + query % 0x1000, .ofMapping flags, false, flags.write⟩ := by
  have sameDirectory : dirIndex query = dirIndex vaddr := by
    unfold dirIndex
    omega
  have sameIndex : tableIndex query = tableIndex vaddr := by
    unfold tableIndex
    rw [samePage]
  have leafFrame : (leafEntry frame flags).frame = frame :=
    PTEntry.newPage_4K_frame one.frame_bounded one.frame_aligned _
  have isTable := one.isTable
  rw [← sameDirectory] at isTable
  rw [walk_of_table isTable]
  dsimp only
  rw [sameDirectory, sameIndex, one.frame_eq, one.leaf_flags, one.page, leafFrame,
    one.directory, PTEntry.newPageTable_flags one.table_aligned]
  simp [PTEFlags.ofMapping, present]

/-! ## Unmapping the page -/

/-- The region of a page. -/
def regionOf (vaddr : Nat) : Nat := vaddr / 0x400000 * 0x400000

theorem regionsOf_page (onPage : vaddr % 0x1000 = 0) :
    regionsOf vaddr 0x1000 = [regionOf vaddr] := by
  apply eq_singleton_of_unique
  · exact (stepBy_pairwise_lt _ _ (by decide)).imp fun less => Nat.ne_of_lt less
  · intro region
    rw [mem_regionsOf, regionOf]
    omega

theorem visits_page (bounded : vaddr + 0x1000 + 0x400000 < 0x100000000) :
    Visits vaddr 0x1000 (regionOf vaddr) := by
  unfold regionOf
  constructor <;> omega

theorem dirIndex_regionOf (vaddr : Nat) : dirIndex (regionOf vaddr) = dirIndex vaddr := by
  unfold dirIndex regionOf
  omega

theorem mem_partPages_page (onPage : vaddr % 0x1000 = 0) :
    vaddr ∈ partPages vaddr 0x1000 (regionOf vaddr) := by
  rw [mem_partPages]
  unfold partStart partEnd regionOf
  split_ifs <;> omega

/-- Of the pages of the region only the one that is mapped is freed. -/
theorem leafFrames_page (one : OnePageTable memory root vaddr table frame flags)
    (present : flags.present = true) (notGlobal : flags.global = false)
    (onPage : vaddr % 0x1000 = 0) (bounded : vaddr + 0x1000 + 0x400000 < 0x100000000) :
    leafFrames memory table (partPages vaddr 0x1000 (regionOf vaddr)) =
      [(frame, .size4K)] := by
  have visits := visits_page bounded
  have address : (leafEntry frame flags).address = frame := by
    rw [PTEntry.address_eq_frame
      (plainLeaf_leafEntry notGlobal one.frame_aligned one.frame_bounded)]
    exact PTEntry.newPage_4K_frame one.frame_bounded one.frame_aligned _
  have onlyPage : ((partPages vaddr 0x1000 (regionOf vaddr)).filter fun page =>
      (memory table (tableIndex page)).flags.p) = [vaddr] := by
    apply eq_singleton_of_unique
    · exact ((pagesOf_pairwise_lt _ _).imp fun less => Nat.ne_of_lt less).filter _
    · intro page
      rw [List.mem_filter]
      constructor
      · rintro ⟨member, mapped⟩
        by_contra different
        have inRegion := partPages_region visits member
        have otherIndex : tableIndex page ≠ tableIndex vaddr := by
          unfold tableIndex
          unfold regionOf at inRegion
          omega
        rw [one.others _ (tableIndex_lt page) otherIndex, PTEntry.flags_NULL] at mapped
        cases mapped
      · rintro rfl
        refine ⟨mem_partPages_page onPage, ?_⟩
        rw [one.leaf_flags]
        exact present
  rw [leafFrames, onlyPage, List.map_singleton, one.page, address]

/-- Without the page its table is not in use. -/
theorem not_inUse (one : OnePageTable memory root vaddr table frame flags)
    (present : flags.present = true) (onPage : vaddr % 0x1000 = 0) :
    tableInUse (memory.clearPages table (partPages vaddr 0x1000 (regionOf vaddr))) table =
      false := by
  have unmapped : PTEntry.NULL.isMapped = false := by decide
  rw [Bool.eq_false_iff]
  intro inUse
  obtain ⟨index, inside, mapped⟩ := tableInUse_iff.mp inUse
  rw [clearPages_self] at mapped
  split at mapped
  next cleared =>
    rw [unmapped] at mapped
    cases mapped
  next kept =>
    by_cases same : index = tableIndex vaddr
    · subst same
      apply kept
      rw [one.leaf_flags]
      exact ⟨present, vaddr, mem_partPages_page onPage, rfl⟩
    · rw [one.others index inside same, unmapped] at mapped
      cases mapped

/-- Unmapping the page unlinks its table and frees both frames. -/
theorem unmapEffect_page (one : OnePageTable memory root vaddr table frame flags)
    (present : flags.present = true) (notGlobal : flags.global = false)
    (onPage : vaddr % 0x1000 = 0) (bounded : vaddr + 0x1000 + 0x400000 < 0x100000000) :
    (unmapEffect memory root vaddr 0x1000).outcome = .ok () ∧
      (unmapEffect memory root vaddr 0x1000).freed = [(frame, .size4K), (table, .size4K)] ∧
      (unmapEffect memory root vaddr 0x1000).memory root (dirIndex vaddr) = unlinkedEntry := by
  have freed := one.leafFrames_page present notGlobal onPage bounded
  have ending := regionEnding memory root vaddr 0x1000 (regionOf vaddr)
  rw [unmapEffect, regionsOf_page onPage]
  simp only [regionsEffect]
  generalize regionEffect memory root vaddr 0x1000 (regionOf vaddr) = effect at ending ⊢
  have isTable := one.isTable
  rw [← dirIndex_regionOf vaddr] at isTable
  have frameEq := one.frame_eq
  rw [← dirIndex_regionOf vaddr] at frameEq
  cases ending with
  | idle absent =>
      rw [PTEntry.isTable_present isTable] at absent
      cases absent
  | cutLarge large =>
      rw [PTEntry.isLarge_not_isTable large] at isTable
      cases isTable
  | wholeLarge large =>
      rw [PTEntry.isLarge_not_isTable large] at isTable
      cases isTable
  | stopped _ _ split _ stops =>
      have member := split ▸ List.mem_append_right _ List.mem_cons_self
      exact absurd stops.1
        (not_cutsPage_part (visits_page bounded) onPage (by decide) member)
  | kept _ framedEq _ _ inUse =>
      rw [framedEq, frameEq, one.not_inUse present onPage] at inUse
      cases inUse
  | unlinked _ framedEq _ _ =>
      subst framedEq
      rw [frameEq, freed, ← dirIndex_regionOf vaddr]
      simp only [List.append_nil, List.singleton_append]
      exact ⟨trivial, trivial, Memory.write_self _ _ _ _⟩

end OnePageTable

end SatanKernel.X86
