import SatanKernel.X86.MapAlloc
import SatanKernel.X86.UnmapFailure

/-!
# What `map_page` and `map_alloc` guarantee, and when

A caller expects `map_page` to refuse a target in which something is mapped already, and
`map_alloc` to map every byte of the region that it reports.  The theorems below say for
every call whether they do.
-/

namespace SatanKernel.X86

open Lib NestedPageTableLevel
open Lib.Program (run)

/-! ## Mapping over an existing page -/

/-- The call is refused as a mapping over an existing page and leaves the translations and
the tables as they were. -/
def RefusesOver {A : Type} (before : Memory) (root : Nat)
    (finished : Outcome MappingError Unit × State A) : Prop :=
  (∃ addr, finished.1 = .err (.mappingOver addr)) ∧
    (∀ query < 0x100000000, walk finished.2.memory root query = walk before root query) ∧
    SameTables before finished.2.memory root

section Over

variable {A : Type} [PageAllocatorTrait PageSize A] {state : State A} {root vaddr : Nat}

/-- Both page sizes are refused over a 4 MiB page. -/
theorem run_mapPage_over_large (wf : WellFormed state.memory root) {size : PageSize}
    (onPage : vaddr % size.toNat = 0) (paddr : Nat) (flags : MappingFlags)
    (large : (state.memory root (dirIndex vaddr)).isLarge = true) :
    run handler ((AddressSpace.fromPaddr root).mapPage vaddr paddr size flags) state =
      (.err (.mappingOver (state.memory root (dirIndex vaddr)).address), state) := by
  cases size with
  | size4K =>
      rw [run_mapPage_small, run_nextLevel_large state wf.root_aligned large,
        Outcome.andThen_err]
  | size4M =>
      have ps : (state.memory root (dirIndex vaddr)).flags.ps = true := by
        simp only [PTEntry.isLarge, Bool.and_eq_true] at large
        exact large.2
      rw [run_mapPage_large state paddr flags wf.root_aligned onPage, if_pos ps]

/-- Where there is a table, both page sizes overwrite an entry without looking at it. -/
theorem run_mapPage_over_table (wf : WellFormed state.memory root) {size : PageSize}
    (onPage : vaddr % size.toNat = 0) (paddr : Nat) (flags : MappingFlags)
    (table : (state.memory root (dirIndex vaddr)).isTable = true) :
    (run handler ((AddressSpace.fromPaddr root).mapPage vaddr paddr size flags) state).1 =
      .ok () := by
  cases size with
  | size4K =>
      rw [run_mapPage_small, run_nextLevel_table state wf table, Outcome.andThen_ok,
        run_mapPage_pageTable _ (PTEntry.frame_aligned _) onPage]
  | size4M =>
      rw [run_mapPage_large state paddr flags wf.root_aligned onPage,
        if_neg (by simp [PTEntry.isTable_ps table])]

/-- A call whose target holds a present page is refused exactly when that page is a 4 MiB
page. -/
theorem mapPage_refuses_over_iff (wf : WellFormed state.memory root) {size : PageSize}
    {paddr : Nat} {flags : MappingFlags} (onPage : vaddr % size.toNat = 0)
    (occupied : ∃ query, InRange vaddr size.toNat query ∧
      walk state.memory root query ≠ none) :
    RefusesOver state.memory root
        (run handler ((AddressSpace.fromPaddr root).mapPage vaddr paddr size flags) state) ↔
      (state.memory root (dirIndex vaddr)).isLarge = true := by
  obtain ⟨query, ⟨above, below⟩, translated⟩ := occupied
  have selected : dirIndex query = dirIndex vaddr := by
    unfold dirIndex
    cases size <;> simp only [PageSize.toNat] at onPage below <;> omega
  rw [walk_ne_none_iff, selected] at translated
  constructor
  · rintro ⟨⟨addr, refused⟩, -, -⟩
    rcases translated with large | ⟨table, -⟩
    · exact large
    · rw [run_mapPage_over_table wf onPage paddr flags table] at refused
      cases refused
  · intro large
    rw [run_mapPage_over_large wf onPage paddr flags large]
    exact ⟨⟨_, rfl⟩, fun _ _ => rfl, fun _ _ _ _ => rfl⟩

end Over

/-- A 4 KiB page is refused over a 4 MiB page. -/
theorem mapPage_refuses_over_large_page :
    RefusesOver largePageSpace.memory 0x1000
      (run handler ((AddressSpace.fromPaddr 0x1000).mapPage 0x5000 0x6000 .size4K .readWrite)
        largePageSpace) := by
  refine (mapPage_refuses_over_iff largePageSpace_wellFormed (by decide)
    ⟨0x5000, ⟨by decide, by decide⟩, ?_⟩).mpr (by decide)
  rw [walk_of_large (by decide)]
  simp

/-- A 4 KiB page over a 4 KiB page and a 4 MiB page over a table with a 4 KiB page in it
both replace what was mapped. -/
theorem mapPage_overwrites :
    WellFormed (oneTable [0]).memory 0x1000 ∧
    (walk (oneTable [0]).memory 0x1000 0).map Translation.paddr = some 0x4000 ∧
    ¬RefusesOver (oneTable [0]).memory 0x1000
      (run handler ((AddressSpace.fromPaddr 0x1000).mapPage 0 0x6000 .size4K .readWrite)
        (oneTable [0])) ∧
    (walk (run handler ((AddressSpace.fromPaddr 0x1000).mapPage 0 0x6000 .size4K .readWrite)
      (oneTable [0])).2.memory 0x1000 0).map Translation.paddr = some 0x6000 ∧
    ¬RefusesOver (oneTable [0]).memory 0x1000
      (run handler ((AddressSpace.fromPaddr 0x1000).mapPage 0 0x800000 .size4M .readWrite)
        (oneTable [0])) := by
  have small : (run handler ((AddressSpace.fromPaddr 0x1000).mapPage 0 0x6000 .size4K
      .readWrite) (oneTable [0])).1 = .ok () :=
    run_mapPage_over_table (oneTable_wellFormed [0]) (by decide) _ _ (by decide)
  have large : (run handler ((AddressSpace.fromPaddr 0x1000).mapPage 0 0x800000 .size4M
      .readWrite) (oneTable [0])).1 = .ok () :=
    run_mapPage_over_table (oneTable_wellFormed [0]) (by decide) _ _ (by decide)
  refine ⟨oneTable_wellFormed [0], by decide +kernel, ?_, by decide +kernel, ?_⟩
  · rintro ⟨⟨addr, refused⟩, -⟩
    rw [small] at refused
    cases refused
  · rintro ⟨⟨addr, refused⟩, -⟩
    rw [large] at refused
    cases refused

/-! ## The region that `map_alloc` reports -/

/-- The same state, with the frames that are handed out from now on recorded. -/
def tallying {A : Type} (state : State A) : State (Tally PageSize A) :=
  ⟨state.memory, .start state.allocator⟩

/-- The page goes to the frame. -/
def MapsTo (memory : Memory) (root page frame : Nat) : Prop :=
  ∀ query, query / 0x1000 * 0x1000 = page →
    (walk memory root query).map Translation.paddr = some (frame + query % 0x1000)

/-- What the caller of `map_alloc` expects of the region: each of its pages goes to a frame
of its own that was handed out during the call, and no other page changes. -/
structure MapsRegion {A : Type} (before : Memory) (root vaddr size : Nat)
    (after : State (Tally PageSize A)) : Prop where
  translates : ∀ query, InRange vaddr size query →
    ∃ frame ∈ after.allocator.handed, frame % 0x1000 = 0 ∧
      MapsTo after.memory root (query / 0x1000 * 0x1000) frame
  distinct : ∀ left right, InRange vaddr size left → InRange vaddr size right →
    ∀ frame, MapsTo after.memory root (left / 0x1000 * 0x1000) frame →
      MapsTo after.memory root (right / 0x1000 * 0x1000) frame →
        left / 0x1000 = right / 0x1000
  outside : ∀ query < 0x100000000,
    ¬InRange vaddr ((size + 0xfff) / 0x1000 * 0x1000) query →
      walk after.memory root query = walk before root query

section Region

variable {A : Type} [PageAllocatorTrait PageSize A] {root : Nat}

/-- An allocator that has handed out frames, none of which was outstanding before. -/
structure HandsOut (ledger : FrameLedger A root) (before after : Tally PageSize A) :
    Prop where
  outstanding : ledger.tally.outstanding before ⊆ ledger.tally.outstanding after
  handed : ∀ frame ∈ before.handed, frame ∈ after.handed
  fresh : ∀ frame ∈ after.handed,
    frame ∈ before.handed ∨ frame ∉ ledger.tally.outstanding before

namespace HandsOut

variable {ledger : FrameLedger A root} {first second third : Tally PageSize A}

theorem refl (allocator : Tally PageSize A) : HandsOut ledger allocator allocator :=
  ⟨subset_rfl, fun _ member => member, fun _ member => .inl member⟩

theorem trans (left : HandsOut ledger first second) (right : HandsOut ledger second third) :
    HandsOut ledger first third where
  outstanding := left.outstanding.trans right.outstanding
  handed frame member := right.handed frame (left.handed frame member)
  fresh := by
    intro frame member
    rcases right.fresh frame member with earlier | notBefore
    · exact left.fresh frame earlier
    · exact .inr fun before => notBefore (left.outstanding before)

theorem alloc {answer : Option Nat}
    (answered : PageAllocatorTrait.alloc first PageSize.size4K = (answer, second)) :
    HandsOut ledger first second := by
  have handed := Tally.alloc_handed answered
  cases answer with
  | none =>
      rw [Option.toList_none, List.append_nil] at handed
      refine ⟨?_, ?_, ?_⟩
      · rw [ledger.tally.alloc_none answered]
      · rw [handed]
        exact fun _ member => member
      · rw [handed]
        exact fun _ member => .inl member
  | some frame =>
      rw [Option.toList_some] at handed
      refine ⟨?_, ?_, ?_⟩
      · rw [ledger.tally.alloc_some answered]
        exact Set.subset_insert _ _
      · rw [handed]
        exact fun _ member => List.mem_append_left _ member
      · rw [handed]
        intro other member
        rcases List.mem_append.mp member with earlier | now
        · exact .inl earlier
        · rw [List.mem_singleton.mp now]
          exact .inr (ledger.tally.alloc_frame answered).2.2.2.2

end HandsOut

section Loop

variable {ledger : FrameLedger A root} {state after : State (Tally PageSize A)} {page : Nat}
  {flags : MappingFlags}

theorem MapsSmallPage.handsOut {paddr : Nat}
    {finished : Outcome MappingError Unit × State (Tally PageSize A)}
    (ending : MapsSmallPage state root page paddr flags finished) :
    HandsOut ledger state.allocator finished.2.allocator := by
  cases ending with
  | existingTable table => exact .refl _
  | largePage large => exact .refl _
  | noFrame absent exhausted => exact .alloc exhausted
  | refused absent allocated ps => exact .alloc allocated
  | newTable absent allocated ps => exact .alloc allocated

/-- A successful iteration sends its page to a new frame and changes no other page. -/
theorem MapsFrame.mapsTo (ready : MapReady ledger.tally state)
    (onPage : page % 0x1000 = 0) (pageBound : page < 0x100000000)
    (present : flags.present = true)
    (ending : MapsFrame state root page flags (.ok (), after)) :
    HandsOut ledger state.allocator after.allocator ∧
      (∃ frame, frame % 0x1000 = 0 ∧
        frame ∉ ledger.tally.outstanding state.allocator ∧
        frame ∈ ledger.tally.outstanding after.allocator ∧
        frame ∈ after.allocator.handed ∧ MapsTo after.memory root page frame) ∧
      ∀ query < 0x100000000, query / 0x1000 * 0x1000 ≠ page →
        walk after.memory root query = walk state.memory root query := by
  cases ending with
  | @mapped allocator frame finished answered ending =>
      obtain ⟨aligned, bounded, -, -, notOutstanding⟩ := ledger.tally.alloc_frame answered
      have ready := ready.alloc answered
      have fresh := ledger.tally.allocatesFresh ready.tables
      have later : HandsOut ledger allocator after.allocator := ending.handsOut
      have walked := fun (query : Nat) (queryBound : query < 0x100000000) =>
        ending.walk_ok ready.wf fresh pageBound onPage bounded aligned queryBound
      refine ⟨(HandsOut.alloc answered).trans later, ⟨frame, aligned, notOutstanding, ?_, ?_,
        ?_⟩, ?_⟩
      · apply later.outstanding
        rw [ledger.tally.alloc_some answered]
        exact Set.mem_insert _ _
      · apply later.handed
        rw [Tally.alloc_handed answered]
        simp
      · intro query samePage
        have offset : query - page = query % 0x1000 := by omega
        rw [walked query (by omega), if_pos (by omega), pageTranslation, if_pos present]
        simp [offset]
      · intro query queryBound otherPage
        rw [walked query queryBound, if_neg (by omega)]

theorem MapsTo.unique {memory : Memory} {left right : Nat} (onPage : page % 0x1000 = 0)
    (first : MapsTo memory root page left) (second : MapsTo memory root page right) :
    left = right := by
  have onSelf : page / 0x1000 * 0x1000 = page := by omega
  have equal := (first page onSelf).symm.trans (second page onSelf)
  rw [Option.some.injEq] at equal
  omega

/-- A successful loop sends its pages to new frames, each to its own. -/
theorem loop_mapsTo {pages : List Nat} (ready : MapReady ledger.tally state)
    (onPage : ∀ page ∈ pages, page % 0x1000 = 0 ∧ page < 0x100000000)
    (distinct : pages.Nodup) (present : flags.present = true)
    (succeeded : run handler (Program.forEach pages (mapFrame root flags)) state =
      (.ok (), after)) :
    HandsOut ledger state.allocator after.allocator ∧
      (∀ page ∈ pages, ∃ frame, frame % 0x1000 = 0 ∧ frame ∈ after.allocator.handed ∧
        frame ∉ ledger.tally.outstanding state.allocator ∧
        MapsTo after.memory root page frame) ∧
      (∀ left ∈ pages, ∀ right ∈ pages, ∀ frame, MapsTo after.memory root left frame →
        MapsTo after.memory root right frame → left = right) ∧
      ∀ query < 0x100000000, query / 0x1000 * 0x1000 ∉ pages →
        walk after.memory root query = walk state.memory root query := by
  induction pages generalizing state with
  | nil =>
      rw [Program.run_forEach_nil, Prod.mk.injEq] at succeeded
      obtain ⟨-, rfl⟩ := succeeded
      exact ⟨.refl _, by simp, by simp, fun _ _ _ => rfl⟩
  | cons first pages ih =>
      obtain ⟨notLater, distinct⟩ := List.nodup_cons.mp distinct
      obtain ⟨firstOn, firstBound⟩ := onPage first (by simp)
      have ending := mapsFrame ledger.tally flags ready.wf ready.tables firstOn
      rw [Program.run_forEach_cons] at succeeded
      generalize run handler (mapFrame root flags first) state = headRun at ending succeeded
      obtain ⟨⟨⟩ | _ | _, middle⟩ := headRun
      · rw [Outcome.andThen_ok] at succeeded
        obtain ⟨handsFirst, ⟨frame, aligned, notBefore, owned, handed, mapsFirst⟩, keepsFirst⟩ :=
          ending.mapsTo ready firstOn firstBound present
        obtain ⟨handsRest, mapsRest, restDistinct, keepsRest⟩ :=
          ih (ending.ready ready) (fun other member => onPage other (by simp [member]))
            distinct succeeded
        have firstKept : MapsTo after.memory root first frame := by
          intro query samePage
          rw [keepsRest query (by omega) (by rwa [samePage])]
          exact mapsFirst query samePage
        -- The frames of the other pages were not yet handed out after the first.
        have apart : ∀ other ∈ pages, ∀ shared, MapsTo after.memory root first shared →
            ¬MapsTo after.memory root other shared := by
          intro other member shared firstShared otherShared
          obtain ⟨otherFrame, -, -, otherNew, otherMaps⟩ := mapsRest other member
          rw [otherMaps.unique (onPage other (by simp [member])).1 otherShared,
            firstShared.unique firstOn firstKept] at otherNew
          exact otherNew owned
        refine ⟨handsFirst.trans handsRest, ?_, ?_, ?_⟩
        · intro other member
          rcases List.mem_cons.mp member with rfl | member
          · exact ⟨frame, aligned, handsRest.handed _ handed, notBefore, firstKept⟩
          · obtain ⟨otherFrame, otherAligned, otherHanded, otherNew, otherMaps⟩ :=
              mapsRest other member
            exact ⟨otherFrame, otherAligned, otherHanded,
              fun before => otherNew (handsFirst.outstanding before), otherMaps⟩
        · intro left leftMember right rightMember shared leftMaps rightMaps
          rcases List.mem_cons.mp leftMember with rfl | leftRest
          · rcases List.mem_cons.mp rightMember with rfl | rightRest
            · rfl
            · exact absurd rightMaps (apart right rightRest shared leftMaps)
          · rcases List.mem_cons.mp rightMember with rfl | rightRest
            · exact absurd leftMaps (apart left leftRest shared rightMaps)
            · exact restDistinct left leftRest right rightRest shared leftMaps rightMaps
        · intro query queryBound outside
          rw [List.mem_cons, not_or] at outside
          rw [keepsRest query queryBound outside.2, keepsFirst query queryBound outside.1]
      · cases succeeded
      · cases succeeded

end Loop

theorem rangePages_nodup (vaddr size : Nat) : (rangePages vaddr size).Nodup := by
  refine List.nodup_range.map ?_
  intro left right equal
  dsimp only at equal
  omega

/-- A successful call maps the region that it reports if its size is a multiple of the page
size; the last page of another size is not mapped by the call, so that the region can only
be mapped if that page already was, to a frame that the allocator did not know of. -/
theorem mapAlloc_maps_region_iff (ledger : FrameLedger A root) {state : State A}
    {after : State (Tally PageSize A)} {vaddr size start : Nat} {flags : MappingFlags}
    (wf : WellFormed state.memory root)
    (tables : TablesOutstanding state.memory root (ledger.outstanding state.allocator))
    (aligned : vaddr % 0x1000 = 0) (bounded : vaddr + size ≤ 0x100000000)
    (present : flags.present = true)
    (returned : run handler ((AddressSpace.fromPaddr root).mapAlloc vaddr size flags)
      (tallying state) = (.ok start, after)) :
    (size % 0x1000 = 0 → MapsRegion state.memory root start size after) ∧
      ((∀ translation, walk state.memory root (vaddr + size) = some translation →
          translation.paddr / 0x1000 * 0x1000 ∈ ledger.outstanding state.allocator) →
        MapsRegion state.memory root start size after → size % 0x1000 = 0) := by
  have ready : MapReady ledger.tally (tallying state) := ⟨wf, tables⟩
  have onPage : ∀ page ∈ rangePages vaddr size, page % 0x1000 = 0 ∧ page < 0x100000000 := by
    intro page member
    obtain ⟨k, inside, rfl⟩ := mem_rangePages.mp member
    omega
  rw [run_mapAlloc flags (tallying state) bounded] at returned
  rcases finished : run handler (Program.forEach (rangePages vaddr size)
      (mapFrame root flags)) (tallying state) with ⟨⟨⟩ | error | _, final⟩
  · rw [finished, Outcome.andThen_ok] at returned
    cases returned
    obtain ⟨handsOut, maps, distinct, keeps⟩ := loop_mapsTo ready onPage
      (rangePages_nodup vaddr size) present finished
    constructor
    · intro wholePages
      have inPages : ∀ query, InRange vaddr size query →
          query / 0x1000 * 0x1000 ∈ rangePages vaddr size := by
        rintro query ⟨above, below⟩
        refine mem_rangePages.mpr ⟨query / 0x1000 - vaddr / 0x1000, ?_, ?_⟩ <;> omega
      constructor
      · intro query inRange
        obtain ⟨frame, frameAligned, handed, -, mapsTo⟩ := maps _ (inPages query inRange)
        exact ⟨frame, handed, frameAligned, mapsTo⟩
      · intro left right leftIn rightIn frame leftMaps rightMaps
        have same := distinct _ (inPages left leftIn) _ (inPages right rightIn) frame leftMaps
          rightMaps
        omega
      · intro query queryBound outside
        refine keeps query queryBound fun member => outside ?_
        obtain ⟨k, inside, equal⟩ := mem_rangePages.mp member
        unfold InRange
        omega
    · intro owned mapsRegion
      by_contra partly
      have inRange : InRange vaddr size (vaddr + size / 0x1000 * 0x1000) := by
        unfold InRange
        omega
      obtain ⟨frame, handed, frameAligned, mapsTo⟩ := mapsRegion.translates _ inRange
      have translated := mapsTo (vaddr + size) (by omega)
      rw [keeps (vaddr + size) (by omega) ?_] at translated
      · obtain ⟨translation, walked, paddrEq⟩ := Option.map_eq_some_iff.mp translated
        have frameOwned := owned translation walked
        have frameEq : translation.paddr / 0x1000 * 0x1000 = frame := by omega
        rw [frameEq] at frameOwned
        rcases handsOut.fresh frame handed with earlier | notBefore
        · cases earlier
        · exact notBefore frameOwned
      · intro member
        obtain ⟨k, inside, equal⟩ := mem_rangePages.mp member
        omega
  · rw [finished, Outcome.andThen_err] at returned
    cases returned
  · rw [finished, Outcome.andThen_panic] at returned
    cases returned

end Region

/-- Two whole pages are mapped to frames of their own. -/
theorem mapAlloc_maps_region_two_pages :
    ∃ after, run handler ((AddressSpace.fromPaddr 0x1000).mapAlloc 0x5000 0x2000 .readWrite)
        (tallying (emptySpace [some 0x2000, some 0x3000, some 0x4000])) =
          (.ok 0x5000, after) ∧
      MapsRegion (emptySpace [some 0x2000, some 0x3000, some 0x4000]).memory 0x1000 0x5000
        0x2000 after := by
  have returned : (run handler ((AddressSpace.fromPaddr 0x1000).mapAlloc 0x5000 0x2000
      .readWrite) (tallying (emptySpace [some 0x2000, some 0x3000, some 0x4000]))).1 =
        .ok 0x5000 := by decide +kernel
  have finished : run handler ((AddressSpace.fromPaddr 0x1000).mapAlloc 0x5000 0x2000
      .readWrite) (tallying (emptySpace [some 0x2000, some 0x3000, some 0x4000])) =
        (.ok 0x5000, _) := Prod.ext returned rfl
  exact ⟨_, finished, (mapAlloc_maps_region_iff (scriptedLedger 0x1000)
    (emptySpace_wellFormed _ (by decide)) (emptySpace_tables _ _) (by decide) (by decide) rfl
    finished).1 (by decide)⟩

/-- A region of one byte is reported as mapped, but it does not translate. -/
theorem mapAlloc_loses_last_page :
    ∃ after, run handler ((AddressSpace.fromPaddr 0x1000).mapAlloc 0x5000 1 .readWrite)
        (tallying (emptySpace [some 0x2000, some 0x3000])) = (.ok 0x5000, after) ∧
      walk after.memory 0x1000 0x5000 = none ∧
      ¬MapsRegion (emptySpace [some 0x2000, some 0x3000]).memory 0x1000 0x5000 1 after := by
  have returned : (run handler ((AddressSpace.fromPaddr 0x1000).mapAlloc 0x5000 1
      .readWrite) (tallying (emptySpace [some 0x2000, some 0x3000]))).1 = .ok 0x5000 := by
    decide +kernel
  have unmapped : walk (run handler ((AddressSpace.fromPaddr 0x1000).mapAlloc 0x5000 1
      .readWrite) (tallying (emptySpace [some 0x2000, some 0x3000]))).2.memory 0x1000 0x5000 =
        none := by
    decide +kernel
  refine ⟨_, Prod.ext returned rfl, unmapped, fun mapsRegion => ?_⟩
  obtain ⟨frame, -, -, mapsTo⟩ := mapsRegion.translates 0x5000 ⟨by decide, by decide⟩
  exact absurd ((mapsTo 0x5000 (by decide)).symm.trans (congrArg (Option.map _) unmapped))
    (by simp)

end SatanKernel.X86
