import SatanKernel.X86.ConcurrentMap
import SatanKernel.X86.ConcurrentUnmap
import SatanKernel.X86.MapAlloc

/-!
# Two page-table calls are serialisable

What two calls that ran at the same time have done to the translations, compared with
what they do one after the other.  A `map_page` call comes first in the serial order:
after an `unmap_free` call has reclaimed a table, its region can no longer be mapped.
-/

namespace SatanKernel.X86

open Lib NestedPageTableLevel
open Lib.Program (run)

/-! ## Calls that run alone -/

namespace PageCall

/-- Page-aligned arguments inside the address space, and `PRESENT` for a page that is
mapped. -/
def Valid : PageCall → Prop
  | .mapPage vaddr paddr flags =>
      (vaddr < 0x100000000 ∧ vaddr % 0x1000 = 0) ∧
        (paddr < 0x100000000 ∧ paddr % 0x1000 = 0) ∧ flags.present = true
  | .unmapFree vaddr size => vaddr % 0x1000 = 0 ∧ size % 0x1000 = 0

/-- The pages that the call is about. -/
def range : PageCall → Set Nat
  | .mapPage vaddr _ _ => {query | query / 0x1000 = vaddr / 0x1000}
  | .unmapFree vaddr size => {query | vaddr ≤ query ∧ query < vaddr + size}

/-- No directory entry makes the call fail. -/
def Unhindered (root : Nat) (memory : Memory) : PageCall → Prop
  | .mapPage vaddr _ _ => (memory root (dirIndex vaddr)).flags.ps = false
  | .unmapFree vaddr size => vaddr + size + 0x400000 < 0x100000000 ∧
      ∀ region ∈ regionsOf vaddr size, (memory root (dirIndex region)).isLarge = false

/-- What an address translates to once the call has returned `Ok`. -/
def translation (root : Nat) (memory : Memory) (query : Nat) :
    PageCall → Option Translation
  | .mapPage vaddr paddr flags =>
      if query / 0x1000 = vaddr / 0x1000 then
        pageTranslation (memory root (dirIndex vaddr)) vaddr paddr .size4K flags query
      else walk memory root query
  | .unmapFree vaddr size =>
      if vaddr ≤ query ∧ query < unmapEnd vaddr size then none else walk memory root query

end PageCall

/-- A directory entry as a call that returns `Ok` leaves it: a `map_page` call makes a
table of it that grants as much, an `unmap_free` call unlinks it. -/
def EntryAfter (call : PageCall) (before after : PTEntry) : Prop :=
  after = before ∨
    match call with
    | .mapPage _ _ _ => after.isTable = true ∧ tableFlags after = tableFlags before
    | .unmapFree _ _ => after = unlinkedEntry

section Serial

variable {A : Type} [PageAllocatorTrait PageSize A] {root : Nat}
  {ledger : FrameLedger A root} {state : State A}

theorem supplies_of_succ {allocator : A} {n : Nat} (supplies : Supplies allocator (n + 1)) :
    Supplies allocator n := by
  induction n generalizing allocator with
  | zero => trivial
  | succ n ih =>
      obtain ⟨frame, after, allocated, rest⟩ := supplies
      exact ⟨frame, after, allocated, ih rest⟩

/-- A successful `map_page` keeps what directory entries grant. -/
theorem MapsSmallPage.entryAfter {after : State A} {vaddr paddr : Nat} {flags : MappingFlags}
    (wf : WellFormed state.memory root) (fresh : AllocatesFresh state root)
    (mapped : MapsSmallPage state root vaddr paddr flags (.ok (), after)) (i : Nat) :
    EntryAfter (.mapPage vaddr paddr flags) (state.memory root i) (after.memory root i) := by
  have inside := dirIndex_lt vaddr
  by_cases same : i = dirIndex vaddr
  · subst same
    cases mapped with
    | existingTable table =>
        have notRoot := wf.table_ne_root _ inside table
        exact Or.inl (Memory.write_of_frame_ne _ _ _ (Ne.symm notRoot) _)
    | @newTable absent allocator frame allocated ps =>
        have freshFrame := fresh frame allocator allocated
        have linked : (state.memory.link root (dirIndex vaddr) frame).write frame
            (tableIndex vaddr) (leafEntry paddr flags) root (dirIndex vaddr) =
              .newPageTable frame := by
          rw [Memory.write_of_frame_ne _ _ _ (Ne.symm freshFrame.ne_root),
            link_directory_self]
        apply Or.inr
        have table := newPageTable_isTable freshFrame.aligned
        simp only [linked]
        refine ⟨table, ?_⟩
        rw [tableFlags, tableFlags, if_pos table, PTEntry.newPageTable_flags freshFrame.aligned,
          PTEntry.not_present_not_isTable absent]
        rfl
  · exact Or.inl ((mapped.directory_ok wf fresh).2 i same)

/-- `map_page` alone, with a frame for a table. -/
theorem run_mapPage_alone {vaddr paddr n : Nat} {flags : MappingFlags}
    (ready : MapReady ledger state) (valid : (PageCall.mapPage vaddr paddr flags).Valid)
    (unhindered : (PageCall.mapPage vaddr paddr flags).Unhindered root state.memory)
    (supplies : Supplies state.allocator (n + 1)) :
    ∃ after : State A,
      run handler ((PageCall.mapPage vaddr paddr flags).program root) state =
        (.ok (), after) ∧ MapReady ledger after ∧ Supplies after.allocator n ∧
      (∀ i, EntryAfter (.mapPage vaddr paddr flags) (state.memory root i)
        (after.memory root i)) ∧
      ∀ query < 0x100000000, walk after.memory root query =
        (PageCall.mapPage vaddr paddr flags).translation root state.memory query := by
  have fresh := ledger.allocatesFresh ready.tables
  have ending := mapsSmallPage state paddr flags ready.wf valid.1.2 fresh
  have succeeds : ∃ after : State A, run handler
      ((AddressSpace.fromPaddr root).mapPage vaddr paddr .size4K flags) state =
        (.ok (), after) ∧ Supplies after.allocator n := by
    generalize run handler ((AddressSpace.fromPaddr root).mapPage vaddr paddr .size4K flags)
      state = finished at ending
    cases ending with
    | existingTable table => exact ⟨_, rfl, supplies_of_succ supplies⟩
    | largePage large =>
        simp only [PTEntry.isLarge, Bool.and_eq_true] at large
        exact absurd (large.2.symm.trans unhindered) (by decide)
    | noFrame absent exhausted => exact absurd supplies (supplies_succ_of_none exhausted)
    | refused absent allocated ps => exact absurd (ps.symm.trans unhindered) (by decide)
    | newTable absent allocated ps =>
        exact ⟨_, rfl, (supplies_succ_of_some allocated).mp supplies⟩
  obtain ⟨after, returned, rest⟩ := succeeds
  rw [returned] at ending
  refine ⟨after, returned, ending.ready ready, rest, ending.entryAfter ready.wf fresh, ?_⟩
  intro query bounded
  exact ending.walk_ok ready.wf fresh valid.1.1 valid.1.2 valid.2.1.1 valid.2.1.2 bounded

/-- An iteration that succeeds leaves its directory entry or unlinks it. -/
theorem regionEffect_entryAfter {memory : Memory} {vaddr size region : Nat}
    (wf : WellFormed memory root)
    (succeeded : (regionEffect memory root vaddr size region).outcome = .ok ()) :
    EntryAfter (.unmapFree vaddr size) (memory root (dirIndex region))
      ((regionEffect memory root vaddr size region).memory root (dirIndex region)) := by
  have inside := dirIndex_lt region
  have ending := regionEnding memory root vaddr size region
  generalize regionEffect memory root vaddr size region = effect at ending succeeded ⊢
  cases ending with
  | idle absent => exact Or.inl rfl
  | cutLarge large cut => cases succeeded
  | wholeLarge large whole => cases succeeded
  | stopped table frameEq split passes stops => cases succeeded
  | kept table frameEq complete cut inUse =>
      subst frameEq
      exact Or.inl (clearPages_of_frame_ne _ _
        (Ne.symm (wf.table_ne_root _ inside table)) _ _)
  | unlinked table frameEq complete unused =>
      exact Or.inr (Memory.write_self _ _ _ _)

/-- `unmap_free` alone. -/
theorem run_unmapFree_alone {vaddr size : Nat} (wf : WellFormed state.memory root)
    (valid : (PageCall.unmapFree vaddr size).Valid)
    (unhindered : (PageCall.unmapFree vaddr size).Unhindered root state.memory) :
    ∃ after : State A,
      run handler ((PageCall.unmapFree vaddr size).program root) state = (.ok (), after) ∧
      WellFormed after.memory root ∧
      (∀ i < 0x400, EntryAfter (.unmapFree vaddr size) (state.memory root i)
        (after.memory root i)) ∧
      ∀ query < 0x100000000, walk after.memory root query =
        (PageCall.unmapFree vaddr size).translation root state.memory query := by
  obtain ⟨bounded, small⟩ := unhindered
  have regions := regionEffect_ok_of_wholePages bounded valid.1 valid.2 small
  have succeeded := (unmapEffect_ok_iff wf bounded).mpr regions
  have done := unmapEffect_ok_done wf bounded succeeded
  obtain ⟨after, returned, memoryEq⟩ :=
    (unmapEffect state.memory root vaddr size).apply_ok state.allocator succeeded
  rw [← run_unmapFree state wf bounded] at returned
  refine ⟨after, returned, ?_, ?_, ?_⟩
  · rw [memoryEq]
    exact done.wellFormed
  · rw [memoryEq]
    intro i inside
    by_cases visited : ∃ region ∈ regionsOf vaddr size, dirIndex region = i
    · obtain ⟨region, member, selected⟩ := visited
      subst selected
      rw [(done.touched region member).directory]
      exact regionEffect_entryAfter wf (regions region member)
    · apply Or.inl
      apply (done.untouched i inside _).directory
      intro region member same
      exact visited ⟨region, member, same⟩
  · rw [memoryEq]
    intro query queryBound
    exact walk_unmapEffect_ok wf bounded succeeded queryBound

end Serial

/-! ## One call after the other -/

namespace PageCall

variable {root : Nat} {call other : PageCall} {before after : Memory} {query : Nat}

/-- The call has done its work. -/
def Done (root : Nat) (initial after : Memory) : PageCall → Prop
  | .mapPage vaddr paddr flags =>
      PageMapped root (initial root (dirIndex vaddr)) vaddr paddr flags after
  | .unmapFree vaddr size => vaddr + size + 0x400000 < 0x100000000 ∧
      Clear root (unmapped (.unmapFree vaddr size)) after

theorem translation_of_not_touched (outside : query ∉ call.touched) :
    call.translation root before query = walk before root query := by
  cases call with
  | mapPage vaddr paddr flags => exact if_neg fun samePage => outside (Or.inl samePage)
  | unmapFree vaddr size => exact if_neg fun inside => outside (Or.inr inside)

/-- The work of a call shows at the addresses that it touches. -/
theorem walk_of_done (done : call.Done root before after) (bounded : query < 0x100000000)
    (inside : query ∈ call.touched) :
    walk after root query = call.translation root before query := by
  cases call with
  | mapPage vaddr paddr flags =>
      cases inside with
      | inl samePage => exact (done query bounded samePage).trans (if_pos samePage).symm
      | inr none => cases none
  | unmapFree vaddr size =>
      cases inside with
      | inl none => cases none
      | inr unmapped => exact (done.2 query bounded unmapped).trans (if_pos unmapped).symm

/-- Where a call that can come second finds the directory as the first one leaves it, it
does the same work. -/
theorem translation_congr (mapsFirst : call.page ≠ none → other.page ≠ none)
    (entries : ∀ i < 0x400, EntryAfter other (before root i) (after root i))
    (inside : query ∈ call.touched) :
    call.translation root after query = call.translation root before query := by
  cases call with
  | mapPage vaddr paddr flags =>
      have same : tableFlags (after root (dirIndex vaddr)) =
          tableFlags (before root (dirIndex vaddr)) := by
        cases entries _ (dirIndex_lt vaddr) with
        | inl unchanged => rw [unchanged]
        | inr changed =>
            cases other with
            | mapPage otherVaddr otherPaddr otherFlags => exact changed.2
            | unmapFree start size => exact absurd rfl (mapsFirst (Option.some_ne_none vaddr))
      cases inside with
      | inl samePage =>
          have selected : query / 0x1000 = vaddr / 0x1000 := samePage
          simp only [translation, selected, if_true, pageTranslation, same]
      | inr none => cases none
  | unmapFree vaddr size =>
      cases inside with
      | inl none => cases none
      | inr unmapped => exact (if_pos unmapped).trans (if_pos unmapped).symm

theorem Unhindered.entryAfter (mapsFirst : call.page ≠ none → other.page ≠ none)
    (unhindered : call.Unhindered root before)
    (entries : ∀ i < 0x400, EntryAfter other (before root i) (after root i)) :
    call.Unhindered root after := by
  cases call with
  | mapPage vaddr paddr flags =>
      change (after root (dirIndex vaddr)).flags.ps = false
      cases entries _ (dirIndex_lt vaddr) with
      | inl unchanged => exact unchanged ▸ unhindered
      | inr changed =>
          cases other with
          | mapPage otherVaddr otherPaddr otherFlags => exact PTEntry.isTable_ps changed.1
          | unmapFree start size => exact absurd rfl (mapsFirst (Option.some_ne_none vaddr))
  | unmapFree vaddr size =>
      refine ⟨unhindered.1, ?_⟩
      intro region member
      cases entries _ (dirIndex_lt region) with
      | inl unchanged => exact unchanged ▸ unhindered.2 region member
      | inr changed =>
          cases other with
          | mapPage otherVaddr otherPaddr otherFlags =>
              simp [PTEntry.isLarge, PTEntry.isTable_ps changed.1]
          | unmapFree start length =>
              have unlinked : after root (dirIndex region) = unlinkedEntry := changed
              rw [unlinked]
              decide

end PageCall

/-- One call after the other. -/
def serial (root : Nat) (first second : PageCall) : PagingM Unit := do
  first.program root
  second.program root

/-- Run in this order, the calls return `Ok` and leave the translations of `final`,
whichever frames an allocator gives them. -/
def SerialisesTo (root : Nat) (first second : PageCall) (initial final : Memory) : Prop :=
  ∀ (B : Type) [PageAllocatorTrait PageSize B] (ledger : FrameLedger B root) (allocator : B),
    TablesOutstanding initial root (ledger.outstanding allocator) → Supplies allocator 2 →
      ∃ after, run handler (serial root first second) ⟨initial, allocator⟩ = (.ok (), after) ∧
        ∀ query < 0x100000000, walk after.memory root query = walk final root query

/-- A memory in which both calls have done their work is that of the serial run, if a
`map_page` call comes first. -/
theorem serialisesTo_of_done {root : Nat} {first second : PageCall} {initial final : Memory}
    (wf : WellFormed initial root) (firstValid : first.Valid) (secondValid : second.Valid)
    (mapsFirst : second.page ≠ none → first.page ≠ none)
    (firstUnhindered : first.Unhindered root initial)
    (secondUnhindered : second.Unhindered root initial)
    (firstDone : first.Done root initial final) (secondDone : second.Done root initial final)
    (outside : ∀ query < 0x100000000, query ∉ first.touched → query ∉ second.touched →
      walk final root query = walk initial root query) :
    SerialisesTo root first second initial final := by
  intro B _ ledger allocator tables supplies
  have ready : MapReady ledger ⟨initial, allocator⟩ := ⟨wf, tables⟩
  -- The first call, with what the second one relies on.
  have firstRun : ∃ middle : State B,
      run handler (first.program root) ⟨initial, allocator⟩ = (.ok (), middle) ∧
      WellFormed middle.memory root ∧
      (first.page ≠ none → MapReady ledger middle ∧ Supplies middle.allocator 1) ∧
      (∀ i < 0x400, EntryAfter first (initial root i) (middle.memory root i)) ∧
      ∀ query < 0x100000000,
        walk middle.memory root query = first.translation root initial query := by
    cases first with
    | mapPage vaddr paddr flags =>
        obtain ⟨middle, returned, ready, supplies, entries, walks⟩ :=
          run_mapPage_alone ready firstValid firstUnhindered supplies
        exact ⟨middle, returned, ready.wf, fun _ => ⟨ready, supplies⟩, fun i _ => entries i,
          walks⟩
    | unmapFree vaddr size =>
        obtain ⟨middle, returned, wf, entries, walks⟩ :=
          run_unmapFree_alone (show WellFormed (State.mk initial allocator).memory root from wf)
            firstValid firstUnhindered
        exact ⟨middle, returned, wf, fun maps => absurd rfl maps, entries, walks⟩
  obtain ⟨middle, firstReturned, middleWf, middleReady, entries, firstWalks⟩ := firstRun
  have unhindered := secondUnhindered.entryAfter mapsFirst entries
  have secondRun : ∃ after : State B,
      run handler (second.program root) middle = (.ok (), after) ∧
      ∀ query < 0x100000000,
        walk after.memory root query = second.translation root middle.memory query := by
    cases second with
    | mapPage vaddr paddr flags =>
        obtain ⟨ready, supplies⟩ := middleReady (mapsFirst (Option.some_ne_none vaddr))
        obtain ⟨after, returned, -, -, -, walks⟩ :=
          run_mapPage_alone ready secondValid unhindered supplies
        exact ⟨after, returned, walks⟩
    | unmapFree vaddr size =>
        obtain ⟨after, returned, -, -, walks⟩ :=
          run_unmapFree_alone middleWf secondValid unhindered
        exact ⟨after, returned, walks⟩
  obtain ⟨after, secondReturned, secondWalks⟩ := secondRun
  refine ⟨after, ?_, ?_⟩
  · rw [serial, Program.run_bind, firstReturned, Outcome.andThen_ok, secondReturned]
  · intro query bounded
    rw [secondWalks query bounded]
    by_cases inSecond : query ∈ second.touched
    · rw [PageCall.translation_congr mapsFirst entries inSecond,
        PageCall.walk_of_done secondDone bounded inSecond]
    · rw [PageCall.translation_of_not_touched inSecond, firstWalks query bounded]
      by_cases inFirst : query ∈ first.touched
      · rw [PageCall.walk_of_done firstDone bounded inFirst]
      · rw [PageCall.translation_of_not_touched inFirst,
          outside query bounded inFirst inSecond]

/-! ## Calls that run at the same time -/

/-- The calls are about different pages, and no page that one of them maps lies between
the end of the other one's range and the end of the 4 MiB region that this range starts
inside of. -/
structure Apart (calls : Bool → PageCall) : Prop where
  ranges : Disjoint (calls false).range (calls true).range
  overshoot : ∀ who, Disjoint (calls who).unmapped (calls !who).mapped

theorem Apart.mapped_touched {calls : Bool → PageCall} (apart : Apart calls) (who : Bool) :
    Disjoint (calls who).mapped (calls !who).touched := by
  have mappedSubset : ∀ call : PageCall, call.mapped ⊆ call.range := by
    intro call
    cases call with
    | mapPage vaddr paddr flags => exact fun _ inside => inside
    | unmapFree vaddr size => exact Set.empty_subset _
  have ranges : Disjoint (calls who).range (calls !who).range := by
    cases who with
    | false => exact apart.ranges
    | true => exact apart.ranges.symm
  have unmapped := apart.overshoot !who
  rw [Bool.not_not] at unmapped
  rw [PageCall.touched, Set.disjoint_union_right]
  exact ⟨ranges.mono (mappedSubset _) (mappedSubset _), unmapped.symm⟩

section Interleaved

variable {A : Type} [PageAllocatorTrait PageSize A] {root : Nat} {calls : Bool → PageCall}

/-- The calls before their first step. -/
def started (root : Nat) (calls : Bool → PageCall) (state : State A) :
    Threads (pageTableSig PageTableLevel PageSize) MappingError Unit Bool (State A) :=
  ⟨fun who => (calls who).program root, state⟩

/-- What a call has done is not undone by the other one. -/
theorem done_stable {initial : Memory} (apart : Apart calls) (who : Bool)
    (before after : Memory) (done : (calls who).Done root initial before)
    (change : Tolerated root (calls who) (calls !who) none before after) :
    (calls who).Done root initial after := by
  have mappedApart := apart.mapped_touched who
  have unmappedApart := apart.overshoot who
  generalize calls who = own at done change mappedApart unmappedApart ⊢
  cases own with
  | mapPage vaddr paddr flags =>
      intro query bounded samePage
      rw [change.outside query bounded (Set.disjoint_left.mp mappedApart samePage)]
      exact done query bounded samePage
  | unmapFree vaddr size => exact ⟨done.1, done.2.tolerated unmappedApart change⟩

theorem started_sound (valid : ∀ who, (calls who).Valid) (apart : Apart calls)
    {state : State A} (wf : WellFormed state.memory root) :
    Protocol.AllSound (callProtocol A root calls)
      (fun who _ after => (calls who).Done root state.memory after.memory)
      (started root calls state) := by
  intro who
  have valid := valid who
  cases call : calls who with
  | mapPage vaddr paddr flags =>
      rw [call] at valid
      refine (sound_mapPage call valid.1.1 valid.1.2 valid.2.1.1 valid.2.1.2 wf
        (Or.inl rfl)).mono ?_
      intro _ after mapped
      change (calls who).Done root state.memory after.memory
      rw [call]
      exact mapped
  | unmapFree vaddr size =>
      rw [call] at valid
      refine (sound_unmapFree call valid.1 valid.2 (apart.overshoot who) wf).mono ?_
      intro _ after unmapped
      change (calls who).Done root state.memory after.memory
      rw [call] at unmapped ⊢
      exact unmapped

/-- What no step of the two calls changes. -/
structure Unaffected (root : Nat) (calls : Bool → PageCall) (before after : Memory) :
    Prop where
  walks : ∀ query < 0x100000000, (∀ who, query ∉ (calls who).touched) →
    walk after root query = walk before root query
  ps : ∀ i < 0x400, (before root i).flags.ps = true → after root i = before root i

theorem Unaffected.refl (memory : Memory) : Unaffected root calls memory memory :=
  ⟨fun _ _ _ => rfl, fun _ _ _ => rfl⟩

theorem Unaffected.trans {first second third : Memory}
    (left : Unaffected root calls first second) (right : Unaffected root calls second third) :
    Unaffected root calls first third := by
  constructor
  · intro query bounded outside
    exact (right.walks query bounded outside).trans (left.walks query bounded outside)
  · intro i inside ps
    have same := left.ps i inside ps
    rw [← same] at ps ⊢
    exact right.ps i inside ps

theorem Tolerated.unaffected {who : Bool} {pending : Option PagingOp} {before after : Memory}
    (change : Tolerated root (calls who) (calls !who) pending before after) :
    Unaffected root calls before after :=
  ⟨fun query bounded outside => change.outside query bounded (outside _), change.ps⟩

/-- A call that has done its work met no directory entry that makes it fail. -/
theorem unhindered_of_done {initial final : Memory} {call : PageCall} (valid : call.Valid)
    (unaffected : Unaffected root calls initial final)
    (done : call.Done root initial final) : call.Unhindered root initial := by
  cases call with
  | mapPage vaddr paddr flags =>
      obtain ⟨⟨vaddrBound, _⟩, _, present⟩ := valid
      change (initial root (dirIndex vaddr)).flags.ps = false
      by_contra notClear
      have ps : (initial root (dirIndex vaddr)).flags.ps = true := by simpa using notClear
      have translated := done vaddr vaddrBound rfl
      rw [walk, unaffected.ps _ (dirIndex_lt vaddr) ps, walkEntries, if_pos ps,
        pageTranslation, if_pos present] at translated
      split at translated
      next =>
        have leaf := congrArg (fun found => found.map fun entry => entry.leaf.ps) translated
        simp [ps, leafFlags, PTEFlags.ofMapping] at leaf
      next => cases translated
  | unmapFree vaddr size =>
      obtain ⟨bounded, clear⟩ := done
      refine ⟨bounded, ?_⟩
      intro region member
      have visits := visits_of_mem bounded member
      have start := partStart_bounds visits
      have stop := partEnd_bounds visits
      have regionBound := visits.region_bound
      have selected := dirIndex_of_region visits.onRegion start.1 start.2
      by_contra notSmall
      have large : (initial root (dirIndex region)).isLarge = true := by
        simpa using notSmall
      have ps := large
      simp only [PTEntry.isLarge, Bool.and_eq_true] at ps
      have same := unaffected.ps _ (dirIndex_lt region) ps.2
      have inside := (part_iff visits start.1 start.2).mp ⟨Nat.le_refl _, stop.1⟩
      have unmapped := clear (partStart vaddr region) (by omega) inside
      have stillLarge : (final root (dirIndex (partStart vaddr region))).isLarge = true := by
        rw [selected, same, large]
      rw [walk_of_large stillLarge] at unmapped
      cases unmapped

/-- The call that comes first in the serial order. -/
def firstCall (calls : Bool → PageCall) : Bool := (calls false).page.isNone

theorem firstCall_maps (calls : Bool → PageCall) :
    (calls !firstCall calls).page ≠ none → (calls (firstCall calls)).page ≠ none := by
  rw [firstCall]
  cases page : (calls false).page with
  | none => exact fun _ => by simp_all
  | some vaddr => simp [page]

/-- Two calls whose steps keep out of each other's way are serialisable, and what they map
is mapped. -/
theorem interleaved_serialisable {state : State A} {schedule : List Bool}
    (valid : ∀ who, (calls who).Valid) (apart : Apart calls)
    (wf : WellFormed state.memory root)
    (admits : (callProtocol A root calls).Admits schedule (started root calls state))
    (returned : ∀ who,
      (((started root calls state).run handler schedule).programs who).ended =
        some (.ok ())) :
    let final := ((started root calls state).run handler schedule).state.memory
    (∃ first, SerialisesTo root (calls first) (calls !first) state.memory final) ∧
      ∀ who, (calls who).Done root state.memory final := by
  intro final
  have sound := started_sound valid apart wf
  have stable : ∀ who (value : Unit) (before after : State A),
      (calls who).Done root state.memory before.memory →
        (callProtocol A root calls).rely who none before after →
          (calls who).Done root state.memory after.memory :=
    fun who _ before after done change =>
      done_stable apart who before.memory after.memory done change
  have done : ∀ who, (calls who).Done root state.memory final := by
    intro who
    have ended := Protocol.run_sound stable sound admits who
    have finished : ((started root calls state).run (callProtocol A root calls).handler
      schedule).programs who = .ret () := Program.ended_eq_ok.mp (returned who)
    rw [finished, Protocol.sound_ret] at ended
    exact ended
  have covers : ∀ who pending (before after : State A),
      (callProtocol A root calls).rely who pending before after →
        Unaffected root calls before.memory after.memory := by
    intro who pending before after change
    exact Tolerated.unaffected (show Tolerated root (calls who) (calls !who) pending
      before.memory after.memory from change)
  have unaffected : Unaffected root calls state.memory final :=
    Protocol.run_related (fun before after => Unaffected root calls before.memory after.memory)
      stable (fun _ => .refl _) Unaffected.trans covers sound admits
  have unhindered : ∀ who, (calls who).Unhindered root state.memory :=
    fun who => unhindered_of_done (valid who) unaffected (done who)
  refine ⟨⟨firstCall calls, ?_⟩, done⟩
  apply serialisesTo_of_done wf (valid _) (valid _) (firstCall_maps calls) (unhindered _)
    (unhindered _) (done _) (done _)
  intro query bounded notFirst notSecond
  apply unaffected.walks query bounded
  intro who
  cases Bool.eq_or_eq_not who (firstCall calls) with
  | inl same => exact same ▸ notFirst
  | inr other => exact other ▸ notSecond

end Interleaved

/-- `map_page` calls for the first two pages. -/
def twoMaps (who : Bool) : PageCall :=
  if who then .mapPage 0x1000 0x6000 .readWrite else .mapPage 0 0x5000 .readWrite

theorem twoMaps_valid : ∀ who, (twoMaps who).Valid := by
  intro who
  cases who with
  | false => exact ⟨⟨by decide, by decide⟩, ⟨by decide, by decide⟩, rfl⟩
  | true => exact ⟨⟨by decide, by decide⟩, ⟨by decide, by decide⟩, rfl⟩

theorem twoMaps_apart : Apart twoMaps := by
  constructor
  · rw [Set.disjoint_left]
    intro query inFirst inSecond
    have first : query / 0x1000 = 0 / 0x1000 := inFirst
    have second : query / 0x1000 = 0x1000 / 0x1000 := inSecond
    omega
  · intro who
    cases who with
    | false => exact Set.empty_disjoint _
    | true => exact Set.empty_disjoint _

/-- Two pages of a table that is there, mapped step by step in turn. -/
theorem interleaved_serialisable_one_table :
    ∃ first, SerialisesTo 0x1000 (twoMaps first) (twoMaps !first) (oneTable []).memory
      ((started 0x1000 twoMaps (oneTable [])).run handler
        [false, true, false, true]).state.memory := by
  have notRoot : ∀ pending state who vaddr entry,
      (callProtocol (Scripted 0x1000) 0x1000 twoMaps).allowed pending state who
        (.setEntry (pageTable 0x2000) vaddr entry) := by
    intro pending state who vaddr entry isRoot
    exact absurd isRoot (by decide)
  have reads : ∀ pending state who level vaddr,
      (callProtocol (Scripted 0x1000) 0x1000 twoMaps).allowed pending state who
        (.getEntry level vaddr) := fun _ _ _ _ _ => trivial
  have admits : (callProtocol (Scripted 0x1000) 0x1000 twoMaps).Admits
      [false, true, false, true] (started 0x1000 twoMaps (oneTable [])) := by
    refine ⟨?_, ?_, ?_, ?_, trivial⟩
    · intro op pending
      cases pending
      exact reads _ _ _ _ _
    · intro op pending
      cases pending
      exact reads _ _ _ _ _
    · intro op pending
      cases pending
      exact notRoot _ _ _ _ _
    · intro op pending
      cases pending
      exact notRoot _ _ _ _ _
  exact (interleaved_serialisable twoMaps_valid twoMaps_apart (oneTable_wellFormed []) admits
    (by decide +kernel)).1

/-- Two pages of a region without a table: both calls read the free directory entry,
allocate a table and link it, and the table that is linked first is lost with its page. -/
theorem interleaved_maps_lose_page :
    let start := started 0x1000 twoMaps (emptySpace [some 0x2000, some 0x3000])
    let finished := start.run handler [false, true, false, true, false, true, false, true]
    (∀ who, (finished.programs who).ended = some (.ok ())) ∧
      ¬∃ first, SerialisesTo 0x1000 (twoMaps first) (twoMaps !first) start.state.memory
        finished.state.memory := by
  intro start finished
  refine ⟨by decide +kernel, ?_⟩
  intro serialisable
  have lost : walk finished.state.memory 0x1000 0 = none := by decide +kernel
  have mapped : ∀ first, (walk (run handler
      (serial 0x1000 (twoMaps first) (twoMaps !first))
      (emptySpace [some 0x2000, some 0x3000])).2.memory 0x1000 0).isSome = true := by
    decide +kernel
  obtain ⟨first, serialises⟩ := serialisable
  have mapped := mapped first
  obtain ⟨after, returned, walks⟩ := serialises (Scripted 0x1000) (scriptedLedger 0x1000)
    ⟨[some 0x2000, some 0x3000], []⟩ (emptySpace_tables [some 0x2000, some 0x3000] _)
    ⟨0x2000, _, rfl, 0x3000, _, rfl, trivial⟩
  have same := walks 0 (by decide)
  have final : run handler (serial 0x1000 (twoMaps first) (twoMaps !first))
      (emptySpace [some 0x2000, some 0x3000]) = (.ok (), after) := returned
  rw [final, same, lost] at mapped
  cases mapped

end SatanKernel.X86
