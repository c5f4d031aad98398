import SatanKernel.X86.Ownership

/-!
# Runs of an address space

The life of an address space: a sequence of `map_alloc` and `unmap_free` calls on a
directory that starts out empty.  The ownership invariant holds after each call,
whatever the calls return, and what they free is theirs to free.
-/

namespace SatanKernel.X86

open Lib NestedPageTableLevel
open Lib.Program (run)

/-- A call of the address-space interface. -/
inductive Call where
  | mapAlloc (vaddr size : Nat) (flags : MappingFlags)
  | unmapFree (vaddr size : Nat)
  deriving DecidableEq, Repr

/-- The call, its result put aside. -/
def Call.program (root : Nat) : Call → PagingM Unit
  | .mapAlloc vaddr size flags => do
      let _ ← (AddressSpace.fromPaddr root).mapAlloc vaddr size flags
      pure ()
  | .unmapFree vaddr size => (AddressSpace.fromPaddr root).unmapFree vaddr size

section Runs

variable {A : Type} [PageAllocatorTrait PageSize A]

/-- A sequence of calls, none of which panics. -/
inductive Runs (root : Nat) : State A → List Call → State A → Prop where
  | nil (state : State A) : Runs root state [] state
  | call {state after : State A} {call : Call} {calls : List Call}
      (returned : (run handler (call.program root) state).1 ≠ .panic)
      (rest : Runs root (run handler (call.program root) state).2 calls after) :
      Runs root state (call :: calls) after

/-- What every call preserves holds at the end of a run. -/
theorem Runs.invariant {root : Nat} {state after : State A} {calls : List Call}
    (invariant : State A → Prop)
    (preserved : ∀ call ∈ calls, ∀ state, invariant state →
      (run handler (call.program root) state).1 ≠ .panic →
      invariant (run handler (call.program root) state).2)
    (runs : Runs root state calls after) (initial : invariant state) : invariant after := by
  induction runs with
  | nil state => exact initial
  | call returned rest ih =>
      apply ih
      · intro other member
        exact preserved other (by simp [member])
      · exact preserved _ (by simp) _ initial returned

/-! ## One call -/

/-- What every page that `map_alloc` maps preserves, the whole call does. -/
theorem mapAlloc_invariant {root vaddr size : Nat} {flags : MappingFlags}
    (invariant : State A → Prop)
    (preserved : ∀ page state, invariant state →
      (run handler (mapFrame root flags page) state).1 ≠ .panic →
      invariant (run handler (mapFrame root flags page) state).2)
    (state : State A) (initial : invariant state)
    (returned : (run handler ((Call.mapAlloc vaddr size flags).program root) state).1 ≠
      .panic) :
    invariant (run handler ((Call.mapAlloc vaddr size flags).program root) state).2 := by
  have loop := Program.forEach_invariant handler invariant
    (List.range (size / PageSizeTrait.into (PageSizeTrait.MIN : PageSize)))
    (mapAllocPage levels (directory root) vaddr flags) (by
      intro page _ state initial returned
      by_cases bounded : vaddr + page * 0x1000 < 0x100000000
      · rw [mapAllocPage_eq flags bounded] at returned ⊢
        exact preserved _ state initial returned
      · rw [mapAllocPage_overflow flags bounded] at returned
        exact absurd rfl returned) state initial
  rw [Call.program, AddressSpace.mapAlloc, AddressSpace.fromPaddr, mapAlloc,
    Program.run_bind, Program.run_bind] at returned ⊢
  rcases finished : run handler (Program.forEach
    (List.range (size / PageSizeTrait.into (PageSizeTrait.MIN : PageSize)))
    (mapAllocPage levels (directory root) vaddr flags)) state with ⟨_ | _ | _, after⟩
  · rw [finished] at loop
    exact loop (by simp)
  · rw [finished] at loop
    exact loop (by simp)
  · rw [finished] at returned
    exact absurd rfl returned

/-! ## Ownership along a run -/

/-- A directory without entries owns nothing. -/
theorem owned_empty {shape : PTEntry → Prop} {memory : Memory} {root : Nat}
    (aligned : root % 0x1000 = 0) (empty : ∀ i < 0x400, memory root i = .NULL)
    (outstanding : Set Nat) : Owned shape memory root outstanding := by
  have noTable : ∀ i < 0x400, (memory root i).isTable = false := by
    intro i inside
    rw [empty i inside]
    decide
  have nothing : ∀ place entry, ¬Refers memory root place entry := by
    rintro (i | ⟨i, index⟩) entry refers
    · obtain ⟨inside, entryEq, table⟩ := refers
      rw [← entryEq, noTable i inside] at table
      cases table
    · obtain ⟨inside, -, table, -⟩ := refers
      rw [noTable i inside] at table
      cases table
  constructor
  · constructor
    · exact aligned
    · intro i inside table
      rw [noTable i inside] at table
      cases table
    · intro i inside table
      rw [noTable i inside] at table
      cases table
    · intro i inside _ _ table
      rw [noTable i inside] at table
      cases table
  · exact fun i inside => .inr (.inl (empty i inside))
  · exact fun place entry refers => absurd refers (nothing place entry)
  · exact fun place entry _ _ refers => absurd refers (nothing place entry)
  · exact fun place entry refers => absurd refers (nothing place entry)
  · exact fun i index entry refers => absurd refers (nothing _ entry)

/-- The flags that the call maps with give entries of the given shape. -/
def Call.Shaped (shape : PTEntry → Prop) : Call → Prop
  | .mapAlloc _ _ flags => ∀ frame, frame % 0x1000 = 0 → frame < 0x100000000 →
      shape (leafEntry frame flags)
  | .unmapFree _ _ => True

section Ownership

variable {shape : PTEntry → Prop} {root : Nat}

theorem owned_mapFrame {ledger : FrameLedger A root} {flags : MappingFlags} {page : Nat}
    {state : State A}
    (shaped : ∀ frame, frame % 0x1000 = 0 → frame < 0x100000000 →
      shape (leafEntry frame flags))
    (owned : Owned shape state.memory root (ledger.outstanding state.allocator))
    (returned : (run handler (mapFrame root flags page) state).1 ≠ .panic) :
    Owned shape (run handler (mapFrame root flags page) state).2.memory root
      (ledger.outstanding (run handler (mapFrame root flags page) state).2.allocator) := by
  rcases mapsFrame_or_panic ledger page flags owned.wf owned.tables with panicked | ending
  · exact absurd panicked returned
  · exact owned.mapsFrame shaped ending

/-- Every call keeps the ownership invariant. -/
theorem owned_call {ledger : FrameLedger A root} {call : Call} {state : State A}
    (shaped : call.Shaped shape)
    (owned : Owned shape state.memory root (ledger.outstanding state.allocator))
    (returned : (run handler (call.program root) state).1 ≠ .panic) :
    Owned shape (run handler (call.program root) state).2.memory root
      (ledger.outstanding (run handler (call.program root) state).2.allocator) := by
  cases call with
  | mapAlloc vaddr size flags =>
      exact mapAlloc_invariant
        (fun state => Owned shape state.memory root (ledger.outstanding state.allocator))
        (fun _ _ owned returned => owned_mapFrame shaped owned returned) state owned returned
  | unmapFree vaddr size =>
      have bounded := bounded_of_run rfl returned
      have finished := run_unmapFree state owned.wf bounded
      rw [Call.program, finished, Effect.apply_memory, Effect.apply_allocator,
        ledger.outstanding_freeAll]
      exact owned.regionsEffect vaddr size (regionsOf vaddr size)

theorem owned_runs {ledger : FrameLedger A root} {state after : State A}
    {calls : List Call} (shaped : ∀ call ∈ calls, call.Shaped shape)
    (owned : Owned shape state.memory root (ledger.outstanding state.allocator))
    (runs : Runs root state calls after) :
    Owned shape after.memory root (ledger.outstanding after.allocator) :=
  runs.invariant
    (fun state => Owned shape state.memory root (ledger.outstanding state.allocator))
    (fun _ member _ owned returned => owned_call (shaped _ member) owned returned) owned

end Ownership

/-! ## Memory safety of frames -/

section Safety

variable {root : Nat} {ledger : FrameLedger A root}

theorem journalSound_mapsFrame {state : State (Journal PageSize A)} {page : Nat}
    {flags : MappingFlags}
    {finished : Outcome MappingError Unit × State (Journal PageSize A)}
    (sound : JournalSound ledger state.allocator)
    (ending : MapsFrame state root page flags finished) :
    JournalSound ledger finished.2.allocator := by
  cases ending with
  | exhausted answered => exact sound.alloc answered
  | mapped answered ending =>
      have sound := sound.alloc answered
      cases ending with
      | existingTable table => exact sound
      | largePage large => exact sound
      | noFrame absent exhausted => exact sound.alloc exhausted
      | refused absent allocated ps => exact sound.alloc allocated
      | newTable absent allocated ps => exact sound.alloc allocated

/-- The invariant of a run with a journal: the address space owns its frames, and all that
was freed was outstanding. -/
structure FramesSafe (ledger : FrameLedger A root) (state : State (Journal PageSize A)) :
    Prop where
  owned : Owned PlainLeaf state.memory root (ledger.journal.outstanding state.allocator)
  sound : JournalSound ledger state.allocator

theorem framesSafe_call {call : Call} {state : State (Journal PageSize A)}
    (shaped : call.Shaped PlainLeaf) (safe : FramesSafe ledger state)
    (returned : (run handler (call.program root) state).1 ≠ .panic) :
    FramesSafe ledger (run handler (call.program root) state).2 := by
  refine ⟨owned_call shaped safe.owned returned, ?_⟩
  cases call with
  | mapAlloc vaddr size flags =>
      refine (mapAlloc_invariant (FramesSafe ledger) ?_ state safe returned).sound
      intro page state safe returned
      refine ⟨owned_mapFrame shaped safe.owned returned, ?_⟩
      rcases mapsFrame_or_panic ledger.journal page flags safe.owned.wf
        safe.owned.tables with panicked | ending
      · exact absurd panicked returned
      · exact journalSound_mapsFrame safe.sound ending
  | unmapFree vaddr size =>
      have bounded := bounded_of_run rfl returned
      have finished := run_unmapFree state safe.owned.wf bounded
      rw [Call.program, finished, Effect.apply_allocator]
      exact safe.sound.freeAll (freedInTurn_regionsEffect safe.owned
        fun region => visits_of_mem bounded)

/-- The call maps without `GLOBAL`. -/
def Call.NotGlobal : Call → Prop
  | .mapAlloc _ _ flags => flags.global = false
  | .unmapFree _ _ => True

theorem Call.NotGlobal.shaped {call : Call} (notGlobal : call.NotGlobal) :
    call.Shaped PlainLeaf := by
  cases call with
  | mapAlloc vaddr size flags =>
      intro frame aligned bounded
      exact plainLeaf_leafEntry notGlobal aligned bounded
  | unmapFree vaddr size => trivial

/-- Memory safety of frames over whole runs.  From an empty directory on, everything that
is freed is outstanding at that moment; after each call every frame that the tables
refer to is outstanding, is not the directory and is referred to once. -/
theorem runs_frames_safe (ledger : FrameLedger A root) {state : State A}
    {calls : List Call} {after : State (Journal PageSize A)}
    (rootAligned : root % 0x1000 = 0) (empty : ∀ i < 0x400, state.memory root i = .NULL)
    (notGlobal : ∀ call ∈ calls, call.NotGlobal)
    (runs : Runs root ⟨state.memory, .start state.allocator⟩ calls after) :
    (∀ entry ∈ after.allocator.frees, entry.2.1 ∈ ledger.outstanding entry.1) ∧
      (∀ place entry, Refers after.memory root place entry →
        entry.frame ∈ ledger.outstanding after.allocator.inner ∧ entry.frame ≠ root) ∧
      ∀ place entry other otherEntry, Refers after.memory root place entry →
        Refers after.memory root other otherEntry → entry.frame = otherEntry.frame →
        place = other := by
  have initial : FramesSafe ledger ⟨state.memory, .start state.allocator⟩ :=
    ⟨owned_empty rootAligned empty _, fun _ member => by cases member⟩
  have safe : FramesSafe ledger after := runs.invariant (FramesSafe ledger)
    (fun call member _ safe returned =>
      framesSafe_call (notGlobal call member).shaped safe returned) initial
  refine ⟨safe.sound, ?_, safe.owned.once⟩
  intro place entry refers
  exact ⟨safe.owned.owned place entry refers, safe.owned.not_root place entry refers⟩

end Safety

/-- Two pages are mapped and one of them is unmapped again. -/
def twoPages : List Call :=
  [.mapAlloc 0 0x1000 .readWrite, .mapAlloc 0x3ff000 0x1000 .readWrite,
    .unmapFree 0x3ff000 0x1000]

/-- The state that `twoPages` leads to from an empty directory. -/
def twoPagesSpace : State (Journal PageSize (Scripted 0x1000)) :=
  twoPages.foldl (fun state call => (run handler (call.program 0x1000) state).2)
    ⟨(emptySpace []).memory, .start ⟨[some 0x2000, some 0x3000, some 0x4000], []⟩⟩

/-- The frame that the run frees was outstanding. -/
theorem runs_frames_safe_two_pages :
    twoPagesSpace.allocator.frees.length = 1 ∧
    ∀ entry ∈ twoPagesSpace.allocator.frees,
      entry.2.1 ∈ (scriptedLedger 0x1000).outstanding entry.1 := by
  have notGlobal : ∀ call ∈ twoPages, call.NotGlobal := by
    intro call member
    simp only [twoPages, List.mem_cons, List.not_mem_nil, or_false] at member
    rcases member with rfl | rfl | rfl
    · rfl
    · rfl
    · trivial
  have runs : Runs 0x1000 ⟨(emptySpace [some 0x2000, some 0x3000, some 0x4000]).memory,
      .start (emptySpace [some 0x2000, some 0x3000, some 0x4000]).allocator⟩ twoPages
      twoPagesSpace :=
    .call (by decide +kernel) (.call (by decide +kernel) (.call (by decide +kernel)
      (.nil _)))
  exact ⟨by decide +kernel, (runs_frames_safe (scriptedLedger 0x1000) (by decide)
    (fun _ _ => rfl) notGlobal runs).1⟩

/-! ## Mapping a range again -/

/-- In every state that calls can lead to, `map_alloc` maps a range (in particular one in
which nothing is mapped) with an allocator that answers its requests exactly when no
table of the range has been reclaimed before. -/
theorem mapAlloc_after_runs_iff {root : Nat} (ledger : FrameLedger A root)
    {initial state : State A} {calls : List Call} {vaddr size : Nat}
    (flags : MappingFlags) (rootAligned : root % 0x1000 = 0)
    (empty : ∀ i < 0x400, initial.memory root i = .NULL)
    (runs : Runs root initial calls state) (aligned : vaddr % 0x1000 = 0)
    (bounded : vaddr + size ≤ 0x100000000)
    (supplied : Supplies state.allocator
      (framesNeeded state.memory root (rangePages vaddr size))) :
    (∃ after, run handler ((AddressSpace.fromPaddr root).mapAlloc vaddr size flags) state =
        (.ok vaddr, after) ∧
      ∀ page ∈ rangePages vaddr size, MapsPage after.memory root flags page) ↔
      ∀ page ∈ rangePages vaddr size,
        state.memory root (dirIndex page) ≠ unlinkedEntry := by
  have owned : Owned (fun _ => True) state.memory root
      (ledger.outstanding state.allocator) :=
    owned_runs (fun call _ => by cases call <;> simp [Call.Shaped])
      (owned_empty rootAligned empty _) runs
  have onPage : ∀ page ∈ rangePages vaddr size, page % 0x1000 = 0 :=
    rangePages_onPage aligned
  have ready : MapReady ledger state := ⟨owned.wf, owned.tables⟩
  have succeeds : (run handler (Program.forEach (rangePages vaddr size)
      (mapFrame root flags)) state).1 = .ok () ↔ _ := loop_ok_iff ready onPage
  -- In a reachable state only an unlinked entry has the bit that `set_entry` refuses.
  have marked : ∀ page, (state.memory root (dirIndex page)).flags.ps = false ↔
      state.memory root (dirIndex page) ≠ unlinkedEntry := by
    intro page
    rcases owned.directory _ (dirIndex_lt page) with table | null | unlinked
    · refine iff_of_true (PTEntry.isTable_ps table) ?_
      intro equal
      rw [equal, unlinkedEntry_not_isTable] at table
      cases table
    · rw [null]
      decide
    · rw [unlinked]
      decide
  simp only [supplied, and_true, NoPageSizeBit, marked] at succeeds
  rw [← succeeds, run_mapAlloc flags state bounded]
  rcases finished : run handler (Program.forEach (rangePages vaddr size)
      (mapFrame root flags)) state with ⟨⟨⟩ | error | _, after⟩
  · refine iff_of_true ⟨after, rfl, ?_⟩ rfl
    intro page member
    exact mapsPage_of_loop_ok ready onPage finished page (.inl member)
  · refine iff_of_false ?_ (by simp)
    rintro ⟨after, impossible, -⟩
    cases impossible
  · refine iff_of_false ?_ (by simp)
    rintro ⟨after, impossible, -⟩
    cases impossible

end Runs

/-- A directory in which the first page of the first region has been mapped. -/
def firstPageSpace : State (Scripted 0x1000) :=
  (run handler ((Call.mapAlloc 0 0x1000 .readWrite).program 0x1000)
    (emptySpace [some 0x2000, some 0x3000, some 0x4000])).2

/-- A second page in a region whose table is still there can be mapped. -/
theorem mapAlloc_after_runs_second_page :
    ∃ after, run handler
        ((AddressSpace.fromPaddr 0x1000).mapAlloc 0x5000 0x1000 .readWrite)
        firstPageSpace = (.ok 0x5000, after) ∧
      ∀ page ∈ rangePages 0x5000 0x1000, MapsPage after.memory 0x1000 .readWrite page := by
  have runs : Runs 0x1000 (emptySpace [some 0x2000, some 0x3000, some 0x4000])
      [.mapAlloc 0 0x1000 .readWrite] firstPageSpace :=
    .call (by decide +kernel) (.nil _)
  have pages : rangePages 0x5000 0x1000 = [0x5000] := by decide
  have needed : framesNeeded firstPageSpace.memory 0x1000 [0x5000] = 1 := by
    decide +kernel
  have table : firstPageSpace.memory 0x1000 0 ≠ unlinkedEntry := by decide +kernel
  have rest : firstPageSpace.allocator = ⟨[some 0x4000], [0x3000, 0x2000]⟩ := by
    decide +kernel
  refine (mapAlloc_after_runs_iff (scriptedLedger 0x1000) .readWrite (by decide)
    (fun _ _ => rfl) runs (by decide) (by decide) ?_).mpr ?_
  · rw [pages, needed, rest]
    exact ⟨0x4000, ⟨[], [0x4000, 0x3000, 0x2000]⟩, by decide, trivial⟩
  · rw [pages]
    intro page member
    rw [List.mem_singleton.mp member]
    exact table

/-- The state after a page has been mapped and unmapped again. -/
def reclaimedSpace : State (Scripted 0x1000) :=
  (run handler ((Call.unmapFree 0x3ff000 0x1000).program 0x1000)
    (run handler ((Call.mapAlloc 0x3ff000 0x1000 .readWrite).program 0x1000)
      (emptySpace [some 0x2000, some 0x3000, some 0x4000, some 0x6000])).2).2

/-- A page that was mapped and unmapped before cannot be mapped again, although nothing is
mapped and the allocator answers: the entry of its reclaimed table has `PS` set. -/
theorem mapAlloc_refused_after_reclaim :
    Runs 0x1000 (emptySpace [some 0x2000, some 0x3000, some 0x4000, some 0x6000])
      [.mapAlloc 0x3ff000 0x1000 .readWrite, .unmapFree 0x3ff000 0x1000]
      reclaimedSpace ∧
    (∀ place entry, ¬Refers reclaimedSpace.memory 0x1000 place entry) ∧
    Supplies reclaimedSpace.allocator
      (framesNeeded reclaimedSpace.memory 0x1000 (rangePages 0x3ff000 0x1000)) ∧
    (run handler ((AddressSpace.fromPaddr 0x1000).mapAlloc 0x3ff000 0x1000 .readWrite)
      reclaimedSpace).1 = .err (.mappingOver 0) := by
  have runs : Runs 0x1000 (emptySpace [some 0x2000, some 0x3000, some 0x4000, some 0x6000])
      [.mapAlloc 0x3ff000 0x1000 .readWrite, .unmapFree 0x3ff000 0x1000] reclaimedSpace :=
    .call (by decide +kernel) (.call (by decide +kernel) (.nil _))
  have pages : rangePages 0x3ff000 0x1000 = [0x3ff000] := by decide
  have rest : reclaimedSpace.allocator = ⟨[some 0x4000, some 0x6000], []⟩ := by
    decide +kernel
  have noTable : ∀ i < 0x400, (reclaimedSpace.memory 0x1000 i).isTable = false := by
    decide +kernel
  have needed : framesNeeded reclaimedSpace.memory 0x1000 [0x3ff000] = 2 := by
    decide +kernel
  refine ⟨runs, ?_, ?_, by decide +kernel⟩
  · rintro (i | ⟨i, index⟩) entry refers
    · obtain ⟨inside, entryEq, table⟩ := refers
      rw [← entryEq, noTable i inside] at table
      cases table
    · obtain ⟨inside, -, table, -⟩ := refers
      rw [noTable i inside] at table
      cases table
  · rw [pages, needed, rest]
    exact ⟨0x4000, ⟨[some 0x6000], [0x4000]⟩, by decide, 0x6000, ⟨[], [0x6000, 0x4000]⟩,
      by decide, trivial⟩

end SatanKernel.X86
