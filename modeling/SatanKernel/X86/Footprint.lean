import SatanKernel.X86.Runs

/-!
# What a call touches

A call on one address space writes to its directory, to its tables and to frames that the
allocator hands out in the course of the call; it gives back frames that the address space
refers to.  `Confined` states this relative to a set of frames that are not handed out, so
that it says what a call does to everything else: the contents of pages and the tables of
other address spaces.
-/

namespace SatanKernel.X86

open Lib NestedPageTableLevel
open Lib.Program (run)

/-- A reference to a frame that was not taken; a table is linked with the flags that
`newPageTable` gives it. -/
def NewReference (taken : Set Nat) (place : Reference) (entry : PTEntry) : Prop :=
  entry.frame ∉ taken ∧ ∀ i, place = .table i → entry.flags = (PTEntry.newPageTable 0).flags

/-- An update of the tables of an address space that leaves the frames in `taken` to those
who have them, apart from the tables themselves. -/
structure Confined (taken : Set Nat) (root : Nat) (before after : Memory) : Prop where
  kept : ∀ frame ∈ taken, ¬IsTableFrame before root frame → after frame = before frame
  refers : ∀ place entry, Refers after root place entry →
    Refers before root place entry ∨ NewReference taken place entry

/-- An address space refers to its tables, and is its directory. -/
theorem isTableFrame_iff {memory : Memory} {root frame : Nat} :
    IsTableFrame memory root frame ↔
      frame = root ∨ ∃ i entry, Refers memory root (.table i) entry ∧ entry.frame = frame := by
  constructor
  · rintro (equal | ⟨i, inside, table, equal⟩)
    · exact .inl equal
    · exact .inr ⟨i, _, ⟨inside, rfl, table⟩, equal⟩
  · rintro (equal | ⟨i, entry, ⟨inside, rfl, table⟩, equal⟩)
    · exact .inl equal
    · exact .inr ⟨i, inside, table, equal⟩

namespace Confined

variable {taken further : Set Nat} {root : Nat} {before middle after : Memory}

theorem refl (taken : Set Nat) (root : Nat) (memory : Memory) :
    Confined taken root memory memory where
  kept _ _ _ := rfl
  refers _ _ := .inl

theorem mono (confined : Confined further root before after) (smaller : taken ⊆ further) :
    Confined taken root before after where
  kept frame member := confined.kept frame (smaller member)
  refers place entry referred := by
    rcases confined.refers place entry referred with old | ⟨untaken, flags⟩
    · exact .inl old
    · exact .inr ⟨fun member => untaken (smaller member), flags⟩

/-- A taken frame that is a table was one before. -/
theorem isTableFrame (confined : Confined taken root before after) {frame : Nat}
    (member : frame ∈ taken) (used : IsTableFrame after root frame) :
    IsTableFrame before root frame := by
  rw [isTableFrame_iff] at used ⊢
  rcases used with equal | ⟨i, entry, referred, rfl⟩
  · exact .inl equal
  · rcases confined.refers _ entry referred with old | ⟨untaken, -⟩
    · exact .inr ⟨i, entry, old, rfl⟩
    · exact absurd member untaken

theorem trans (first : Confined taken root before middle)
    (second : Confined taken root middle after) : Confined taken root before after where
  kept frame member notTable := by
    rw [second.kept frame member fun used => notTable (first.isTableFrame member used),
      first.kept frame member notTable]
  refers place entry referred := by
    rcases second.refers place entry referred with old | isNew
    · exact first.refers place entry old
    · exact .inr isNew

end Confined

/-! ## Unmapping -/

section Unmapping

variable {root : Nat}

theorem regionEffect_refers {memory : Memory} (wf : WellFormed memory root)
    (vaddr size region : Nat) {place : Reference} {entry : PTEntry}
    (refers : Refers (regionEffect memory root vaddr size region).memory root place entry) :
    Refers memory root place entry := by
  have inside := dirIndex_lt region
  have ending := regionEnding memory root vaddr size region
  generalize regionEffect memory root vaddr size region = effect at ending refers
  cases ending with
  | idle absent => exact refers
  | cutLarge large cut => exact refers
  | wholeLarge large whole => exact refers
  | stopped table framed split passes stops =>
      subst framed
      exact (refers.of_clearPages wf inside table).1
  | kept table framed complete cut inUse =>
      subst framed
      exact (refers.of_clearPages wf inside table).1
  | unlinked table framed complete unused =>
      subst framed
      have unlinked := refers.of_unlink (clearPages_wellFormed wf inside table _)
      exact (unlinked.1.of_clearPages wf inside table).1

theorem confined_regionEffect (taken : Set Nat) {memory : Memory}
    (wf : WellFormed memory root) (vaddr size region : Nat) :
    Confined taken root memory (regionEffect memory root vaddr size region).memory := by
  constructor
  · intro frame _ notTable
    have inside := dirIndex_lt region
    have ending := regionEnding memory root vaddr size region
    generalize regionEffect memory root vaddr size region = effect at ending
    have notRoot : frame ≠ root := fun equal => notTable (.inl equal)
    have other : (memory root (dirIndex region)).isTable = true →
        frame ≠ (memory root (dirIndex region)).frame :=
      fun table equal => notTable (.inr ⟨_, inside, table, equal.symm⟩)
    funext index
    cases ending with
    | idle absent => rfl
    | cutLarge large cut => rfl
    | wholeLarge large whole => rfl
    | stopped table framed split passes stops =>
        subst framed
        exact clearPages_of_frame_ne _ _ (other table) _ _
    | kept table framed complete cut inUse =>
        subst framed
        exact clearPages_of_frame_ne _ _ (other table) _ _
    | unlinked table framed complete unused =>
        subst framed
        dsimp only
        rw [Memory.write_of_frame_ne _ _ _ notRoot]
        exact clearPages_of_frame_ne _ _ (other table) _ _
  · exact fun _ _ referred => .inl (regionEffect_refers wf vaddr size region referred)

/-- What an iteration frees, the address space refers to. -/
theorem freed_regionEffect {memory : Memory}
    (small : ∀ i < 0x400, (memory root i).isLarge = false) {vaddr size region addr : Nat}
    (freed : addr ∈ addresses (regionEffect memory root vaddr size region).freed)
    (aligned : addr % 0x1000 = 0) :
    ∃ place entry, Refers memory root place entry ∧ entry.frame = addr := by
  have inside := dirIndex_lt region
  have notLarge := small _ inside
  have ending := regionEnding memory root vaddr size region
  generalize regionEffect memory root vaddr size region = effect at ending freed
  -- The frames of pages.
  have ofLeaf : (memory root (dirIndex region)).isTable = true → ∀ pages,
      addr ∈ addresses (leafFrames memory (memory root (dirIndex region)).frame pages) →
      ∃ place entry, Refers memory root place entry ∧ entry.frame = addr := by
    intro table pages member
    simp only [addresses, leafFrames, List.map_map, Set.mem_ofPred_eq, List.mem_map,
      List.mem_filter, Function.comp_apply] at member
    obtain ⟨page, ⟨-, present⟩, rfl⟩ := member
    refine ⟨.leaf (dirIndex region) (tableIndex page), _,
      ⟨inside, tableIndex_lt page, table, rfl, ?_⟩, (PTEntry.address_eq_frame aligned).symm⟩
    rw [PTEntry.isMapped, present, Bool.true_or]
  cases ending with
  | idle absent => simp at freed
  | cutLarge large cut => simp at freed
  | wholeLarge large whole =>
      rw [notLarge] at large
      cases large
  | stopped table framed split passes stops =>
      subst framed
      exact ofLeaf table _ freed
  | kept table framed complete cut inUse =>
      subst framed
      exact ofLeaf table _ freed
  | unlinked table framed complete unused =>
      subst framed
      rw [addresses_append, addresses_cons, addresses_nil, insert_empty_eq] at freed
      rcases freed with page | isTable
      · exact ofLeaf table _ page
      · exact ⟨.table (dirIndex region), _, ⟨inside, rfl, table⟩,
          (Set.mem_singleton_iff.mp isTable).symm⟩

theorem confined_regionsEffect (taken : Set Nat) {memory : Memory}
    (wf : WellFormed memory root) (vaddr size : Nat) (regions : List Nat) :
    Confined taken root memory (regionsEffect memory root vaddr size regions).memory := by
  induction regions generalizing memory with
  | nil => exact .refl _ _ _
  | cons region regions ih =>
      have head := confined_regionEffect taken wf vaddr size region
      rw [regionsEffect]
      split
      next => exact head.trans (ih (regionEffect_wellFormed wf vaddr size region))
      next => exact head

/-- What `unmap_free` frees, the address space refers to. -/
theorem freed_regionsEffect {shape : PTEntry → Prop} {memory : Memory}
    {outstanding : Set Nat} (owned : Owned shape memory root outstanding)
    {vaddr size addr : Nat} {regions : List Nat}
    (freed : addr ∈ addresses (regionsEffect memory root vaddr size regions).freed)
    (aligned : addr % 0x1000 = 0) :
    ∃ place entry, Refers memory root place entry ∧ entry.frame = addr := by
  induction regions generalizing memory outstanding with
  | nil => simp [regionsEffect] at freed
  | cons region regions ih =>
      have head : addr ∈ addresses (regionEffect memory root vaddr size region).freed →
          ∃ place entry, Refers memory root place entry ∧ entry.frame = addr := fun member =>
        freed_regionEffect (fun i inside => owned.not_large inside) member aligned
      rw [regionsEffect] at freed
      split at freed
      next =>
        rw [addresses_append] at freed
        rcases freed with first | later
        · exact head first
        · obtain ⟨place, entry, refers, same⟩ :=
            ih (owned.regionEffect vaddr size region) later
          exact ⟨place, entry, regionEffect_refers owned.wf vaddr size region refers, same⟩
      next => exact head freed

end Unmapping

/-! ## Mapping -/

theorem Refers.of_clear {memory : Memory} {root frame : Nat} {place : Reference}
    {entry : PTEntry} (fresh : FreshFrame memory root frame)
    (refers : Refers (memory.clear frame) root place entry) :
    Refers memory root place entry := by
  have sameDirectory : ∀ j, memory.clear frame root j = memory root j :=
    fun j => Memory.clear_of_frame_ne _ (Ne.symm fresh.ne_root) j
  cases place with
  | table j =>
      simp only [Refers, sameDirectory] at refers
      exact refers
  | leaf j index =>
      simp only [Refers, sameDirectory] at refers
      obtain ⟨inside, indexInside, table, entryEq, mapped⟩ := refers
      rw [Memory.clear_of_frame_ne _ (fresh.ne_table inside table)] at entryEq
      exact ⟨inside, indexInside, table, entryEq, mapped⟩

section Mapping

variable {A : Type} [PageAllocatorTrait PageSize A] {root : Nat}

/-- The allocator does not hand out a frame of the set. -/
def Spares (taken : Set Nat) (allocator : A) : Prop :=
  ∀ ⦃after : A⦄ ⦃frame : Nat⦄,
    PageAllocatorTrait.alloc allocator PageSize.size4K = (some frame, after) → frame ∉ taken

theorem newReference_leaf {taken : Set Nat} {frame : Nat} (i index : Nat)
    (flags : MappingFlags) (aligned : frame % 0x1000 = 0) (bounded : frame < 0x100000000)
    (untaken : frame ∉ taken) :
    NewReference taken (.leaf i index) (leafEntry frame flags) := by
  have frameEq : (leafEntry frame flags).frame = frame :=
    PTEntry.newPage_4K_frame bounded aligned _
  exact ⟨by rwa [frameEq], fun _ isTable => by cases isTable⟩

theorem newReference_table {taken : Set Nat} {frame : Nat} (i : Nat)
    (aligned : frame % 0x1000 = 0) (bounded : frame < 0x100000000)
    (untaken : frame ∉ taken) :
    NewReference taken (.table i) (.newPageTable frame) := by
  refine ⟨by rwa [newPageTable_frame aligned bounded], fun _ _ => ?_⟩
  rw [PTEntry.newPageTable_flags aligned, PTEntry.newPageTable_flags (by decide)]

theorem confined_write_leaf {taken : Set Nat} {memory : Memory} {i frame : Nat}
    (wf : WellFormed memory root) (inside : i < 0x400)
    (table : (memory root i).isTable = true) (index : Nat) (flags : MappingFlags)
    (aligned : frame % 0x1000 = 0) (bounded : frame < 0x100000000)
    (untaken : frame ∉ taken) :
    Confined taken root memory
      (memory.write (memory root i).frame index (leafEntry frame flags)) where
  kept other _ notTable := by
    funext otherIndex
    apply Memory.write_of_frame_ne
    rintro rfl
    exact notTable (.inr ⟨i, inside, table, rfl⟩)
  refers place entry referred := by
    rcases referred.of_write_table wf inside table with old | ⟨rfl, rfl⟩
    · exact .inl old
    · exact .inr (newReference_leaf i index flags aligned bounded untaken)

theorem confined_clear {taken : Set Nat} {memory : Memory} {frame : Nat}
    (fresh : FreshFrame memory root frame) (untaken : frame ∉ taken) :
    Confined taken root memory (memory.clear frame) where
  kept other member _ := by
    funext index
    apply Memory.clear_of_frame_ne
    rintro rfl
    exact untaken member
  refers _ _ referred := .inl (referred.of_clear fresh)

theorem confined_link {taken : Set Nat} {memory : Memory} {i frame : Nat}
    (wf : WellFormed memory root) (fresh : FreshFrame memory root frame)
    (untaken : frame ∉ taken) :
    Confined taken root memory (memory.link root i frame) where
  kept other member notTable := by
    funext index
    apply link_of_frame_ne
    · rintro rfl
      exact notTable (.inl rfl)
    · rintro rfl
      exact untaken member
  refers place entry referred := by
    rcases referred.of_link wf fresh with old | ⟨rfl, rfl⟩
    · exact .inl old
    · exact .inr (newReference_table i fresh.aligned fresh.bounded untaken)

/-- Mapping a page. -/
theorem confined_mapsSmallPage {taken : Set Nat} {state : State A} {vaddr paddr : Nat}
    {flags : MappingFlags} {finished : Outcome MappingError Unit × State A}
    (wf : WellFormed state.memory root) (fresh : AllocatesFresh state root)
    (spares : Spares taken state.allocator) (aligned : paddr % 0x1000 = 0)
    (bounded : paddr < 0x100000000) (untaken : paddr ∉ taken)
    (ending : MapsSmallPage state root vaddr paddr flags finished) :
    Confined taken root state.memory finished.2.memory := by
  cases ending with
  | existingTable table =>
      exact confined_write_leaf wf (dirIndex_lt vaddr) table _ flags aligned bounded untaken
  | largePage large => exact .refl _ _ _
  | noFrame absent exhausted => exact .refl _ _ _
  | refused absent allocated ps =>
      exact confined_clear (fresh _ _ allocated) (spares allocated)
  | @newTable absent allocator frame allocated ps =>
      have freshFrame := fresh _ _ allocated
      have linked := link_directory_self state.memory root (dirIndex vaddr) frame
      have written : Confined taken root _ _ := confined_write_leaf
        (wf.link freshFrame (dirIndex vaddr)) (dirIndex_lt vaddr)
        (by rw [linked]; exact newPageTable_isTable freshFrame.aligned) (tableIndex vaddr) flags aligned bounded untaken
      rw [linked, newPageTable_frame freshFrame.aligned freshFrame.bounded] at written
      exact (confined_link wf freshFrame (spares allocated)).trans written

/-! ## Calls -/

section Calls

variable {ledger : FrameLedger A root} {avoided : Set Nat} {state : State A}

/-- A page of `map_alloc`; frames in `avoided` are never handed out. -/
theorem confined_mapsFrame {page : Nat} {flags : MappingFlags}
    {finished : Outcome MappingError Unit × State A}
    (avoids : ∀ allocator : A, Spares avoided allocator) (ready : MapReady ledger state)
    (ending : MapsFrame state root page flags finished) :
    Confined (ledger.outstanding state.allocator ∪ avoided) root state.memory
      finished.2.memory := by
  cases ending with
  | exhausted answered => exact .refl _ _ _
  | @mapped allocator frame finished answered ending =>
      obtain ⟨aligned, bounded, -, -, notOutstanding⟩ := ledger.alloc_frame answered
      have ready := ready.alloc answered
      have spares : Spares (ledger.outstanding state.allocator ∪ avoided) allocator := by
        intro after table allocated
        rintro (outstanding | member)
        · obtain ⟨-, -, -, -, free⟩ := ledger.alloc_frame allocated
          rw [ledger.alloc_some answered] at free
          exact free (Set.mem_insert_of_mem _ outstanding)
        · exact avoids allocator allocated member
      have untaken : frame ∉ ledger.outstanding state.allocator ∪ avoided := by
        rintro (outstanding | member)
        · exact notOutstanding outstanding
        · exact avoids _ answered member
      have fresh := ledger.allocatesFresh ready.tables
      have step := confined_mapsSmallPage ready.wf fresh spares aligned bounded untaken ending
      exact step

/-- Every call is confined. -/
theorem confined_call {shape : PTEntry → Prop} {call : Call}
    (avoids : ∀ allocator : A, Spares avoided allocator)
    (owned : Owned shape state.memory root (ledger.outstanding state.allocator))
    (returned : (run handler (call.program root) state).1 ≠ .panic) :
    Confined (ledger.outstanding state.allocator ∪ avoided) root state.memory
      (run handler (call.program root) state).2.memory := by
  cases call with
  | mapAlloc vaddr size flags =>
      have carried := mapAlloc_invariant
        (fun current : State A =>
          Confined (ledger.outstanding state.allocator ∪ avoided) root state.memory
              current.memory ∧
            ledger.outstanding state.allocator ⊆ ledger.outstanding current.allocator ∧
            MapReady ledger current) ?_ state
        ⟨.refl _ _ _, subset_rfl, ⟨owned.wf, owned.tables⟩⟩ returned
      · exact carried.1
      · rintro page current ⟨confined, subset, ready⟩ returned
        rcases mapsFrame_or_panic ledger page flags ready.wf ready.tables with
          panicked | ending
        · exact absurd panicked returned
        · have step := confined_mapsFrame avoids ready ending
          exact ⟨confined.trans (step.mono (Set.union_subset_union_left _ subset)),
            subset.trans (ending.outstanding_subset ledger), ending.ready ready⟩
  | unmapFree vaddr size =>
      have bounded := bounded_of_run rfl returned
      rw [Call.program, run_unmapFree state owned.wf bounded, Effect.apply_memory]
      exact confined_regionsEffect _ owned.wf vaddr size (regionsOf vaddr size)

/-- A call gives back only frames that its address space refers to. -/
theorem outstanding_call {shape : PTEntry → Prop} {call : Call} {frame : Nat}
    (owned : Owned shape state.memory root (ledger.outstanding state.allocator))
    (returned : (run handler (call.program root) state).1 ≠ .panic)
    (outstanding : frame ∈ ledger.outstanding state.allocator) (aligned : frame % 0x1000 = 0)
    (unreferred : ∀ place entry, Refers state.memory root place entry →
      entry.frame ≠ frame) :
    frame ∈ ledger.outstanding (run handler (call.program root) state).2.allocator := by
  cases call with
  | mapAlloc vaddr size flags =>
      have carried := mapAlloc_invariant
        (fun current : State A =>
          frame ∈ ledger.outstanding current.allocator ∧ MapReady ledger current) ?_ state
        ⟨outstanding, owned.wf, owned.tables⟩ returned
      · exact carried.1
      · rintro page current ⟨member, ready⟩ returned
        rcases mapsFrame_or_panic ledger page flags ready.wf ready.tables with
          panicked | ending
        · exact absurd panicked returned
        · exact ⟨ending.outstanding_subset ledger member, ending.ready ready⟩
  | unmapFree vaddr size =>
      have bounded := bounded_of_run rfl returned
      rw [Call.program, run_unmapFree state owned.wf bounded, Effect.apply_allocator,
        ledger.outstanding_freeAll]
      refine ⟨outstanding, fun freed => ?_⟩
      obtain ⟨place, entry, referred, equal⟩ := freed_regionsEffect owned freed aligned
      exact unreferred place entry referred equal

end Calls

end Mapping

end SatanKernel.X86
