import SatanKernel.Lib.Interleaving
import SatanKernel.X86.MapGuarantees

/-!
# Two address spaces on one allocator

An `unmap_free` on one address space runs beside a `map_alloc` on another one; both use
the same allocator.  `unmap_free` gives a frame back before it clears the entry that
refers to it.  A frame that is handed out in between belongs to both address spaces at
once; if none is, the two never share a frame.
-/

namespace SatanKernel.X86

open Lib NestedPageTableLevel

/-! ## The frames of an address space -/

/-- The address space uses the frame: it is the directory or one of its tables, or a page
of it is present there. -/
inductive Holds (memory : Memory) (root : Nat) : Nat → Prop where
  | tables {frame : Nat} (table : IsTableFrame memory root frame) : Holds memory root frame
  | page {i index : Nat} (inside : i < 0x400) (table : (memory root i).isTable = true)
      (indexInside : index < 0x400)
      (present : (memory (memory root i).frame index).flags.p = true) :
      Holds memory root (memory (memory root i).frame index).frame
  | large {i frame : Nat} (inside : i < 0x400) (large : (memory root i).isLarge = true)
      (covered : frame / 0x400000 = (memory root i).largeFrame / 0x400000) :
      Holds memory root frame

/-- In the tables of the address space each entry is as it was or no longer present. -/
def Shrinks (root : Nat) (before after : Memory) : Prop :=
  ∀ frame, IsTableFrame before root frame → ∀ index < 0x400,
    after frame index = before frame index ∨ (after frame index).flags.p = false

namespace Shrinks

variable {root : Nat} {before after : Memory}

theorem refl (root : Nat) (memory : Memory) : Shrinks root memory memory :=
  fun _ _ _ _ => .inl rfl

/-- A directory entry that is present afterwards has not changed. -/
theorem directory (shrinks : Shrinks root before after) {i : Nat} (inside : i < 0x400)
    (present : (after root i).flags.p = true) : after root i = before root i := by
  rcases shrinks root (.inl rfl) i inside with same | absent
  · exact same
  · rw [absent] at present
    cases present

theorem isTableFrame (shrinks : Shrinks root before after) {frame : Nat}
    (used : IsTableFrame after root frame) : IsTableFrame before root frame := by
  rcases used with equal | ⟨i, inside, table, equal⟩
  · exact .inl equal
  · have same := shrinks.directory inside (PTEntry.isTable_present table)
    rw [same] at table equal
    exact .inr ⟨i, inside, table, equal⟩

/-- The address space uses no other frames than before. -/
theorem holds (shrinks : Shrinks root before after) {frame : Nat}
    (held : Holds after root frame) : Holds before root frame := by
  cases held with
  | tables table => exact .tables (shrinks.isTableFrame table)
  | @page i index inside table indexInside present =>
      have same := shrinks.directory inside (PTEntry.isTable_present table)
      rw [same] at table present ⊢
      rcases shrinks _ (.inr ⟨i, inside, table, rfl⟩) index indexInside with
        unchanged | absent
      · rw [unchanged] at present ⊢
        exact .page inside table indexInside present
      · rw [absent] at present
        cases present
  | @large i _ inside large covered =>
      have present := large
      simp only [PTEntry.isLarge, Bool.and_eq_true] at present
      rw [shrinks.directory inside present.1] at large covered
      exact .large inside large covered

/-- Writing an entry that is not present. -/
theorem write_absent {word : PTEntry} (absent : word.flags.p = false) (frame index : Nat) :
    Shrinks root before (before.write frame index word) := by
  intro otherFrame _ otherIndex _
  unfold Memory.write
  split
  · exact .inr absent
  · exact .inl rfl

/-- Writing to a frame that is not one of the tables. -/
theorem write_elsewhere {frame : Nat} (elsewhere : ¬IsTableFrame before root frame)
    (index : Nat) (word : PTEntry) : Shrinks root before (before.write frame index word) := by
  intro otherFrame used otherIndex _
  refine .inl (Memory.write_of_frame_ne _ _ _ ?_ _)
  rintro rfl
  exact elsewhere used

/-- Clearing a frame. -/
theorem clear (frame : Nat) : Shrinks root before (before.clear frame) := by
  intro otherFrame _ otherIndex _
  unfold Memory.clear
  split
  · right
    rw [PTEntry.flags_NULL]
  · exact .inl rfl

end Shrinks

/-! ## The allocator -/

/-- What the two address spaces rely on: a frame that is handed out is outstanding until it
is given back, and only frames that are not outstanding are handed out. -/
structure FrameContract (A : Type) [PageAllocatorTrait PageSize A] where
  outstanding : A → Set Nat
  alloc_frame : ∀ {allocator after : A} {frame : Nat},
    PageAllocatorTrait.alloc allocator PageSize.size4K = (some frame, after) →
      frame % 0x1000 = 0 ∧ frame < 0x100000000 ∧ frame ∉ outstanding allocator
  alloc_keeps : ∀ {allocator after : A} {answer : Option Nat},
    PageAllocatorTrait.alloc allocator PageSize.size4K = (answer, after) →
      outstanding allocator ⊆ outstanding after
  free_keeps : ∀ (allocator : A) (block : Nat × PageSize) {frame : Nat},
    frame ∈ outstanding allocator → ¬Covers block frame →
      frame ∈ outstanding (PageAllocatorTrait.free allocator block.1 block.2)

/-- The contract of an allocator whose outstanding frames are known exactly. -/
def FrameLedger.contract {A : Type} [PageAllocatorTrait PageSize A] {reserved : Nat}
    (ledger : FrameLedger A reserved) : FrameContract A where
  outstanding := ledger.outstanding
  alloc_frame allocated := by
    obtain ⟨aligned, bounded, -, -, notOutstanding⟩ := ledger.alloc_frame allocated
    exact ⟨aligned, bounded, notOutstanding⟩
  alloc_keeps := by
    intro allocator after answer answered
    cases answer with
    | none => rw [ledger.alloc_none answered]
    | some frame =>
        rw [ledger.alloc_some answered]
        exact Set.subset_insert _ _
  free_keeps := by
    intro allocator block frame owned notCovered
    rw [ledger.free_eq]
    refine ⟨owned, ?_⟩
    rintro rfl
    exact notCovered rfl

/-- An allocator that records the blocks given back and the frames handed out. -/
abbrev Observed (A : Type) := Recorder PageSize (Tally PageSize A)

/-- The same state, with both recorded from now on. -/
def observing {A : Type} (state : State A) : State (Observed A) := recording (tallying state)

section SpacesApart

variable {A : Type} [PageAllocatorTrait PageSize A] (contract : FrameContract A)
  (first second : Nat)

/-- No frame that has been given back is still used by the first address space. -/
def NoDangling (state : State (Observed A)) : Prop :=
  ∀ block ∈ state.allocator.freed, ∀ frame, Covers block frame →
    ¬Holds state.memory first frame

/-- What keeps the two address spaces apart. -/
structure SpacesApart (state : State (Observed A)) : Prop where
  /-- The first address space uses outstanding frames, or frames that it has given back -/
  owned : ∀ frame, Holds state.memory first frame →
    (∃ block ∈ state.allocator.freed, Covers block frame) ∨
      frame ∈ contract.outstanding state.allocator.inner.inner
  /-- It uses none that the other one has obtained -/
  handed : ∀ frame ∈ state.allocator.inner.handed, ¬Holds state.memory first frame
  /-- The tables of the other one are not its tables -/
  root : ¬IsTableFrame state.memory first second
  tables : ∀ i < 0x400, (state.memory second i).isTable = true →
    ¬IsTableFrame state.memory first (state.memory second i).frame

variable {contract first second} {before after : State (Observed A)}

/-- A step that keeps the address spaces apart, after which the first one has no other
tables than before. -/
structure KeepsApart (contract : FrameContract A) (first second : Nat)
    (before after : State (Observed A)) : Prop where
  apart : SpacesApart contract first second after
  tables : ∀ frame, IsTableFrame after.memory first frame →
    IsTableFrame before.memory first frame

/-- A change of memory after which the first address space has not gained anything. -/
theorem SpacesApart.of_shrinks (apart : SpacesApart contract first second before)
    (shrinks : Shrinks first before.memory after.memory)
    (sameAllocator : after.allocator = before.allocator)
    (tables : ∀ i < 0x400, (after.memory second i).isTable = true →
      ¬IsTableFrame before.memory first (after.memory second i).frame) :
    KeepsApart contract first second before after where
  apart := {
    owned := by
      intro frame held
      rw [sameAllocator]
      exact apart.owned frame (shrinks.holds held)
    handed := by
      intro frame member held
      rw [sameAllocator] at member
      exact apart.handed frame member (shrinks.holds held)
    root := fun used => apart.root (shrinks.isTableFrame used)
    tables := fun i inside table used =>
      tables i inside table (shrinks.isTableFrame used) }
  tables := fun _ => shrinks.isTableFrame

theorem SpacesApart.unchanged (apart : SpacesApart contract first second before) :
    KeepsApart contract first second before before :=
  ⟨apart, fun _ used => used⟩

/-! ## Steps of `unmap_free` -/

/-- The operations of `unmap_free`. -/
def UnmapOp : PageTableOp PageTableLevel PageSize → Prop
  | .getEntry _ _ => True
  | .free _ _ => True
  | .freeSublevel _ _ => True
  | .setEntry _ _ entry => entry = .NULL
  | _ => False

/-- The free entry is not present, whatever level it is encoded for. -/
theorem encode_NULL {self : PageTableLevel} {word : PTEntry}
    (encoded : self.encode .NULL = some word) : word.flags.p = false := by
  obtain ⟨size, -, rfl⟩ := Option.map_eq_some_iff.mp encoded
  cases size <;> decide

theorem SpacesApart.free (apart : SpacesApart contract first second before) (block : Nat × PageSize)
    (sameMemory : after.memory = before.memory)
    (freed : after.allocator = PageAllocatorTrait.free before.allocator block.1 block.2) :
    KeepsApart contract first second before after := by
  have sameTables : ∀ frame, IsTableFrame after.memory first frame →
      IsTableFrame before.memory first frame := by
    rw [sameMemory]
    exact fun _ used => used
  refine ⟨⟨?_, ?_, ?_, ?_⟩, sameTables⟩
  · intro frame held
    rw [sameMemory] at held
    rw [freed]
    by_cases covered : Covers block frame
    · exact .inl ⟨block, List.mem_append_right _ (List.mem_singleton.mpr rfl), covered⟩
    · rcases apart.owned frame held with ⟨earlier, member, earlierCovers⟩ | outstanding
      · exact .inl ⟨earlier, List.mem_append_left _ member, earlierCovers⟩
      · exact .inr (contract.free_keeps _ block outstanding covered)
  · intro frame member
    rw [freed] at member
    rw [sameMemory]
    exact apart.handed frame member
  · rw [sameMemory]
    exact apart.root
  · rw [sameMemory]
    exact apart.tables

/-- Every step of `unmap_free` keeps the address spaces apart. -/
theorem SpacesApart.unmapStep (apart : SpacesApart contract first second before)
    {op : PageTableOp PageTableLevel PageSize} (unmaps : UnmapOp op) {answer : op.Answer}
    (handled : handler op before = some (answer, after)) :
    KeepsApart contract first second before after := by
  cases op with
  | alloc size => exact absurd unmaps id
  | newSublevel level => exact absurd unmaps id
  | getEntry level vaddr =>
      obtain ⟨-, rfl⟩ := handler_getEntry_cases handled
      exact apart.unchanged
  | free addr size =>
      cases handled
      exact apart.free (addr, size) rfl rfl
  | freeSublevel level sublevel =>
      cases handled
      exact apart.free (sublevel.paddr, .size4K) rfl rfl
  | setEntry level vaddr entry =>
      cases unmaps
      obtain ⟨-, ⟨error, -, rfl⟩ | ⟨word, encoded, -, rfl⟩⟩ := handler_setEntry_cases handled
      · exact apart.unchanged
      · have absent := encode_NULL encoded
        refine apart.of_shrinks (Shrinks.write_absent absent _ _) rfl ?_
        intro i inside table
        dsimp only at table ⊢
        unfold Memory.write at table ⊢
        split at table
        next =>
          rw [PTEntry.not_present_not_isTable absent] at table
          cases table
        next unchanged =>
          rw [if_neg unchanged]
          exact apart.tables i inside table

/-! ## Steps of `map_alloc` -/

/-- A frame that is handed out while nothing dangles. -/
theorem SpacesApart.alloc (apart : SpacesApart contract first second before)
    (clean : NoDangling first before) {answer : Option Nat} {allocator : Observed A}
    (answered : PageAllocatorTrait.alloc before.allocator PageSize.size4K =
      (answer, allocator)) :
    KeepsApart contract first second before { before with allocator } ∧
      ∀ frame, answer = some frame → frame % 0x1000 = 0 ∧ frame < 0x100000000 ∧
        ¬Holds before.memory first frame := by
  have inner : PageAllocatorTrait.alloc before.allocator.inner.inner PageSize.size4K =
      (answer, allocator.inner.inner) := by
    cases answered
    rfl
  have fresh : ∀ frame, answer = some frame → frame % 0x1000 = 0 ∧ frame < 0x100000000 ∧
      ¬Holds before.memory first frame := by
    rintro frame rfl
    obtain ⟨aligned, bounded, notOutstanding⟩ := contract.alloc_frame inner
    refine ⟨aligned, bounded, fun held => ?_⟩
    rcases apart.owned frame held with ⟨block, member, covered⟩ | outstanding
    · exact clean block member frame covered held
    · exact notOutstanding outstanding
  refine ⟨⟨⟨?_, ?_, apart.root, apart.tables⟩, fun _ used => used⟩, fresh⟩
  · intro frame held
    have freed : allocator.freed = before.allocator.freed := by
      cases answered
      rfl
    rcases apart.owned frame held with dangling | outstanding
    · exact .inl (freed ▸ dangling)
    · exact .inr (contract.alloc_keeps inner outstanding)
  · have handed : allocator.inner.handed = before.allocator.inner.handed ++ answer.toList := by
      cases answered
      rfl
    intro frame member
    dsimp only at member
    rw [handed, List.mem_append, Option.mem_toList] at member
    rcases member with earlier | now
    · exact apart.handed frame earlier
    · exact (fresh frame now).2.2

/-- Clearing a frame that the first address space does not use. -/
theorem SpacesApart.clear (apart : SpacesApart contract first second before) (frame : Nat) :
    KeepsApart contract first second before
      { before with memory := before.memory.clear frame } := by
  refine apart.of_shrinks (Shrinks.clear frame) rfl ?_
  intro i inside table
  dsimp only at table ⊢
  unfold Memory.clear at table ⊢
  split at table
  next => exact absurd table (by decide)
  next unchanged =>
    rw [if_neg unchanged]
    exact apart.tables i inside table

/-- Writing an entry outside of the first address space that does not refer to one of its
tables. -/
theorem SpacesApart.write (apart : SpacesApart contract first second before) {frame : Nat}
    (elsewhere : ¬IsTableFrame before.memory first frame) (index : Nat) {word : PTEntry}
    (refers : word.isTable = true → ¬IsTableFrame before.memory first word.frame) :
    KeepsApart contract first second before
      { before with memory := before.memory.write frame index word } := by
  refine apart.of_shrinks (Shrinks.write_elsewhere elsewhere index word) rfl ?_
  intro i inside table
  dsimp only at table ⊢
  unfold Memory.write at table ⊢
  split at table
  next selected =>
    rw [if_pos selected]
    exact refers table
  next unchanged =>
    rw [if_neg unchanged]
    exact apart.tables i inside table

theorem KeepsApart.trans {middle : State (Observed A)}
    (left : KeepsApart contract first second before middle)
    (right : KeepsApart contract first second middle after) :
    KeepsApart contract first second before after :=
  ⟨right.apart, fun frame used => left.tables frame (right.tables frame used)⟩

end SpacesApart

/-! ## Two calls at a time -/

section Threads

variable {A : Type} [PageAllocatorTrait PageSize A]

/-- The steps that hand out a frame. -/
def Allocates : PageTableOp PageTableLevel PageSize → Prop
  | .alloc _ => True
  | .newSublevel _ => True
  | _ => False

/-- An `unmap_free` on the first address space (`false`) beside a `map_alloc` on the second
(`true`): frames are handed out only while the first address space uses none that it has
given back. -/
def sharedProtocol (contract : FrameContract A) (first second : Nat) :
    Protocol (pageTableSig PageTableLevel PageSize) Bool (State (Observed A)) where
  handler := handler
  rely _ _ before after := SpacesApart contract first second before →
    KeepsApart contract first second before after
  allowed _ state _ op := Allocates op → NoDangling first state

/-- The two calls at their start. -/
def unmapBesideMap (first second : Nat) (unmapped mapped : Nat × Nat) (flags : MappingFlags)
    (state : State (Observed A)) :
    Threads (pageTableSig PageTableLevel PageSize) MappingError Unit Bool
      (State (Observed A)) where
  programs
    | false => (AddressSpace.fromPaddr first).unmapFree unmapped.1 unmapped.2
    | true => do
        let _ ← (AddressSpace.fromPaddr second).mapAlloc mapped.1 mapped.2 flags
        pure ()
  state := state

/-- `unmap_free` reads entries, clears them and gives frames back, and nothing else. -/
theorem only_unmapFree (depth : Nat) (self : PageTableLevel) (vaddr size : Nat) :
    (unmapFree depth self vaddr size : PagingM Unit).Only UnmapOp := by
  have reads : ∀ (level : PageTableLevel) (addr : Nat),
      (getEntry level addr : PagingM _).Only UnmapOp :=
    fun _ _ => ⟨trivial, fun answer => Program.only_ofExcept answer⟩
  have clears : ∀ (level : PageTableLevel) (addr : Nat),
      (setEntry level addr .NULL : PagingM _).Only UnmapOp :=
    fun _ _ => ⟨rfl, fun answer => Program.only_ofExcept answer⟩
  have unlinks : ∀ (level : PageTableLevel) (page : Nat) (sublevel : PageTableLevel),
      (unlinkSublevel level page sublevel : PagingM _).Only UnmapOp := fun level page sublevel =>
    Program.Only.bind ⟨trivial, fun answer => Program.only_ofExcept answer⟩
      fun _ => clears level page
  have adds : ∀ a b, (checkedAdd a b : PagingM Nat).Only UnmapOp := by
    intro a b
    unfold checkedAdd
    split <;> exact trivial
  have subtracts : ∀ a b, (checkedSub a b : PagingM Nat).Only UnmapOp := by
    intro a b
    unfold checkedSub
    split <;> exact trivial
  induction depth generalizing self vaddr size with
  | zero => exact Program.only_panic
  | succ depth ih =>
      refine (adds _ _).bind fun rangeEnd => Program.Only.bind ?_ fun stop =>
        Program.only_forEach fun page _ => ?_
      · exact (adds _ _).bind fun _ => (subtracts _ _).bind fun _ => Program.only_ret _
      refine (reads self page).bind fun entry => Program.Only.bind ?_ fun cut => ?_
      · unfold cutByRange
        split
        · exact Program.only_ret true
        · exact (adds _ _).bind fun _ => (adds _ _).bind fun _ => Program.only_ret _
      · split
        next level =>
          refine Program.Only.bind ?_ fun _ => Program.Only.bind ?_ fun mapped => ?_
          · unfold unmapPart
            split
            · exact (adds _ _).bind fun _ => (subtracts _ _).bind fun _ => ih _ _ _
            · exact (adds _ _).bind fun _ => (subtracts _ _).bind fun _ => ih _ _ _
          · refine (adds _ _).bind fun _ => Program.only_anyOf fun entryAddr _ => ?_
            exact (reads level entryAddr).bind fun _ => Program.only_ret _
          · split
            · exact Program.only_ret ()
            · exact unlinks _ _ _
        next =>
          split
          · exact Program.only_throw _
          · exact Program.only_ret ()
        next level => exact (ih _ _ _).bind fun _ => unlinks _ _ _
        next =>
          split
          · refine Program.Only.bind ?_ fun _ => Program.Only.bind
              ⟨trivial, fun answer => Program.only_ret answer⟩ fun _ => clears self page
            cases pageSize self <;> exact trivial
          · exact Program.only_ret ()

variable {contract : FrameContract A} {first second : Nat} {state : State (Observed A)}
  {α : Type} {post : α → State (Observed A) → Prop}

/-- The `unmap_free` meets its obligation. -/
theorem sound_unmapFree_first (vaddr size : Nat) :
    (sharedProtocol contract first second).Sound false (fun _ _ => True)
      ((AddressSpace.fromPaddr first).unmapFree vaddr size) state := by
  refine Protocol.sound_of_only UnmapOp ?_ (only_unmapFree _ _ _ _) state
  intro op unmaps current pending _ answer after handled other _ apart
  exact apart.unmapStep unmaps handled

/-- The address spaces are apart, and these frames are not tables of the first one. -/
def ApartFrom (contract : FrameContract A) (first second : Nat) (frames : Set Nat)
    (state : State (Observed A)) : Prop :=
  SpacesApart contract first second state ∧
    ∀ frame ∈ frames, ¬IsTableFrame state.memory first frame

/-- One operation of the `map_alloc`. -/
theorem sound_mapStep (frames : Set Nat) {op : PageTableOp PageTableLevel PageSize}
    {next : op.Answer → PagingM α} (holds : ApartFrom contract first second frames state)
    (step : ∀ current, ApartFrom contract first second frames current →
      (Allocates op → NoDangling first current) →
        ∀ answer after, handler op current = some (answer, after) →
          KeepsApart contract first second current after ∧
            (sharedProtocol contract first second).Sound true post (next answer) after) :
    (sharedProtocol contract first second).Sound true post (.call op next) state := by
  refine Protocol.sound_call_of_stable (ApartFrom contract first second frames) holds ?_ ?_
  · intro before after apart change
    have kept := change apart.1
    exact ⟨kept.apart, fun frame member used => apart.2 frame member (kept.tables frame used)⟩
  · intro current apart pending allowed answer after handled
    obtain ⟨kept, continues⟩ := step current apart allowed answer after handled
    exact ⟨fun _ _ _ => kept, continues⟩

/-- Writing the entry of the page into the table that was found for it. -/
theorem sound_writePage {table vaddr frame : Nat} (flags : MappingFlags)
    (aligned : frame % 0x1000 = 0) (bounded : frame < 0x100000000)
    (apart : ApartFrom contract first second
      {x | x = frame ∨ (x % 0x1000 = 0 ∧ x = table)} state) :
    (sharedProtocol contract first second).Sound true
      (fun _ after => SpacesApart contract first second after)
      (mapPage 1 (pageTable table) vaddr frame PageSize.size4K flags) state := by
  simp only [mapPage, pageSize_pageTable, if_true]
  refine sound_mapStep _ apart ?_
  intro current held _ answer after handled
  obtain ⟨onFrame, ⟨error, rfl, rfl⟩ | ⟨word, encoded, rfl, rfl⟩⟩ :=
    handler_setEntry_cases handled
  · exact ⟨held.1.unchanged, Protocol.sound_throw⟩
  · simp only [PageTableLevel.encode, pageSize_pageTable, Option.map_some,
      Option.some.injEq] at encoded
    subst encoded
    have framed : (PTEntry.newPage frame .size4K (.ofMapping flags)).frame = frame :=
      PTEntry.newPage_4K_frame bounded aligned _
    have refers : (PTEntry.newPage frame .size4K (.ofMapping flags)).isTable = true →
        ¬IsTableFrame current.memory first
          (PTEntry.newPage frame .size4K (.ofMapping flags)).frame := by
      intro _
      rw [framed]
      exact held.2 frame (.inl rfl)
    have kept := held.1.write (held.2 table (.inr ⟨onFrame, rfl⟩))
      ((pageTable table).index vaddr) refers
    exact ⟨kept, Protocol.sound_ret.mpr kept.apart⟩

/-- Linking the table that was allocated. -/
theorem sound_linkTable {vaddr frame table : Nat} (flags : MappingFlags)
    (aligned : frame % 0x1000 = 0) (bounded : frame < 0x100000000)
    (tableAligned : table % 0x1000 = 0) (tableBounded : table < 0x100000000)
    (apart : ApartFrom contract first second {x | x = frame ∨ x = table} state) :
    (sharedProtocol contract first second).Sound true
      (fun level after => (sharedProtocol contract first second).Sound true
        (fun _ after => SpacesApart contract first second after)
        (mapPage 1 level vaddr frame PageSize.size4K flags) after)
      (do
        setEntry (directory second) vaddr (.level (pageTable table))
        pure (pageTable table)) state := by
  refine sound_mapStep _ apart ?_
  intro current held _ answer after handled
  obtain ⟨-, ⟨error, rfl, rfl⟩ | ⟨word, encoded, rfl, rfl⟩⟩ := handler_setEntry_cases handled
  · exact ⟨held.1.unchanged, Protocol.sound_throw⟩
  · cases encoded
    have framed : (PTEntry.newPageTable table).frame = table :=
      newPageTable_frame tableAligned tableBounded
    have refers : (PTEntry.newPageTable table).isTable = true →
        ¬IsTableFrame current.memory first (PTEntry.newPageTable table).frame := by
      intro _
      rw [framed]
      exact held.2 table (.inr rfl)
    have kept := held.1.write held.1.root ((directory second).index vaddr) refers
    refine ⟨kept, Protocol.sound_ret.mpr (sound_writePage flags aligned bounded ⟨kept.apart, ?_⟩)⟩
    rintro other (rfl | ⟨-, rfl⟩) used
    · exact held.2 other (.inl rfl) (kept.tables other used)
    · exact held.2 other (.inr rfl) (kept.tables other used)

/-- Finding or creating the table of the page. -/
theorem sound_nextLevel {vaddr frame : Nat} (flags : MappingFlags)
    (aligned : frame % 0x1000 = 0) (bounded : frame < 0x100000000)
    (apart : ApartFrom contract first second {x | x = frame} state) :
    (sharedProtocol contract first second).Sound true
      (fun level after => (sharedProtocol contract first second).Sound true
        (fun _ after => SpacesApart contract first second after)
        (mapPage 1 level vaddr frame PageSize.size4K flags) after)
      (nextLevel (directory second) vaddr) state := by
  refine sound_mapStep _ apart ?_
  intro current held _ answer after handled
  obtain ⟨rfl, rfl⟩ := handler_getEntry_cases handled
  refine ⟨held.1.unchanged, ?_⟩
  dsimp only [Program.ofExcept, Program.bind]
  rw [index_directory, decode_directory]
  cases table : (after.memory second (dirIndex vaddr)).isTable with
  | true =>
      simp only [if_true]
      refine Protocol.sound_ret.mpr (sound_writePage flags aligned bounded ⟨held.1, ?_⟩)
      rintro other (rfl | ⟨otherAligned, rfl⟩)
      · exact held.2 other rfl
      · rw [PTEntry.address_eq_frame otherAligned]
        exact held.1.tables _ (dirIndex_lt vaddr) table
  | false =>
      simp only [Bool.false_eq_true, if_false]
      split
      · exact Protocol.sound_throw
      · refine sound_mapStep _ held ?_
        intro current held clean answer after handled
        rcases handler_newSublevel_cases handled with
          ⟨allocator, answered, rfl, rfl⟩ | ⟨addr, allocator, answered, addrAligned, rfl, rfl⟩
        · exact ⟨(held.1.alloc (clean trivial) answered).1, Protocol.sound_throw⟩
        · obtain ⟨keptAlloc, fresh⟩ := held.1.alloc (clean trivial) answered
          obtain ⟨-, addrBounded, notHeld⟩ := fresh addr rfl
          have kept := keptAlloc.trans (keptAlloc.apart.clear addr)
          refine ⟨kept, sound_linkTable flags aligned bounded addrAligned addrBounded
            ⟨kept.apart, ?_⟩⟩
          rintro other (rfl | rfl) used
          · exact held.2 other rfl (kept.tables other used)
          · exact notHeld (.tables (kept.tables other used))

/-- One page of the `map_alloc`. -/
theorem sound_mapAllocPage (vaddr page : Nat) (flags : MappingFlags)
    (apart : SpacesApart contract first second state) :
    (sharedProtocol contract first second).Sound true
      (fun _ after => SpacesApart contract first second after)
      (mapAllocPage levels (directory second) vaddr flags page) state := by
  rw [mapAllocPage]
  apply Protocol.sound_bind
  unfold checkedMul
  split
  next =>
    refine Protocol.sound_ret.mpr (Protocol.sound_bind ?_)
    unfold checkedAdd
    split
    next =>
      refine Protocol.sound_ret.mpr (sound_mapStep ∅ ⟨apart, by simp⟩ ?_)
      intro current held clean answer after handled
      cases answered : PageAllocatorTrait.alloc current.allocator
          (PageSizeTrait.MIN : PageSize) with
      | mk frame allocator =>
          simp only [handler, answered, Option.some.injEq, Prod.mk.injEq] at handled
          obtain ⟨rfl, rfl⟩ := handled
          obtain ⟨kept, fresh⟩ := held.1.alloc (clean trivial) answered
          refine ⟨kept, ?_⟩
          cases frame with
          | none => exact Protocol.sound_panic
          | some frame =>
              obtain ⟨aligned, bounded, notHeld⟩ := fresh frame rfl
              have notTable : ∀ other ∈ {x | x = frame},
                  ¬IsTableFrame current.memory first other := by
                rintro other rfl used
                exact notHeld (.tables used)
              refine Protocol.sound_bind (Protocol.sound_ret.mpr ?_)
              change (sharedProtocol contract first second).Sound true _
                (mapPage levels (directory second) _ frame PageSize.size4K flags) _
              rw [mapPage_directory_eq]
              exact Protocol.sound_bind
                (sound_nextLevel flags aligned bounded ⟨kept.apart, notTable⟩)
    next => exact Protocol.sound_panic
  next => exact Protocol.sound_panic

/-- The `map_alloc` meets its obligation. -/
theorem sound_mapAlloc (vaddr size : Nat) (flags : MappingFlags)
    (apart : SpacesApart contract first second state) :
    (sharedProtocol contract first second).Sound true (fun _ _ => True)
      (do
        let _ ← (AddressSpace.fromPaddr second).mapAlloc vaddr size flags
        pure ()) state := by
  apply Protocol.sound_bind
  apply Protocol.sound_bind
  refine (Protocol.sound_forEach (fun _ after => SpacesApart contract first second after) apart
    ?_).mono fun _ _ _ => Protocol.sound_ret.mpr (Protocol.sound_ret.mpr trivial)
  intro page _ _ current held
  exact sound_mapAllocPage vaddr page flags held

/-- The address spaces use different frames, all of them outstanding. -/
structure SeparateSpaces (contract : FrameContract A) (first second : Nat)
    (state : State A) : Prop where
  firstOwned : ∀ frame, Holds state.memory first frame →
    frame ∈ contract.outstanding state.allocator
  secondOwned : ∀ frame, Holds state.memory second frame →
    frame ∈ contract.outstanding state.allocator
  disjoint : ∀ frame, Holds state.memory first frame → ¬Holds state.memory second frame

theorem SeparateSpaces.apart {state : State A}
    (separate : SeparateSpaces contract first second state) :
    SpacesApart contract first second (observing state) where
  owned frame held := .inr (separate.firstOwned frame held)
  handed frame member := by cases member
  root used := separate.disjoint second (.tables used) (.tables (.inl rfl))
  tables i inside table used := separate.disjoint _ (.tables used)
    (.tables (.inr ⟨i, inside, table, rfl⟩))

/-- In every state of a run of both calls (each state is reached by a schedule of its own),
the first address space uses no frame that was handed out to the second one, if frames are
handed out only while the first one uses none that it has given back. -/
theorem handed_frames_not_held {state : State A}
    (separate : SeparateSpaces contract first second state) (unmapped mapped : Nat × Nat)
    (flags : MappingFlags) (schedule : List Bool)
    (admits : (sharedProtocol contract first second).Admits schedule
      (unmapBesideMap first second unmapped mapped flags (observing state))) :
    ∀ frame ∈ ((unmapBesideMap first second unmapped mapped flags (observing state)).run
        handler schedule).state.allocator.inner.handed,
      ¬Holds ((unmapBesideMap first second unmapped mapped flags (observing state)).run
        handler schedule).state.memory first frame := by
  have sound : Protocol.AllSound (sharedProtocol contract first second) (fun _ _ _ => True)
      (unmapBesideMap first second unmapped mapped flags (observing state)) := by
    intro who
    cases who with
    | false => exact sound_unmapFree_first _ _
    | true => exact sound_mapAlloc _ _ flags separate.apart
  have kept := Protocol.run_related (fun before after => SpacesApart contract first second before →
      SpacesApart contract first second after) (fun _ _ _ _ _ _ => trivial) (fun _ apart => apart)
    (fun left right apart => right (left apart))
    (fun _ _ _ _ change apart => (change apart).apart) sound admits
  exact (kept separate.apart).handed

end Threads

/-- The address space at `0x1000` maps its first page to `0x4000` through a table at
`0x2000`; the one at `0x8000` is empty. -/
def twoSpaces (script : List (Option Nat)) : State (Scripted 0x1000) where
  memory := (oneTable [0]).memory
  allocator := ⟨script, [0x1000, 0x2000, 0x4000, 0x8000]⟩

theorem oneTable_holds {frame : Nat} (held : Holds (oneTable [0]).memory 0x1000 frame) :
    frame = 0x1000 ∨ frame = 0x2000 ∨ frame = 0x4000 := by
  have first : (oneTable [0]).memory 0x1000 0 = .newPageTable 0x2000 := by simp [oneTable]
  have onlyFirst : ∀ i, ((oneTable [0]).memory 0x1000 i).flags.p = true → i = 0 := by
    intro i present
    by_contra other
    simp [oneTable, other] at present
  cases held with
  | tables table =>
      rcases table with equal | ⟨i, -, table, equal⟩
      · exact .inl equal
      · rw [onlyFirst i (PTEntry.isTable_present table), first] at equal
        exact .inr (.inl (equal ▸ by decide))
  | @page i index inside table indexInside present =>
      have framed : (PTEntry.newPageTable 0x2000).frame = 0x2000 := by decide
      rw [onlyFirst i (PTEntry.isTable_present table), first, framed] at present ⊢
      have indexZero : index = 0 := by
        by_contra other
        simp [oneTable, other] at present
      rw [indexZero]
      exact .inr (.inr (by decide))
  | @large i _ inside large covered =>
      have present := large
      simp only [PTEntry.isLarge, Bool.and_eq_true] at present
      rw [onlyFirst i present.1, first] at large
      exact absurd large (by decide)

theorem emptyDirectory_holds {frame : Nat} (held : Holds (oneTable [0]).memory 0x8000 frame) :
    frame = 0x8000 := by
  have absent : ∀ i, ((oneTable [0]).memory 0x8000 i).flags.p = false := by
    intro i
    simp [oneTable]
  cases held with
  | tables table =>
      rcases table with equal | ⟨i, -, table, -⟩
      · exact equal
      · rw [PTEntry.not_present_not_isTable (absent i)] at table
        cases table
  | @page i _ _ table _ _ =>
      rw [PTEntry.not_present_not_isTable (absent i)] at table
      cases table
  | @large i _ _ large _ =>
      simp [PTEntry.isLarge, absent i] at large

theorem twoSpaces_separate (script : List (Option Nat)) :
    SeparateSpaces (scriptedLedger 0x1000).contract 0x1000 0x8000 (twoSpaces script) where
  firstOwned frame held := by
    change frame ∈ [0x1000, 0x2000, 0x4000, 0x8000]
    rcases oneTable_holds held with rfl | rfl | rfl <;> decide
  secondOwned frame held := by
    change frame ∈ [0x1000, 0x2000, 0x4000, 0x8000]
    rw [emptyDirectory_holds held]
    decide
  disjoint frame firstHeld secondHeld := by
    rw [emptyDirectory_holds secondHeld] at firstHeld
    rcases oneTable_holds firstHeld with equal | equal | equal <;> cases equal

/-- A frame that is handed out before the first one is given back. -/
theorem handed_frames_not_held_early :
    0x5000 ∈ ((unmapBesideMap 0x1000 0x8000 (0, 0x1000) (0, 0x1000) .readWrite
        (observing (twoSpaces [some 0x5000]))).run handler
          [false, false, true]).state.allocator.inner.handed ∧
      ¬Holds ((unmapBesideMap 0x1000 0x8000 (0, 0x1000) (0, 0x1000) .readWrite
        (observing (twoSpaces [some 0x5000]))).run handler
          [false, false, true]).state.memory 0x1000 0x5000 := by
  have clean : ∀ state : State (Observed (Scripted 0x1000)), state.allocator.freed = [] →
      NoDangling 0x1000 state := by
    intro state nothing block member
    rw [nothing] at member
    cases member
  have handed : 0x5000 ∈ ((unmapBesideMap 0x1000 0x8000 (0, 0x1000) (0, 0x1000) .readWrite
      (observing (twoSpaces [some 0x5000]))).run handler
        [false, false, true]).state.allocator.inner.handed := by
    decide +kernel
  refine ⟨handed, handed_frames_not_held (twoSpaces_separate [some 0x5000]) (0, 0x1000)
    (0, 0x1000) .readWrite [false, false, true] ⟨?_, ?_, ?_, trivial⟩ 0x5000 handed⟩
  · exact fun _ _ _ => clean _ rfl
  · exact fun _ _ _ => clean _ (by decide +kernel)
  · exact fun _ _ _ => clean _ (by decide +kernel)

/-- A frame that is handed out between `free` and `set_entry` is used by both. -/
theorem handed_frame_still_held :
    SeparateSpaces (scriptedLedger 0x1000).contract 0x1000 0x8000 (twoSpaces [some 0x4000]) ∧
    ∃ frame ∈ ((unmapBesideMap 0x1000 0x8000 (0, 0x1000) (0, 0x1000) .readWrite
        (observing (twoSpaces [some 0x4000]))).run handler
          [false, false, false, true]).state.allocator.inner.handed,
      Holds ((unmapBesideMap 0x1000 0x8000 (0, 0x1000) (0, 0x1000) .readWrite
        (observing (twoSpaces [some 0x4000]))).run handler
          [false, false, false, true]).state.memory 0x1000 frame := by
  refine ⟨twoSpaces_separate _, 0x4000, by decide +kernel, ?_⟩
  have sameMemory : ((unmapBesideMap 0x1000 0x8000 (0, 0x1000) (0, 0x1000) .readWrite
      (observing (twoSpaces [some 0x4000]))).run handler
        [false, false, false, true]).state.memory = (oneTable [0]).memory := by
    rfl
  rw [sameMemory]
  exact .page (show 0 < 0x400 by decide) (by decide) (show 0 < 0x400 by decide) (by decide)

end SatanKernel.X86
