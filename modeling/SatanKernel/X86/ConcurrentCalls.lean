import SatanKernel.Lib.Interleaving
import SatanKernel.X86.MapPage
import SatanKernel.X86.UnmapRange

/-!
# Two page-table calls at a time

Each operation on a page table locks the temporary page and is atomic, but a call of
`map_page` or `unmap_free` is several of them.  This module lists the changes of memory
that a call has to put up with from another call that runs at the same time, and shows
that the steps of `map_page` and `unmap_free` are changes of this kind.

Two things can go wrong.  A call that has read a directory entry goes on with what it
has read, so nobody may write that entry before the call is done.  And a table that was
found empty must still be empty when it is unlinked.
-/

namespace SatanKernel.X86

open Lib NestedPageTableLevel

/-- A call of `map_page` with 4 KiB pages, or of `unmap_free`. -/
inductive PageCall where
  | mapPage (vaddr paddr : Nat) (flags : MappingFlags)
  | unmapFree (vaddr size : Nat)
  deriving DecidableEq, Repr

namespace PageCall

def program (root : Nat) : PageCall → PagingM Unit
  | .mapPage vaddr paddr flags =>
      (AddressSpace.fromPaddr root).mapPage vaddr paddr .size4K flags
  | .unmapFree vaddr size => (AddressSpace.fromPaddr root).unmapFree vaddr size

/-- The page that a `map_page` call maps. -/
def page : PageCall → Option Nat
  | .mapPage vaddr _ _ => some vaddr
  | .unmapFree _ _ => none

/-- Addresses that the call maps. -/
def mapped : PageCall → Set Nat
  | .mapPage vaddr _ _ => {query | query / 0x1000 = vaddr / 0x1000}
  | .unmapFree _ _ => ∅

/-- Addresses that the call unmaps, those past the end of its range included. -/
def unmapped : PageCall → Set Nat
  | .mapPage _ _ _ => ∅
  | .unmapFree vaddr size => {query | vaddr ≤ query ∧ query < unmapEnd vaddr size}

/-- Addresses whose translation the call changes. -/
def touched (call : PageCall) : Set Nat := call.mapped ∪ call.unmapped

theorem mapped_of_page {call : PageCall} {vaddr : Nat} (mapsPage : call.page = some vaddr)
    {query : Nat} : query ∈ call.mapped ↔ query / 0x1000 = vaddr / 0x1000 := by
  cases call with
  | mapPage target paddr flags =>
      cases mapsPage
      rfl
  | unmapFree start size => cases mapsPage

theorem mapped_of_unmaps {call : PageCall} (unmaps : call.page = none) :
    call.mapped = ∅ := by
  cases call with
  | mapPage vaddr paddr flags => cases unmaps
  | unmapFree vaddr size => rfl

end PageCall

/-- The operations on page tables. -/
abbrev PagingOp := PageTableOp PageTableLevel PageSize

/-- A `map_page` call with this operation pending has read its directory entry and still
relies on it. -/
def midway : Option PagingOp → Bool
  | some (.newSublevel _) => true
  | some (.setEntry _ _ _) => true
  | _ => false

/-- The frame that a call has allocated for a table and is about to link. -/
def heldFrame : Option PagingOp → Option Nat
  | some (.setEntry _ _ (.level table)) => some table.paddr
  | _ => none

/-- The changes of memory that `own`, with an operation pending, puts up with from
`other`. -/
structure Tolerated (root : Nat) (own other : PageCall) (pending : Option PagingOp)
    (before after : Memory) : Prop where
  wellFormed : WellFormed after root
  /-- Only the addresses of the other call are affected -/
  outside : ∀ query < 0x100000000, query ∉ other.touched →
    walk after root query = walk before root query
  /-- Only a page that the other call maps starts to translate -/
  stillFree : ∀ query < 0x100000000, query ∉ other.mapped →
    walk before root query = none → walk after root query = none
  /-- Entries with `PS` set are never overwritten -/
  ps : ∀ i < 0x400, (before root i).flags.ps = true → after root i = before root i
  /-- Tables are only unlinked, and only by `unmap_free` -/
  table : ∀ i < 0x400, (before root i).isTable = true → after root i = before root i ∨
    (other.page = none ∧ after root i = unlinkedEntry)
  /-- Tables are only linked by `map_page` -/
  linked : other.page = none → ∀ i < 0x400, (after root i).isTable = true →
    (before root i).isTable = true
  /-- New tables grant what `new_page_table` grants -/
  flags : ∀ i < 0x400, tableFlags (after root i) = tableFlags (before root i) ∨
    (after root i).flags.ps = true
  /-- A directory entry that is relied on does not change -/
  directory : ∀ vaddr, own.page = some vaddr → midway pending = true →
    after root (dirIndex vaddr) = before root (dirIndex vaddr)
  /-- A frame that is about to be linked does not change -/
  held : own.page ≠ none → ∀ frame, heldFrame pending = some frame →
    FreshFrame before root frame →
      FreshFrame after root frame ∧ ∀ i, after frame i = before frame i

theorem FreshFrame.of_directory_eq {root frame : Nat} {before after : Memory}
    (fresh : FreshFrame before root frame)
    (same : ∀ i < 0x400, after root i = before root i) : FreshFrame after root frame := by
  refine ⟨fresh.aligned, fresh.bounded, ?_⟩
  intro used
  cases used with
  | inl equal => exact fresh.ne_root equal
  | inr linked =>
      obtain ⟨i, inside, table, equal⟩ := linked
      rw [same i inside] at table equal
      exact fresh.ne_table inside table equal

/-- A frame stays fresh when the directory links another one. -/
theorem FreshFrame.write_directory {root frame : Nat} {memory : Memory}
    (fresh : FreshFrame memory root frame) (i : Nat) {entry : PTEntry}
    (notLinked : entry.isTable = true → entry.frame ≠ frame) :
    FreshFrame (memory.write root i entry) root frame := by
  refine ⟨fresh.aligned, fresh.bounded, ?_⟩
  intro used
  cases used with
  | inl equal => exact fresh.ne_root equal
  | inr linked =>
      obtain ⟨j, inside, table, equal⟩ := linked
      by_cases same : j = i
      · rw [same, Memory.write_self] at table equal
        exact notLinked table equal
      · rw [Memory.write_of_index_ne _ _ _ _ same] at table equal
        exact fresh.ne_table inside table equal

namespace Tolerated

variable {root : Nat} {own other : PageCall} {pending : Option PagingOp}
  {before after : Memory}

/-! ## Changes below the directory -/

/-- A change of no directory entry, of frames that are not held. -/
theorem of_directory_eq (wf : WellFormed before root)
    (same : ∀ i, after root i = before root i)
    (outside : ∀ query < 0x100000000, query ∉ other.touched →
      walk after root query = walk before root query)
    (stillFree : ∀ query < 0x100000000, query ∉ other.mapped →
      walk before root query = none → walk after root query = none)
    (contents : own.page ≠ none → ∀ frame, heldFrame pending = some frame →
      FreshFrame before root frame → ∀ i, after frame i = before frame i) :
    Tolerated root own other pending before after where
  wellFormed := wf.of_directory_eq fun i _ => same i
  outside := outside
  stillFree := stillFree
  ps i _ _ := same i
  table i _ _ := Or.inl (same i)
  linked _ i _ table := same i ▸ table
  flags i _ := Or.inl (by rw [same i])
  directory vaddr _ _ := same (dirIndex vaddr)
  held maps frame holds fresh :=
    ⟨fresh.of_directory_eq fun i _ => same i, contents maps frame holds fresh⟩

/-- A step that changes no memory. -/
theorem refl (wf : WellFormed before root) :
    Tolerated root own other pending before before :=
  of_directory_eq wf (fun _ => rfl) (fun _ _ _ => rfl) (fun _ _ _ free => free)
    (fun _ _ _ _ _ => rfl)

/-- Clearing a fresh frame that nobody else holds. -/
theorem clear (wf : WellFormed before root) {frame : Nat}
    (fresh : FreshFrame before root frame) (notHeld : heldFrame pending ≠ some frame) :
    Tolerated root own other pending before (before.clear frame) := by
  apply of_directory_eq wf
  · intro i
    exact Memory.clear_of_frame_ne before (Ne.symm fresh.ne_root) i
  · intro query _ _
    exact walk_clear fresh query
  · intro query _ _ free
    rw [walk_clear fresh, free]
  · intro _ otherFrame holds _ i
    apply Memory.clear_of_frame_ne
    intro equal
    exact notHeld (equal ▸ holds)

/-- Overwriting an entry of a table of the address space. -/
theorem write_table (wf : WellFormed before root) {i : Nat} (inside : i < 0x400)
    {pde : PTEntry} (linked : before root i = pde) (isTable : pde.isTable = true)
    (index : Nat) (entry : PTEntry)
    (touches : ∀ query < 0x100000000, dirIndex query = i → tableIndex query = index →
      query ∈ other.touched)
    (maps : ∀ query < 0x100000000, dirIndex query = i → tableIndex query = index →
      query ∈ other.mapped ∨ entry.flags.p = false) :
    Tolerated root own other pending before (before.write pde.frame index entry) := by
  subst linked
  have notRoot := wf.table_ne_root i inside isTable
  apply of_directory_eq wf
  · exact Memory.write_of_frame_ne before index entry (Ne.symm notRoot)
  · intro query bounded untouched
    rw [walk_write_table wf inside isTable, if_neg]
    intro selected
    exact untouched (touches query bounded selected.1 selected.2)
  · intro query bounded notMapped free
    rw [walk_write_table wf inside isTable]
    split
    next selected =>
      cases maps query bounded selected.1 selected.2 with
      | inl isMapped => exact absurd isMapped notMapped
      | inr absent =>
          simp [walkEntries, PTEntry.isTable_ps isTable, absent]
    next => exact free
  · intro _ frame _ fresh index
    exact Memory.write_of_frame_ne before _ _
      (Ne.symm (fresh.ne_table inside isTable)) index

/-- Overwriting an entry of a table that has been unlinked. -/
theorem write_detached (wf : WellFormed before root) {frame : Nat} (notRoot : frame ≠ root)
    (detached : ∀ i < 0x400, (before root i).isTable = true → (before root i).frame ≠ frame)
    (index : Nat) (entry : PTEntry) (unmaps : own.page = none) :
    Tolerated root own other pending before (before.write frame index entry) := by
  have unchanged : ∀ query,
      walk (before.write frame index entry) root query = walk before root query := by
    intro query
    apply walk_congr
    · exact Memory.write_of_frame_ne before index entry (Ne.symm notRoot) _
    · intro table
      exact Memory.write_of_frame_ne before index entry
        (detached _ (dirIndex_lt query) table) _
  apply of_directory_eq wf
  · exact Memory.write_of_frame_ne before index entry (Ne.symm notRoot)
  · intro query _ _
    exact unchanged query
  · intro query _ _ free
    rw [unchanged, free]
  · intro maps
    exact absurd unmaps maps

/-! ## Changes of the directory -/

/-- Linking a fresh, empty frame in place of an entry that is not present. -/
theorem link (wf : WellFormed before root) {frame i : Nat}
    (fresh : FreshFrame before root frame)
    (empty : ∀ index < 0x400, before frame index = .NULL)
    (absent : (before root i).flags.p = false) (ps : (before root i).flags.ps = false)
    (maps : other.page ≠ none) (notHeld : heldFrame pending ≠ some frame)
    (notMidway : ∀ vaddr, own.page = some vaddr → dirIndex vaddr = i →
      midway pending = false) :
    Tolerated root own other pending before
      (before.write root i (.newPageTable frame)) := by
  have cleared : before.clear frame = before := by
    funext otherFrame index
    rw [Memory.clear]
    split
    next selected => rw [selected.1, empty index selected.2]
    next => rfl
  have shape : before.write root i (.newPageTable frame) = before.link root i frame := by
    rw [Memory.link, cleared]
  have notTable := PTEntry.not_present_not_isTable absent
  rw [shape]
  have elsewhere : ∀ j, j ≠ i → before.link root i frame root j = before root j :=
    fun j different => link_directory_of_ne fresh different
  constructor
  · exact wf.link fresh i
  · intro query _ _
    exact walk_link wf fresh absent query
  · intro query _ _ free
    rw [walk_link wf fresh absent, free]
  · intro j _ jPs
    apply elsewhere
    intro same
    rw [same, ps] at jPs
    cases jPs
  · intro j _ table
    apply Or.inl (elsewhere j _)
    intro same
    rw [same, notTable] at table
    cases table
  · intro unmaps
    exact absurd unmaps maps
  · intro j _
    by_cases same : j = i
    · apply Or.inl
      rw [same, link_directory_self, tableFlags, tableFlags,
        if_pos (newPageTable_isTable fresh.aligned),
        PTEntry.newPageTable_flags fresh.aligned, notTable]
      rfl
    · exact Or.inl (by rw [elsewhere j same])
  · intro vaddr page relied
    apply elsewhere
    intro same
    rw [notMidway vaddr page same] at relied
    cases relied
  · intro _ otherFrame holds otherFresh
    have different : otherFrame ≠ frame := by
      intro equal
      exact notHeld (equal ▸ holds)
    constructor
    · rw [← shape]
      apply otherFresh.write_directory
      intro _
      rw [newPageTable_frame fresh.aligned fresh.bounded]
      exact different.symm
    · intro index
      exact link_of_frame_ne before i otherFresh.ne_root different index

/-- Unlinking a table in which nothing is mapped. -/
theorem unlink (wf : WellFormed before root) {i : Nat}
    (table : (before root i).isTable = true) (unmaps : other.page = none)
    (empty : ∀ query < 0x100000000, dirIndex query = i → query ∉ other.touched →
      walk before root query = none)
    (notMidway : ∀ vaddr, own.page = some vaddr → dirIndex vaddr = i →
      midway pending = false) :
    Tolerated root own other pending before (before.write root i unlinkedEntry) := by
  have here : before.write root i unlinkedEntry root i = unlinkedEntry :=
    Memory.write_self before root i unlinkedEntry
  have elsewhere : ∀ j, j ≠ i → before.write root i unlinkedEntry root j = before root j :=
    fun j different => Memory.write_of_index_ne before root root unlinkedEntry different
  have gone : ∀ query, dirIndex query = i →
      walk (before.write root i unlinkedEntry) root query = none := by
    intro query selected
    apply walk_of_not_present
    rw [selected, here]
    decide
  constructor
  · exact wf.write_directory i unlinkedEntry_not_isTable
  · intro query bounded untouched
    by_cases selected : dirIndex query = i
    · rw [gone query selected, empty query bounded selected untouched]
    · exact walk_write_directory wf i unlinkedEntry selected
  · intro query _ _ free
    by_cases selected : dirIndex query = i
    · exact gone query selected
    · rw [walk_write_directory wf i unlinkedEntry selected, free]
  · intro j _ jPs
    apply elsewhere
    intro same
    rw [same, PTEntry.isTable_ps table] at jPs
    cases jPs
  · intro j _ _
    by_cases same : j = i
    · exact Or.inr ⟨unmaps, by rw [same, here]⟩
    · exact Or.inl (elsewhere j same)
  · intro _ j _ jTable
    by_cases same : j = i
    · rw [same]
      exact table
    · rw [elsewhere j same] at jTable
      exact jTable
  · intro j _
    by_cases same : j = i
    · apply Or.inr
      rw [same, here]
      decide
    · exact Or.inl (by rw [elsewhere j same])
  · intro vaddr page relied
    apply elsewhere
    intro same
    rw [notMidway vaddr page same] at relied
    cases relied
  · intro _ frame _ fresh
    have notLinked : unlinkedEntry.isTable = true → unlinkedEntry.frame ≠ frame := by
      rw [unlinkedEntry_not_isTable]
      nofun
    refine ⟨fresh.write_directory i notLinked, ?_⟩
    intro index
    exact Memory.write_of_frame_ne before i unlinkedEntry fresh.ne_root index

end Tolerated

/-! ## The steps of a run -/

/-- When a directory entry may be written while `other` runs with an operation
pending. -/
structure DirectoryWriteAllowed (root : Nat) (other : PageCall)
    (pending : Option PagingOp) (memory : Memory) (vaddr : Nat)
    (entry : PageTableEntry PageTableLevel) : Prop where
  /-- No `map_page` has read the entry without being done -/
  notRelied : ∀ target, other.page = some target → dirIndex target = dirIndex vaddr →
    midway pending = false
  /-- A table is not unlinked after the other call has mapped its page in it -/
  notLost : ∀ target, other.page = some target → dirIndex target = dirIndex vaddr →
    (∃ paddr flags, entry = .page paddr flags) → walk memory root target = none
  /-- A frame that is linked was not given to the other call as well -/
  notHeld : ∀ table, entry = .level table → heldFrame pending ≠ some table.paddr

section Protocol

variable {A : Type} [PageAllocatorTrait PageSize A]

/-- When a call may perform an operation while `other` runs with an operation
pending. -/
def StepAllowed (root : Nat) (other : PageCall) (pending : Option PagingOp)
    (state : State A) : PagingOp → Prop
  | .newSublevel _ => ∀ frame allocator,
      PageAllocatorTrait.alloc state.allocator PageSize.size4K = (some frame, allocator) →
        FreshFrame state.memory root frame ∧ heldFrame pending ≠ some frame
  | .setEntry level vaddr entry => level.paddr = root →
      DirectoryWriteAllowed root other pending state.memory vaddr entry
  | _ => True

/-- Two calls on the address space at `root`. -/
def callProtocol (A : Type) [PageAllocatorTrait PageSize A] (root : Nat)
    (calls : Bool → PageCall) :
    Protocol (pageTableSig PageTableLevel PageSize) Bool (State A) where
  handler := handler
  rely who pending before after :=
    Tolerated root (calls who) (calls !who) pending before.memory after.memory
  allowed pending state who op := StepAllowed root (calls !who) (pending !who) state op

variable {root : Nat} {calls : Bool → PageCall} {who : Bool} {α : Type}
  {post : α → State A → Prop}

/-- One operation of a call, under an assertion about memory that the other call
keeps. -/
theorem sound_operation (assertion : Memory → Prop) {op : PagingOp}
    {next : op.Answer → PagingM α} {state : State A} (holds : assertion state.memory)
    (stable : ∀ before after, assertion before →
      Tolerated root (calls who) (calls !who) (some op) before after → assertion after)
    (step : ∀ current : State A, assertion current.memory → ∀ pending,
      StepAllowed root (calls !who) pending current op →
        ∀ answer after, handler op current = some (answer, after) →
          Tolerated root (calls !who) (calls who) pending current.memory after.memory ∧
            (callProtocol A root calls).Sound who post (next answer) after) :
    (callProtocol A root calls).Sound who post (.call op next) state := by
  refine Protocol.sound_call_of_stable (fun current => assertion current.memory) holds
    ?_ ?_
  · intro before after held change
    exact stable _ _ held change
  · intro current held pending allowed answer after handled
    have stepped := step current held (pending !who) allowed answer after handled
    refine ⟨?_, stepped.2⟩
    intro other different
    rw [Bool.eq_not.mpr different]
    have change := stepped.1
    simpa only [callProtocol, Bool.not_not] using change

/-- Reading an entry. -/
theorem sound_getEntry (assertion : Memory → Prop) {self : PageTableLevel} {vaddr : Nat}
    {next : PageTableEntry PageTableLevel → PagingM α} {state : State A}
    (holds : assertion state.memory)
    (wf : ∀ memory, assertion memory → WellFormed memory root)
    (stable : ∀ before after, assertion before → Tolerated root (calls who) (calls !who)
      (some (.getEntry self vaddr)) before after → assertion after)
    (continues : ∀ current : State A, assertion current.memory →
      (callProtocol A root calls).Sound who post
        (next (self.decode (current.memory self.paddr (self.index vaddr)))) current) :
    (callProtocol A root calls).Sound who post (getEntry self vaddr >>= next) state := by
  apply sound_operation assertion holds stable
  intro current held pending _ answer after handled
  obtain ⟨rfl, rfl⟩ := handler_getEntry_cases handled
  exact ⟨Tolerated.refl (wf _ held), continues _ held⟩

/-- Freeing a frame or a table, which changes no memory. -/
theorem sound_free (assertion : Memory → Prop) {addr : Nat} {size : PageSize}
    {next : Unit → PagingM α} {state : State A} (holds : assertion state.memory)
    (wf : ∀ memory, assertion memory → WellFormed memory root)
    (stable : ∀ before after, assertion before → Tolerated root (calls who) (calls !who)
      (some (.free addr size)) before after → assertion after)
    (continues : ∀ current : State A, assertion current.memory →
      (callProtocol A root calls).Sound who post (next ()) current) :
    (callProtocol A root calls).Sound who post (free addr size >>= next) state := by
  apply sound_operation assertion holds stable
  intro current held pending _ answer after handled
  cases handled
  exact ⟨Tolerated.refl (wf _ held), continues _ held⟩

theorem sound_freeSublevel (assertion : Memory → Prop) {self sublevel : PageTableLevel}
    {next : Unit → PagingM α} {state : State A} (holds : assertion state.memory)
    (wf : ∀ memory, assertion memory → WellFormed memory root)
    (stable : ∀ before after, assertion before → Tolerated root (calls who) (calls !who)
      (some (.freeSublevel self sublevel)) before after → assertion after)
    (continues : ∀ current : State A, assertion current.memory →
      (callProtocol A root calls).Sound who post (next ()) current) :
    (callProtocol A root calls).Sound who post (freeSublevel self sublevel >>= next)
      state := by
  apply sound_operation assertion holds stable
  intro current held pending _ answer after handled
  cases handled
  exact ⟨Tolerated.refl (wf _ held), continues _ held⟩

end Protocol

end SatanKernel.X86
