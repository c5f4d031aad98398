import SatanKernel.X86.ConcurrentCalls

/-!
# `map_page` beside another call

Between reading its directory entry and writing its page, `map_page` relies on that
entry and on the frame it has allocated for a new table.  If the other call leaves both
alone, the page translates as asked when `map_page` returns, and from then on.
-/

namespace SatanKernel.X86

open Lib NestedPageTableLevel

variable {A : Type} [PageAllocatorTrait PageSize A] {root : Nat}
  {calls : Bool → PageCall} {who : Bool} {vaddr paddr : Nat} {flags : MappingFlags}

/-- The page of a `map_page` call translates as asked, under the permissions of the
directory entry `initial`. -/
def PageMapped (root : Nat) (initial : PTEntry) (vaddr paddr : Nat) (flags : MappingFlags)
    (memory : Memory) : Prop :=
  ∀ query < 0x100000000, query / 0x1000 = vaddr / 0x1000 →
    walk memory root query = pageTranslation initial vaddr paddr .size4K flags query

/-- The directory entry of a page grants what it granted initially, unless it can no
longer be used for a table. -/
def EntryKept (root : Nat) (initial : PTEntry) (vaddr : Nat) (memory : Memory) : Prop :=
  tableFlags (memory root (dirIndex vaddr)) = tableFlags initial ∨
    (memory root (dirIndex vaddr)).flags.ps = true

theorem EntryKept.tolerated {initial : PTEntry} {own other : PageCall}
    {pending : Option PagingOp} {before after : Memory}
    (kept : EntryKept root initial vaddr before)
    (change : Tolerated root own other pending before after) :
    EntryKept root initial vaddr after := by
  cases kept with
  | inl same =>
      cases change.flags _ (dirIndex_lt vaddr) with
      | inl unchanged => exact Or.inl (unchanged.trans same)
      | inr ps => exact Or.inr ps
  | inr ps =>
      apply Or.inr
      rw [change.ps _ (dirIndex_lt vaddr) ps, ps]

/-- The last step: writing the page into the table of its directory entry. -/
theorem sound_mapPage_pageTable (call : calls who = .mapPage vaddr paddr flags)
    (vaddrBound : vaddr < 0x100000000) (onPage : vaddr % 0x1000 = 0)
    (paddrBound : paddr < 0x100000000) (paddrAligned : paddr % 0x1000 = 0)
    {initial entry : PTEntry} (table : entry.isTable = true)
    (grants : entry.flags = tableFlags initial) {state : State A}
    (wf : WellFormed state.memory root)
    (present : state.memory root (dirIndex vaddr) = entry) :
    (callProtocol A root calls).Sound who
      (fun _ after => PageMapped root initial vaddr paddr flags after.memory)
      (mapPage 1 (pageTable entry.frame) vaddr paddr PageSize.size4K flags) state := by
  have inside := dirIndex_lt vaddr
  have page : (calls who).page = some vaddr := by
    rw [call]
    rfl
  simp only [mapPage, pageSize_pageTable, if_true]
  apply sound_operation (fun memory => WellFormed memory root ∧
    memory root (dirIndex vaddr) = entry) ⟨wf, present⟩
  · intro before after held change
    exact ⟨change.wellFormed, (change.directory vaddr page rfl).trans held.2⟩
  · intro current held pending _ answer after handled
    have linked : (current.memory root (dirIndex vaddr)).isTable = true := by
      rw [held.2, table]
    rw [handler_setEntry_pageTable current (PTEntry.frame_aligned entry) onPage] at handled
    cases handled
    have selects : ∀ query < 0x100000000, dirIndex query = dirIndex vaddr →
        tableIndex query = tableIndex vaddr → query ∈ (calls who).mapped := by
      intro query bounded sameDirectory sameTable
      rw [PageCall.mapped_of_page page]
      exact (indices_eq_iff bounded vaddrBound).mp ⟨sameDirectory, sameTable⟩
    constructor
    · exact Tolerated.write_table held.1 inside held.2 table _ _
        (fun query bounded first second => Or.inl (selects query bounded first second))
        (fun query bounded first second => Or.inl (selects query bounded first second))
    · apply Protocol.sound_ret.mpr
      intro query bounded samePage
      have walked := walk_write_table held.1 inside linked (tableIndex vaddr)
        (leafEntry paddr flags) query
      rw [held.2] at walked
      have selected : dirIndex query = dirIndex vaddr ∧ tableIndex query = tableIndex vaddr :=
        (indices_eq_iff bounded vaddrBound).mpr samePage
      rw [if_pos selected] at walked
      exact walked.trans (walkEntries_leafEntry table grants paddrBound paddrAligned onPage
        samePage)

/-- Once the table is found, the last step remains. -/
def MapsBelow (root : Nat) (calls : Bool → PageCall) (who : Bool) (initial : PTEntry)
    (vaddr paddr : Nat) (flags : MappingFlags) (level : PageTableLevel) (state : State A) :
    Prop :=
  (callProtocol A root calls).Sound who
    (fun _ after => PageMapped root initial vaddr paddr flags after.memory)
    (mapPage 1 level vaddr paddr PageSize.size4K flags) state

/-- Linking the allocated table. -/
theorem sound_link (call : calls who = .mapPage vaddr paddr flags)
    (vaddrBound : vaddr < 0x100000000) (onPage : vaddr % 0x1000 = 0)
    (paddrBound : paddr < 0x100000000) (paddrAligned : paddr % 0x1000 = 0)
    {initial entry : PTEntry} (absent : entry.flags.p = false)
    (kept : tableFlags entry = tableFlags initial ∨ entry.flags.ps = true)
    {state : State A} {frame : Nat} (wf : WellFormed state.memory root)
    (read : state.memory root (dirIndex vaddr) = entry)
    (fresh : FreshFrame state.memory root frame)
    (empty : ∀ index < 0x400, state.memory frame index = .NULL) :
    (callProtocol A root calls).Sound who
      (MapsBelow root calls who initial vaddr paddr flags)
      (do
        setEntry (directory root) vaddr (.level (pageTable frame))
        pure (pageTable frame)) state := by
  have inside := dirIndex_lt vaddr
  have page : (calls who).page = some vaddr := by
    rw [call]
    rfl
  have maps : (calls who).page ≠ none := by
    rw [page]
    exact Option.some_ne_none vaddr
  apply sound_operation (fun memory => WellFormed memory root ∧
    memory root (dirIndex vaddr) = entry ∧ FreshFrame memory root frame ∧
      ∀ index < 0x400, memory frame index = .NULL) ⟨wf, read, fresh, empty⟩
  · intro before after held change
    have keeps := change.held maps frame rfl held.2.2.1
    refine ⟨change.wellFormed, (change.directory vaddr page rfl).trans held.2.1, keeps.1, ?_⟩
    intro index bound
    rw [keeps.2, held.2.2.2 index bound]
  · intro current held pending allowed answer after handled
    obtain ⟨wf, read, fresh, empty⟩ := held
    cases ps : entry.flags.ps with
    | true =>
        rw [handler_setEntry_directory_refused current wf.root_aligned _ (Or.inr ⟨_, rfl⟩)
          (by rw [read, ps])] at handled
        cases handled
        exact ⟨Tolerated.refl wf, Protocol.sound_throw⟩
    | false =>
        rw [handler_setEntry_directory_level current wf.root_aligned _
          (by rw [read, ps])] at handled
        cases handled
        have writes := allowed rfl
        have change : Tolerated root (calls !who) (calls who) pending current.memory
            (current.memory.write root (dirIndex vaddr) (.newPageTable frame)) :=
          Tolerated.link wf fresh empty (by rw [read, absent]) (by rw [read, ps]) maps
            (writes.notHeld _ rfl) writes.notRelied
        refine ⟨change, ?_⟩
        have grants : (PTEntry.newPageTable frame).flags = tableFlags initial := by
          rw [← kept.resolve_right (by rw [ps]; decide), tableFlags,
            PTEntry.not_present_not_isTable absent,
            PTEntry.newPageTable_flags fresh.aligned]
          rfl
        have written : MapsBelow root calls who initial vaddr paddr flags
            (pageTable (PTEntry.newPageTable frame).frame)
            ⟨current.memory.write root (dirIndex vaddr) (.newPageTable frame),
              current.allocator⟩ :=
          sound_mapPage_pageTable call vaddrBound onPage paddrBound paddrAligned
            (newPageTable_isTable fresh.aligned) grants change.wellFormed
            (Memory.write_self _ _ _ _)
        rw [newPageTable_frame fresh.aligned fresh.bounded] at written
        exact Protocol.sound_ret.mpr written

/-- Allocating a table for a directory entry that is not present. -/
theorem sound_newTable (call : calls who = .mapPage vaddr paddr flags)
    (vaddrBound : vaddr < 0x100000000) (onPage : vaddr % 0x1000 = 0)
    (paddrBound : paddr < 0x100000000) (paddrAligned : paddr % 0x1000 = 0)
    {initial entry : PTEntry} (absent : entry.flags.p = false)
    (kept : tableFlags entry = tableFlags initial ∨ entry.flags.ps = true)
    {state : State A} (wf : WellFormed state.memory root)
    (read : state.memory root (dirIndex vaddr) = entry) :
    (callProtocol A root calls).Sound who
      (MapsBelow root calls who initial vaddr paddr flags)
      (do
        let level ← newSublevel (directory root)
        setEntry (directory root) vaddr (.level level)
        pure level) state := by
  have page : (calls who).page = some vaddr := by
    rw [call]
    rfl
  apply sound_operation (fun memory => WellFormed memory root ∧
    memory root (dirIndex vaddr) = entry) ⟨wf, read⟩
  · intro before after held change
    exact ⟨change.wellFormed, (change.directory vaddr page rfl).trans held.2⟩
  · intro current held pending allowed answer after handled
    obtain ⟨wf, read⟩ := held
    rcases handler_newSublevel_cases handled with
      ⟨allocator, -, rfl, rfl⟩ | ⟨frame, allocator, allocated, -, rfl, rfl⟩
    · exact ⟨Tolerated.refl wf, Protocol.sound_throw⟩
    · obtain ⟨fresh, notHeld⟩ := allowed frame allocator allocated
      have change : Tolerated root (calls !who) (calls who) pending current.memory
          (current.memory.clear frame) := Tolerated.clear wf fresh notHeld
      have same : ∀ i, current.memory.clear frame root i = current.memory root i :=
        fun i => Memory.clear_of_frame_ne _ (Ne.symm fresh.ne_root) i
      refine ⟨change, ?_⟩
      exact sound_link call vaddrBound onPage paddrBound paddrAligned absent kept
        change.wellFormed ((same _).trans read) (fresh.of_directory_eq fun i _ => same i)
        fun index bound => Memory.clear_self _ _ bound

/-- A `map_page` call has mapped its page when it returns. -/
theorem sound_mapPage (call : calls who = .mapPage vaddr paddr flags)
    (vaddrBound : vaddr < 0x100000000) (onPage : vaddr % 0x1000 = 0)
    (paddrBound : paddr < 0x100000000) (paddrAligned : paddr % 0x1000 = 0)
    {initial : PTEntry} {state : State A} (wf : WellFormed state.memory root)
    (kept : EntryKept root initial vaddr state.memory) :
    (callProtocol A root calls).Sound who
      (fun _ after => PageMapped root initial vaddr paddr flags after.memory)
      ((calls who).program root) state := by
  have inside := dirIndex_lt vaddr
  have unfolded : (calls who).program root =
      nextLevel (directory root) vaddr >>= fun level =>
        mapPage 1 level vaddr paddr PageSize.size4K flags := by
    rw [call]
    exact mapPage_directory_eq root vaddr paddr flags
  rw [unfolded]
  apply Protocol.sound_bind
  apply sound_getEntry (fun memory => WellFormed memory root ∧
    EntryKept root initial vaddr memory) ⟨wf, kept⟩ (fun memory held => held.1)
  · intro before after held change
    exact ⟨change.wellFormed, held.2.tolerated change⟩
  · intro current held
    obtain ⟨wf, kept⟩ := held
    rw [index_directory, decode_directory]
    rcases (current.memory root (dirIndex vaddr)).isTable_or with table | large | absent
    · rw [if_pos table, wf.table_address inside table]
      apply Protocol.sound_pure.mpr
      have grants : (current.memory root (dirIndex vaddr)).flags = tableFlags initial := by
        rw [← kept.resolve_right (by rw [PTEntry.isTable_ps table]; decide), tableFlags,
          if_pos table]
      exact sound_mapPage_pageTable call vaddrBound onPage paddrBound paddrAligned table
        grants wf rfl
    · have present := large
      simp only [PTEntry.isLarge, Bool.and_eq_true] at present
      simp only [PTEntry.isLarge_not_isTable large, Bool.false_eq_true, if_false,
        PTEFlags.toMapping, present.1, if_true]
      exact Protocol.sound_throw
    · simp only [PTEntry.not_present_not_isTable absent, Bool.false_eq_true, if_false,
        PTEFlags.toMapping, absent]
      exact sound_newTable call vaddrBound onPage paddrBound paddrAligned absent kept wf rfl

end SatanKernel.X86
