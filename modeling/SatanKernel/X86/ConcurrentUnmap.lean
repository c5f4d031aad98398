import Mathlib.Data.Set.BooleanAlgebra
import Mathlib.Order.CompletePartialOrder
import SatanKernel.X86.ConcurrentCalls

/-!
# `unmap_free` beside another call

While `unmap_free` works on the table of a region, the table stays linked or, if the
other call unmaps as well, may be unlinked by it.  In both cases nothing that has been
unmapped translates again, and a table that `unmap_free` unlinks itself holds nothing
but pages of the other call.
-/

namespace SatanKernel.X86

open Lib NestedPageTableLevel

/-- Nothing in a set of addresses translates. -/
def Clear (root : Nat) (addresses : Set Nat) (memory : Memory) : Prop :=
  ∀ query < 0x100000000, query ∈ addresses → walk memory root query = none

section Clear

variable {root : Nat} {first second : Set Nat} {memory : Memory}

theorem Clear.mono (clear : Clear root second memory) (subset : first ⊆ second) :
    Clear root first memory :=
  fun query bounded inside => clear query bounded (subset inside)

theorem Clear.union (firstClear : Clear root first memory)
    (secondClear : Clear root second memory) : Clear root (first ∪ second) memory := by
  intro query bounded inside
  cases inside with
  | inl inFirst => exact firstClear query bounded inFirst
  | inr inSecond => exact secondClear query bounded inSecond

/-- What no page of the other call overlaps stays unmapped. -/
theorem Clear.tolerated {own other : PageCall} {pending : Option PagingOp} {after : Memory}
    (clear : Clear root first memory) (apart : Disjoint first other.mapped)
    (change : Tolerated root own other pending memory after) : Clear root first after := by
  intro query bounded inside
  exact change.stillFree query bounded (Set.disjoint_left.mp apart inside)
    (clear query bounded inside)

end Clear

/-- The table of a directory entry is still linked, or the other call has unlinked it. -/
def StillTable (root : Nat) (other : PageCall) (entry : PTEntry) (i : Nat)
    (memory : Memory) : Prop :=
  memory root i = entry ∨ (other.page = none ∧ memory root i = unlinkedEntry ∧
    ∀ j < 0x400, (memory root j).isTable = true → (memory root j).frame ≠ entry.frame)

theorem StillTable.tolerated {root i : Nat} {own other : PageCall} {entry : PTEntry}
    {pending : Option PagingOp} {before after : Memory} (wf : WellFormed before root)
    (inside : i < 0x400) (table : entry.isTable = true)
    (still : StillTable root other entry i before)
    (change : Tolerated root own other pending before after) :
    StillTable root other entry i after := by
  have survives : other.page = none → ∀ j < 0x400, (after root j).isTable = true →
      (before root j).isTable = true ∧ after root j = before root j := by
    intro unmaps j jInside jTable
    have was := change.linked unmaps j jInside jTable
    cases change.table j jInside was with
    | inl same => exact ⟨was, same⟩
    | inr unlinked =>
        rw [unlinked.2, unlinkedEntry_not_isTable] at jTable
        cases jTable
  cases still with
  | inl linked =>
      cases change.table i inside (by rw [linked, table]) with
      | inl same => exact Or.inl (same.trans linked)
      | inr unlinked =>
          refine Or.inr ⟨unlinked.1, unlinked.2, ?_⟩
          intro j jInside jTable equal
          obtain ⟨was, same⟩ := survives unlinked.1 j jInside jTable
          rw [same] at equal
          have own : (before root i).isTable = true := by rw [linked, table]
          have sameIndex := wf.table_injective j jInside i inside was own
            (by rw [equal, linked])
          rw [sameIndex, unlinked.2, unlinkedEntry_not_isTable] at jTable
          cases jTable
  | inr gone =>
      refine Or.inr ⟨gone.1, ?_, ?_⟩
      · rw [change.ps i inside (by rw [gone.2.1]; decide), gone.2.1]
      · intro j jInside jTable
        obtain ⟨was, same⟩ := survives gone.1 j jInside jTable
        rw [same]
        exact gone.2.2 j jInside was

theorem StillTable.of_directory_eq {root i : Nat} {other : PageCall} {entry : PTEntry}
    {before after : Memory} (still : StillTable root other entry i before)
    (same : ∀ j, after root j = before root j) : StillTable root other entry i after := by
  cases still with
  | inl linked => exact Or.inl ((same i).trans linked)
  | inr gone =>
      refine Or.inr ⟨gone.1, (same i).trans gone.2.1, ?_⟩
      intro j inside
      rw [same j]
      exact gone.2.2 j inside

/-- What `unmap_free` knows while it works on the table of a region. -/
structure Visiting (root : Nat) (other : PageCall) (entry : PTEntry) (i : Nat)
    (cleared : Set Nat) (memory : Memory) : Prop where
  wf : WellFormed memory root
  notRoot : entry.frame ≠ root
  still : StillTable root other entry i memory
  clear : Clear root cleared memory

theorem Visiting.tolerated {root i : Nat} {own other : PageCall} {entry : PTEntry}
    {pending : Option PagingOp} {cleared : Set Nat} {before after : Memory}
    (inside : i < 0x400) (table : entry.isTable = true)
    (apart : Disjoint cleared other.mapped)
    (visiting : Visiting root other entry i cleared before)
    (change : Tolerated root own other pending before after) :
    Visiting root other entry i cleared after :=
  ⟨change.wellFormed, visiting.notRoot,
    visiting.still.tolerated visiting.wf inside table change, visiting.clear.tolerated
      apart change⟩

/-- The addresses of a page. -/
def pageAddresses (page : Nat) : Set Nat := {query | query / 0x1000 = page / 0x1000}

/-- The addresses of several pages or regions. -/
def gathered (part : Nat → Set Nat) (items : List Nat) : Set Nat :=
  {query | ∃ item ∈ items, query ∈ part item}

@[simp] theorem gathered_nil (part : Nat → Set Nat) : gathered part [] = ∅ := by
  ext query
  simp [gathered]

theorem gathered_append_singleton (part : Nat → Set Nat) (items : List Nat) (item : Nat) :
    gathered part (items ++ [item]) = gathered part items ∪ part item := by
  ext query
  simp only [gathered, List.mem_append, List.mem_singleton, Set.mem_union,
    Set.mem_ofPred_eq]
  constructor
  · intro found
    obtain ⟨other, member | equal, inside⟩ := found
    · exact Or.inl ⟨other, member, inside⟩
    · exact Or.inr (equal ▸ inside)
  · intro found
    cases found with
    | inl earlier =>
        obtain ⟨other, member, inside⟩ := earlier
        exact ⟨other, Or.inl member, inside⟩
    | inr here => exact ⟨item, Or.inr rfl, here⟩

/-- Where the entry of a page is not present, nothing of the page translates. -/
theorem Visiting.clear_page {root : Nat} {other : PageCall} {entry : PTEntry}
    {cleared : Set Nat} {memory : Memory} {page : Nat} (table : entry.isTable = true)
    (visiting : Visiting root other entry (dirIndex page) cleared memory)
    (absent : (memory entry.frame (tableIndex page)).flags.p = false) :
    Clear root (pageAddresses page) memory := by
  intro query _ samePage
  have directorySame : dirIndex query = dirIndex page := by
    have : query / 0x1000 = page / 0x1000 := samePage
    unfold dirIndex
    omega
  have tableSame : tableIndex query = tableIndex page := by
    have : query / 0x1000 = page / 0x1000 := samePage
    unfold tableIndex
    omega
  cases visiting.still with
  | inl linked =>
      rw [walk_of_table (by rw [directorySame, linked, table])]
      simp only [directorySame, tableSame, linked, absent]
      rfl
  | inr gone =>
      apply walk_of_not_present
      rw [directorySame, gone.2.1]
      decide

/-! ## Unmapping pages of a table -/

section Sound

variable {A : Type} [PageAllocatorTrait PageSize A] {root : Nat}
  {calls : Bool → PageCall} {who : Bool} {entry : PTEntry} {page : Nat} {cleared : Set Nat}

/-- Clearing the entry of a page. -/
theorem sound_clearPage (unmaps : (calls who).page = none) (table : entry.isTable = true)
    (onPage : page % 0x1000 = 0) (bounded : page < 0x100000000)
    (covered : pageAddresses page ⊆ (calls who).unmapped)
    (apart : Disjoint cleared (calls !who).mapped) {state : State A}
    (visiting : Visiting root (calls !who) entry (dirIndex page) cleared state.memory) :
    (callProtocol A root calls).Sound who
      (fun _ after => Visiting root (calls !who) entry (dirIndex page)
        (cleared ∪ pageAddresses page) after.memory)
      (setEntry (pageTable entry.frame) page .NULL) state := by
  have inside := dirIndex_lt page
  apply sound_operation (Visiting root (calls !who) entry (dirIndex page) cleared) visiting
  · intro before after held change
    exact held.tolerated inside table apart change
  · intro current held pending _ answer after handled
    rw [PageTableEntry.NULL, handler_setEntry_pageTable current
      (PTEntry.frame_aligned entry) onPage, PTEntry.newPage_null_4K] at handled
    cases handled
    have selects : ∀ query < 0x100000000, dirIndex query = dirIndex page →
        tableIndex query = tableIndex page → query ∈ (calls who).touched := by
      intro query queryBound sameDirectory sameTable
      exact Or.inr (covered ((indices_eq_iff queryBound bounded).mp
        ⟨sameDirectory, sameTable⟩))
    have change : Tolerated root (calls !who) (calls who) pending current.memory
        (current.memory.write entry.frame (tableIndex page) .NULL) := by
      cases held.still with
      | inl linked =>
          exact Tolerated.write_table held.wf inside linked table _ _ selects
            fun _ _ _ _ => Or.inr rfl
      | inr gone => exact Tolerated.write_detached held.wf held.notRoot gone.2.2 _ _ gone.1
    have mapsNothing : Disjoint cleared (calls who).mapped := by
      rw [PageCall.mapped_of_unmaps unmaps]
      exact Set.disjoint_empty cleared
    have after : Visiting root (calls !who) entry (dirIndex page) cleared
        (current.memory.write entry.frame (tableIndex page) .NULL) :=
      ⟨change.wellFormed, held.notRoot,
        held.still.of_directory_eq fun j =>
          Memory.write_of_frame_ne _ _ _ (Ne.symm held.notRoot) j,
        held.clear.tolerated mapsNothing change⟩
    refine ⟨change, Protocol.sound_ret.mpr ⟨after.wf, after.notRoot, after.still, ?_⟩⟩
    exact after.clear.union (after.clear_page table (by rw [Memory.write_self]; rfl))

/-- One iteration of the loop over the pages of a table. -/
theorem sound_unmapPage (unmaps : (calls who).page = none) (table : entry.isTable = true)
    (recurse : PageTableLevel → Nat → Nat → PagingM Unit) {lo length : Nat}
    (onPage : page % 0x1000 = 0) (pageBound : page + 0x1000 < 0x100000000)
    (rangeBound : lo + length < 0x100000000)
    (covered : pageAddresses page ⊆ (calls who).unmapped)
    (apart : Disjoint cleared (calls !who).mapped) {state : State A}
    (visiting : Visiting root (calls !who) entry (dirIndex page) cleared state.memory) :
    (callProtocol A root calls).Sound who
      (fun _ after => Visiting root (calls !who) entry (dirIndex page)
        (cleared ∪ pageAddresses page) after.memory)
      (unmapRegion recurse (pageTable entry.frame) lo length page) state := by
  have inside := dirIndex_lt page
  obtain ⟨next, code, onWord⟩ := unmapPage_eq recurse entry.frame pageBound rangeBound
  rw [code]
  apply sound_getEntry (Visiting root (calls !who) entry (dirIndex page) cleared) visiting
    (fun memory held => held.wf)
  · intro before after held change
    exact held.tolerated inside table apart change
  · intro current held
    rw [index_pageTable, onWord, unmapLeaf]
    split
    next present =>
      split
      next => exact Protocol.sound_throw
      next =>
        rw [freePage, pageSize_pageTable]
        apply sound_free (Visiting root (calls !who) entry (dirIndex page) cleared) held
          (fun memory held => held.wf)
        · intro before after held change
          exact held.tolerated inside table apart change
        · intro current held
          exact sound_clearPage unmaps table onPage (by omega) covered apart held
    next absent =>
      have absent : (current.memory entry.frame (tableIndex page)).flags.p = false :=
        Bool.not_eq_true _ ▸ absent
      exact Protocol.sound_pure.mpr ⟨held.wf, held.notRoot, held.still,
        held.clear.union (held.clear_page table absent)⟩

/-- The loop over pages of one region. -/
theorem sound_unmapPages (unmaps : (calls who).page = none) (table : entry.isTable = true)
    (recurse : PageTableLevel → Nat → Nat → PagingM Unit) {lo length i : Nat}
    (rangeBound : lo + length < 0x100000000) {pages : List Nat}
    (inside : ∀ page ∈ pages, page % 0x1000 = 0 ∧ page + 0x1000 < 0x100000000)
    (region : ∀ page ∈ pages, dirIndex page = i)
    (covered : ∀ page ∈ pages, pageAddresses page ⊆ (calls who).unmapped)
    (unmappedApart : Disjoint (calls who).unmapped (calls !who).mapped)
    (apart : Disjoint cleared (calls !who).mapped) {state : State A}
    (visiting : Visiting root (calls !who) entry i cleared state.memory) :
    (callProtocol A root calls).Sound who
      (fun _ after => Visiting root (calls !who) entry i (cleared ∪ gathered pageAddresses pages)
        after.memory)
      (Program.forEach pages (unmapRegion recurse (pageTable entry.frame) lo length))
      state := by
  have doneApart : ∀ done : List Nat, (∀ page ∈ done, page ∈ pages) →
      Disjoint (cleared ∪ gathered pageAddresses done) (calls !who).mapped := by
    intro done within
    rw [Set.disjoint_union_left]
    refine ⟨apart, unmappedApart.mono_left ?_⟩
    intro query found
    obtain ⟨page, member, inPage⟩ := found
    exact covered page (within page member) inPage
  have start : (∀ page ∈ ([] : List Nat), page ∈ pages) ∧
      Visiting root (calls !who) entry i (cleared ∪ gathered pageAddresses []) state.memory := by
    simpa using visiting
  refine (Protocol.sound_forEach (fun (done : List Nat) (current : State A) =>
    (∀ page ∈ done, page ∈ pages) ∧
      Visiting root (calls !who) entry i (cleared ∪ gathered pageAddresses done) current.memory)
    start ?_).mono fun _ after final => final.2
  intro page member done current held
  obtain ⟨within, visiting⟩ := held
  have bounds := inside page member
  have here := region page member
  subst here
  apply (sound_unmapPage unmaps table recurse bounds.1 bounds.2 rangeBound
    (covered page member) (doneApart done within) visiting).mono
  intro _ after final
  refine ⟨?_, ?_⟩
  · intro other otherMember
    cases List.mem_append.mp otherMember with
    | inl earlier => exact within other earlier
    | inr last =>
        rw [List.mem_singleton.mp last]
        exact member
  · rw [gathered_append_singleton, ← Set.union_assoc]
    exact final

/-! ## The scan and the unlinking of a table -/

/-- The addresses of a 4 MiB region. -/
def regionAddresses (region : Nat) : Set Nat :=
  {query | region ≤ query ∧ query < region + 0x400000}

theorem mem_regionAddresses {region query : Nat} (onRegion : region % 0x400000 = 0)
    (regionBound : region < 0x100000000) (queryBound : query < 0x100000000)
    (selected : dirIndex query = dirIndex region) : query ∈ regionAddresses region := by
  rw [dirIndex_eq_iff queryBound regionBound] at selected
  change region ≤ query ∧ query < region + 0x400000
  omega

/-- The scan for mapped entries.  If it finds none, the region translates nowhere but,
perhaps, in the page of the other call. -/
theorem sound_anyMapped (calls : Bool → PageCall) (who : Bool)
    (table : entry.isTable = true) {region : Nat}
    (onRegion : region % 0x400000 = 0) (bounded : region + 0x400000 < 0x100000000)
    (apart : Disjoint cleared (calls !who).mapped) {state : State A}
    (visiting : Visiting root (calls !who) entry (dirIndex region) cleared state.memory) :
    (callProtocol A root calls).Sound who
      (fun found after => Visiting root (calls !who) entry (dirIndex region)
        (if found then cleared
          else cleared ∪ regionAddresses region \ (calls !who).mapped)
        after.memory)
      (anyMapped region 0x400000 (pageTable entry.frame)) state := by
  have inside := dirIndex_lt region
  have doneApart : ∀ done : List Nat,
      Disjoint (cleared ∪ gathered pageAddresses done \ (calls !who).mapped)
        (calls !who).mapped := by
    intro done
    rw [Set.disjoint_union_left]
    exact ⟨apart, Set.disjoint_sdiff_left⟩
  have start : Visiting root (calls !who) entry (dirIndex region)
      (cleared ∪ gathered pageAddresses [] \ (calls !who).mapped) state.memory := by
    simpa using visiting
  rw [anyMapped, checkedAdd_of_lt bounded, Program.ret_bind, regionSize_pageTable]
  refine (Protocol.sound_anyOf (fun (done : List Nat) (current : State A) =>
    Visiting root (calls !who) entry (dirIndex region)
      (cleared ∪ gathered pageAddresses done \ (calls !who).mapped) current.memory)
    (fun current => Visiting root (calls !who) entry (dirIndex region) cleared
      current.memory) start ?_).mono ?_
  · intro entryAddr member done current held
    rw [mem_scan onRegion] at member
    have here : dirIndex entryAddr = dirIndex region :=
      dirIndex_of_region onRegion member.2.1 member.2.2
    apply sound_getEntry (Visiting root (calls !who) entry (dirIndex region)
      (cleared ∪ gathered pageAddresses done \ (calls !who).mapped)) held
      (fun memory held => held.wf)
    · intro before after held change
      exact held.tolerated inside table (doneApart done) change
    · intro current held
      rw [index_pageTable, decode_mapped]
      apply Protocol.sound_pure.mpr
      cases mapped : (current.memory entry.frame (tableIndex entryAddr)).isMapped with
      | true =>
          exact ⟨held.wf, held.notRoot, held.still, held.clear.mono Set.subset_union_left⟩
      | false =>
          have absent : (current.memory entry.frame (tableIndex entryAddr)).flags.p =
              false := by
            simp only [PTEntry.isMapped, Bool.or_eq_false_iff] at mapped
            exact mapped.1
          have pageClear := (here ▸ held : Visiting root (calls !who) entry
            (dirIndex entryAddr) _ current.memory).clear_page table absent
          refine ⟨held.wf, held.notRoot, held.still, ?_⟩
          apply (held.clear.union pageClear).mono
          rw [gathered_append_singleton, Set.union_sdiff_distrib, ← Set.union_assoc]
          exact Set.union_subset_union_right _ Set.sdiff_subset
  · intro found after final
    cases found with
    | true => exact final
    | false =>
        refine ⟨final.wf, final.notRoot, final.still, ?_⟩
        intro query queryBound inQuery
        apply final.clear query queryBound
        cases inQuery with
        | inl earlier => exact Or.inl earlier
        | inr inRegion =>
            refine Or.inr ⟨⟨query / 0x1000 * 0x1000, ?_, ?_⟩, inRegion.2⟩
            · have within : region ≤ query ∧ query < region + 0x400000 := inRegion.1
              rw [mem_scan onRegion]
              omega
            · change query / 0x1000 = query / 0x1000 * 0x1000 / 0x1000
              omega

/-- A region translates nowhere if all of it but the page of the other call is clear and the
other call has not mapped its page. -/
theorem Visiting.walk_none {other : PageCall} {memory : Memory} {region : Nat}
    (visiting : Visiting root other entry (dirIndex region) cleared memory)
    (onRegion : region % 0x400000 = 0) (regionBound : region < 0x100000000)
    (rest : regionAddresses region \ other.mapped ⊆ cleared)
    (notLost : ∀ target, other.page = some target → dirIndex target = dirIndex region →
      walk memory root target = none)
    {query : Nat} (bounded : query < 0x100000000)
    (selected : dirIndex query = dirIndex region) : walk memory root query = none := by
  by_cases others : query ∈ other.mapped
  · cases page : other.page with
    | none =>
        rw [PageCall.mapped_of_unmaps page] at others
        exact others.elim
    | some target =>
        rw [PageCall.mapped_of_page page] at others
        have sameRegion : dirIndex target = dirIndex region := by
          rw [← selected]
          unfold dirIndex
          omega
        exact walk_none_of_same_page others.symm (notLost target page sameRegion)
  · exact visiting.clear query bounded
      (rest ⟨mem_regionAddresses onRegion regionBound bounded selected, others⟩)

/-- Unlinking a table of which nothing but the page of the other call may be left. -/
theorem sound_unlinkSublevel (calls : Bool → PageCall) (who : Bool)
    (unmaps : (calls who).page = none) (table : entry.isTable = true) {region : Nat}
    (onRegion : region % 0x400000 = 0) (regionBound : region < 0x100000000)
    (rest : regionAddresses region \ (calls !who).mapped ⊆ cleared)
    (apart : Disjoint cleared (calls !who).mapped) {state : State A}
    (visiting : Visiting root (calls !who) entry (dirIndex region) cleared state.memory) :
    (callProtocol A root calls).Sound who
      (fun _ after => WellFormed after.memory root ∧ Clear root cleared after.memory)
      (unlinkSublevel (directory root) region (pageTable entry.frame)) state := by
  have inside := dirIndex_lt region
  rw [unlinkSublevel]
  apply sound_freeSublevel (Visiting root (calls !who) entry (dirIndex region) cleared)
    visiting (fun memory held => held.wf)
  · intro before after held change
    exact held.tolerated inside table apart change
  · intro current held
    apply sound_operation (Visiting root (calls !who) entry (dirIndex region) cleared) held
    · intro before after held change
      exact held.tolerated inside table apart change
    · intro current held pending allowed answer after handled
      have writes := allowed rfl
      cases held.still with
      | inr gone =>
          rw [handler_setEntry_directory_refused current held.wf.root_aligned _
            (Or.inl onRegion) (by rw [gone.2.1]; decide)] at handled
          cases handled
          exact ⟨Tolerated.refl held.wf, Protocol.sound_throw⟩
      | inl linked =>
          have isTable : (current.memory root (dirIndex region)).isTable = true := by
            rw [linked, table]
          rw [PageTableEntry.NULL, handler_setEntry_directory_page current
            held.wf.root_aligned onRegion _ _ (PTEntry.isTable_ps isTable),
            PTEntry.newPage_null_4M] at handled
          cases handled
          have notLost : ∀ target, (calls !who).page = some target →
              dirIndex target = dirIndex region → walk current.memory root target = none :=
            fun target page sameRegion =>
              writes.notLost target page sameRegion ⟨0, .empty, rfl⟩
          have empty : ∀ query < 0x100000000, dirIndex query = dirIndex region →
              query ∉ (calls who).touched → walk current.memory root query = none :=
            fun query bounded selected _ =>
              held.walk_none onRegion regionBound rest notLost bounded selected
          have change : Tolerated root (calls !who) (calls who) pending current.memory
              (current.memory.write root (dirIndex region) unlinkedEntry) :=
            Tolerated.unlink held.wf isTable unmaps empty writes.notRelied
          have mapsNothing : Disjoint cleared (calls who).mapped := by
            rw [PageCall.mapped_of_unmaps unmaps]
            exact Set.disjoint_empty cleared
          exact ⟨change, Protocol.sound_ret.mpr
            ⟨change.wellFormed, held.clear.tolerated mapsNothing change⟩⟩

/-! ## The regions of a call -/

variable {vaddr size region : Nat}

/-- The unmapped addresses of a region. -/
def unmappedIn (vaddr size region : Nat) : Set Nat :=
  {query | (vaddr ≤ query ∧ query < unmapEnd vaddr size) ∧ region ≤ query ∧
    query < region + 0x400000}

/-- Of an aligned range, the loop over a region unmaps whole pages. -/
theorem pageAddresses_subset (visits : Visits vaddr size region)
    (onPage : vaddr % 0x1000 = 0) (wholePages : size % 0x1000 = 0)
    (member : page ∈ partPages vaddr size region) :
    pageAddresses page ⊆ {query | vaddr ≤ query ∧ query < unmapEnd vaddr size} := by
  intro query samePage
  have same : query / 0x1000 = page / 0x1000 := samePage
  have inRegion := partPages_region visits member
  rw [mem_partPages] at member
  apply (part_iff visits (by omega) (by omega)).mp
  have onRegion := visits.onRegion
  by_cases head : region < vaddr
  · simp only [partStart, partEnd, if_pos head] at member ⊢
    omega
  · by_cases shorter : vaddr + size < region + 0x400000
    · simp only [partStart, partEnd, if_neg head, if_pos shorter] at member ⊢
      omega
    · simp only [partStart, partEnd, if_neg head, if_neg shorter] at member ⊢
      omega

theorem unmappedIn_subset (visits : Visits vaddr size region) :
    unmappedIn vaddr size region ⊆ gathered pageAddresses (partPages vaddr size region) := by
  intro query inside
  have part := (part_iff visits inside.2.1 inside.2.2).mpr inside.1
  refine ⟨query / 0x1000 * 0x1000, mem_partPages_of_part part.1 part.2, ?_⟩
  change query / 0x1000 = query / 0x1000 * 0x1000 / 0x1000
  omega

/-- The part of a region that is unmapped, by either of the two branches. -/
theorem sound_unmapFree_part (call : calls who = .unmapFree vaddr size)
    (onPage : vaddr % 0x1000 = 0) (wholePages : size % 0x1000 = 0)
    (unmappedApart : Disjoint (calls who).unmapped (calls !who).mapped)
    (visits : Visits vaddr size region) (table : entry.isTable = true)
    (apart : Disjoint cleared (calls !who).mapped) {state : State A}
    (visiting : Visiting root (calls !who) entry (dirIndex region) cleared state.memory) :
    (callProtocol A root calls).Sound who
      (fun _ after => Visiting root (calls !who) entry (dirIndex region)
        (cleared ∪ gathered pageAddresses (partPages vaddr size region)) after.memory)
      (unmapFree 1 (pageTable entry.frame) (partStart vaddr region)
        (partEnd vaddr size region - partStart vaddr region)) state := by
  have stop := partEnd_bounds visits
  have bound := visits.region_bound
  have unmaps : (calls who).page = none := by
    rw [call]
    rfl
  rw [unmapFree_part_eq visits]
  apply sound_unmapPages unmaps table _ (by omega) (partPages_bound visits)
  · intro page member
    have inRegion := partPages_region visits member
    exact dirIndex_of_region visits.onRegion inRegion.2.1 (by omega)
  · intro page member
    rw [call]
    exact pageAddresses_subset visits onPage wholePages member
  · exact unmappedApart
  · exact apart
  · exact visiting

/-- Nothing is mapped in a region whose directory entry is not present. -/
theorem clear_of_absent {memory : Memory} (visits : Visits vaddr size region)
    (absent : (memory root (dirIndex region)).flags.p = false) :
    Clear root (unmappedIn vaddr size region) memory := by
  intro query _ inside
  apply walk_of_not_present
  rw [dirIndex_of_region visits.onRegion inside.2.1 inside.2.2, absent]

/-- What a call knows between two regions. -/
def RegionsClear (root : Nat) (cleared : Set Nat) (memory : Memory) : Prop :=
  WellFormed memory root ∧ Clear root cleared memory

/-- A region whose directory entry is a table. -/
theorem sound_unmapTable (call : calls who = .unmapFree vaddr size)
    (onPage : vaddr % 0x1000 = 0) (wholePages : size % 0x1000 = 0)
    (unmappedApart : Disjoint (calls who).unmapped (calls !who).mapped)
    (visits : Visits vaddr size region) (table : entry.isTable = true)
    (apart : Disjoint cleared (calls !who).mapped) {state : State A}
    (visiting : Visiting root (calls !who) entry (dirIndex region) cleared state.memory) :
    (callProtocol A root calls).Sound who
      (fun _ after => RegionsClear root (cleared ∪ unmappedIn vaddr size region) after.memory)
      (unmapTable root entry.frame vaddr size region) state := by
  have unmaps : (calls who).page = none := by
    rw [call]
    rfl
  have bound := visits.region_bound
  have partApart : Disjoint (cleared ∪ gathered pageAddresses (partPages vaddr size region))
      (calls !who).mapped := by
    rw [Set.disjoint_union_left]
    refine ⟨apart, unmappedApart.mono_left ?_⟩
    intro query found
    obtain ⟨page, member, inPage⟩ := found
    rw [call]
    exact pageAddresses_subset visits onPage wholePages member inPage
  have reached : cleared ∪ unmappedIn vaddr size region ⊆
      cleared ∪ gathered pageAddresses (partPages vaddr size region) :=
    Set.union_subset_union_right cleared (unmappedIn_subset visits)
  rw [unmapTable]
  refine Protocol.sound_bind ?_
  refine (sound_unmapFree_part call onPage wholePages unmappedApart visits table apart
    visiting).mono ?_
  intro _ between visiting
  split
  next cut =>
    refine Protocol.sound_bind ?_
    refine (sound_anyMapped calls who table visits.onRegion (by omega) partApart
      visiting).mono ?_
    intro found scanned visiting
    cases found with
    | true =>
        exact Protocol.sound_pure.mpr ⟨visiting.wf, visiting.clear.mono reached⟩
    | false =>
        have restApart := partApart.union_left
          (Set.disjoint_sdiff_left : Disjoint (regionAddresses region \ (calls !who).mapped) _)
        refine (sound_unlinkSublevel calls who unmaps table visits.onRegion (by omega)
          Set.subset_union_right restApart visiting).mono ?_
        intro _ after final
        exact ⟨final.1, final.2.mono (reached.trans Set.subset_union_left)⟩
  next whole =>
    obtain ⟨start, stop⟩ := part_of_whole whole
    have rest : regionAddresses region \ (calls !who).mapped ⊆
        cleared ∪ gathered pageAddresses (partPages vaddr size region) := by
      intro query inside
      have within : region ≤ query ∧ query < region + 0x400000 := inside.1
      refine Or.inr ⟨query / 0x1000 * 0x1000, mem_partPages_of_part ?_ ?_, ?_⟩
      · rw [start]
        exact within.1
      · rw [stop]
        exact within.2
      · change query / 0x1000 = query / 0x1000 * 0x1000 / 0x1000
        omega
    refine (sound_unlinkSublevel calls who unmaps table visits.onRegion (by omega) rest
      partApart visiting).mono ?_
    intro _ after final
    exact ⟨final.1, final.2.mono reached⟩

/-- The attempt to unmap a 4 MiB page never succeeds. -/
theorem sound_freePage_large {post : Unit → State A → Prop} {paddr : Nat}
    (calls : Bool → PageCall) (who : Bool) (onRegion : region % 0x400000 = 0)
    (ps : entry.flags.ps = true) {state : State A} (wf : WellFormed state.memory root)
    (read : state.memory root (dirIndex region) = entry) :
    (callProtocol A root calls).Sound who post (freePage (directory root) region paddr)
      state := by
  have inside := dirIndex_lt region
  have stable : ∀ (pending : Option PagingOp) (before after : Memory),
      WellFormed before root ∧ before root (dirIndex region) = entry →
      Tolerated root (calls who) (calls !who) pending before after →
        WellFormed after root ∧ after root (dirIndex region) = entry := by
    intro pending before after held change
    refine ⟨change.wellFormed, ?_⟩
    rw [change.ps _ inside (by rw [held.2, ps]), held.2]
  rw [freePage, pageSize_directory]
  apply sound_free (fun memory => WellFormed memory root ∧
    memory root (dirIndex region) = entry) ⟨wf, read⟩ (fun memory held => held.1)
  · exact stable _
  · intro current held
    apply sound_operation (fun memory => WellFormed memory root ∧
      memory root (dirIndex region) = entry) held
    · exact stable _
    · intro current held pending _ answer after handled
      rw [handler_setEntry_directory_refused current held.1.root_aligned _
        (Or.inl onRegion) (by rw [held.2, ps])] at handled
      cases handled
      exact ⟨Tolerated.refl held.1, Protocol.sound_throw⟩

/-- One iteration of the loop over regions. -/
theorem sound_unmapRegion (call : calls who = .unmapFree vaddr size)
    (onPage : vaddr % 0x1000 = 0) (wholePages : size % 0x1000 = 0)
    (unmappedApart : Disjoint (calls who).unmapped (calls !who).mapped)
    (visits : Visits vaddr size region)
    (apart : Disjoint cleared (calls !who).mapped) {state : State A}
    (holds : RegionsClear root cleared state.memory) :
    (callProtocol A root calls).Sound who
      (fun _ after => RegionsClear root (cleared ∪ unmappedIn vaddr size region) after.memory)
      (unmapRegion (unmapFree 1) (directory root) vaddr size region) state := by
  have inside := dirIndex_lt region
  obtain ⟨next, code, onWord⟩ := unmapRegion_eq root visits
  rw [code]
  apply sound_getEntry (RegionsClear root cleared) holds (fun memory held => held.1)
  · intro before after held change
    exact ⟨change.wellFormed, held.2.tolerated apart change⟩
  · intro current held
    obtain ⟨wf, clear⟩ := held
    rw [index_directory, onWord]
    cases table : (current.memory root (dirIndex region)).isTable with
    | true =>
        simp only [if_true, wf.table_address inside table]
        exact sound_unmapTable call onPage wholePages unmappedApart visits table apart
          ⟨wf, wf.table_ne_root _ inside table, Or.inl rfl, clear⟩
    | false =>
        simp only [Bool.false_eq_true, if_false, unmapLeaf]
        split
        next present =>
          split
          next => exact Protocol.sound_throw
          next =>
            have ps : (current.memory root (dirIndex region)).flags.ps = true := by
              simpa [PTEntry.isTable, present] using table
            exact sound_freePage_large calls who visits.onRegion ps wf rfl
        next absent =>
          have absent : (current.memory root (dirIndex region)).flags.p = false :=
            Bool.not_eq_true _ ▸ absent
          exact Protocol.sound_pure.mpr ⟨wf, clear.union (clear_of_absent visits absent)⟩

/-- An `unmap_free` call has unmapped its range when it returns. -/
theorem sound_unmapFree (call : calls who = .unmapFree vaddr size)
    (onPage : vaddr % 0x1000 = 0) (wholePages : size % 0x1000 = 0)
    (unmappedApart : Disjoint (calls who).unmapped (calls !who).mapped)
    {state : State A} (wf : WellFormed state.memory root) :
    (callProtocol A root calls).Sound who
      (fun _ after => vaddr + size + 0x400000 < 0x100000000 ∧
        Clear root (calls who).unmapped after.memory)
      ((calls who).program root) state := by
  rw [call, PageCall.program]
  by_cases bounded : vaddr + size + 0x400000 < 0x100000000
  · have doneApart : ∀ done : List Nat,
        Disjoint (gathered (unmappedIn vaddr size) done) (calls !who).mapped := by
      intro done
      apply unmappedApart.mono_left
      intro query found
      obtain ⟨region, _, inside⟩ := found
      rw [call]
      exact inside.1
    have start : RegionsClear root (gathered (unmappedIn vaddr size) []) state.memory := by
      refine ⟨wf, ?_⟩
      intro query _ found
      obtain ⟨region, member, _⟩ := found
      cases member
    rw [unmapFree_eq bounded]
    refine (Protocol.sound_forEach (fun (done : List Nat) (current : State A) =>
      RegionsClear root (gathered (unmappedIn vaddr size) done) current.memory) start ?_).mono ?_
    · intro region member done current held
      refine (sound_unmapRegion call onPage wholePages unmappedApart
        (visits_of_mem bounded member) (doneApart done) held).mono ?_
      intro _ after final
      rw [gathered_append_singleton]
      exact final
    · intro _ after final
      refine ⟨bounded, final.2.mono ?_⟩
      intro query inside
      have unmapped : vaddr ≤ query ∧ query < unmapEnd vaddr size := inside
      have visited : query / 0x400000 * 0x400000 ∈ regionsOf vaddr size := by
        by_contra outside
        exact not_visited outside unmapped
      exact ⟨_, visited, unmapped, by omega, by omega⟩
  · rw [unmapFree_overflow (Nat.not_lt.mp bounded)]
    exact Protocol.sound_panic

end Sound

end SatanKernel.X86
