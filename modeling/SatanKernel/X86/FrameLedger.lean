import Mathlib.Data.Set.Insert
import Mathlib.Data.Set.BooleanAlgebra
import SatanKernel.X86.MapPage

/-!
# Allocators as sets of outstanding frames

The page-table code needs little of its allocator: a frame that is handed out is a 4 KiB
frame of its own until it is given back.  `FrameLedger` states this for an arbitrary
allocator through the set of its outstanding frames; the wrappers that record calls
inherit it.
-/

namespace SatanKernel.X86

open Lib
open Lib.Program (run)

/-- The set of outstanding 4 KiB frames of an allocator that never hands out the frame
`reserved`. -/
structure FrameLedger (A : Type) [PageAllocatorTrait PageSize A] (reserved : Nat) where
  outstanding : A → Set Nat
  alloc_none : ∀ {allocator after : A},
    PageAllocatorTrait.alloc allocator PageSize.size4K = (none, after) →
      outstanding after = outstanding allocator
  alloc_frame : ∀ {allocator after : A} {frame : Nat},
    PageAllocatorTrait.alloc allocator PageSize.size4K = (some frame, after) →
      frame % 0x1000 = 0 ∧ frame < 0x100000000 ∧ frame ≠ 0 ∧ frame ≠ reserved ∧
        frame ∉ outstanding allocator
  alloc_some : ∀ {allocator after : A} {frame : Nat},
    PageAllocatorTrait.alloc allocator PageSize.size4K = (some frame, after) →
      outstanding after = insert frame (outstanding allocator)
  free_eq : ∀ (allocator : A) (addr : Nat) (size : PageSize),
    outstanding (PageAllocatorTrait.free allocator addr size) =
      outstanding allocator \ {addr}

/-- The ledger of a scripted allocator. -/
def scriptedLedger (reserved : Nat) : FrameLedger (Scripted reserved) reserved where
  outstanding allocator := { frame | frame ∈ allocator.outstanding }
  alloc_none := by
    rintro ⟨_ | ⟨_ | frame, script⟩, outstanding⟩ after answered
    · cases answered
      rfl
    · cases answered
      rfl
    · simp only [PageAllocatorTrait.alloc, Scripted.answer] at answered
      split at answered
      next => cases answered
      next =>
        cases answered
        rfl
  alloc_frame := by
    rintro ⟨_ | ⟨_ | frame, script⟩, outstanding⟩ after answered allocated
    · cases allocated
    · cases allocated
    · simp only [PageAllocatorTrait.alloc, Scripted.answer] at allocated
      split at allocated
      next available =>
        cases allocated
        simp only [Scripted.available, decide_eq_true_eq] at available
        obtain ⟨aligned, nonzero, bounded, notReserved, notOutstanding⟩ := available
        exact ⟨aligned, bounded, nonzero, notReserved, notOutstanding⟩
      next => cases allocated
  alloc_some := by
    rintro ⟨_ | ⟨_ | frame, script⟩, outstanding⟩ after answered allocated
    · cases allocated
    · cases allocated
    · simp only [PageAllocatorTrait.alloc, Scripted.answer] at allocated
      split at allocated
      next =>
        cases allocated
        ext other
        simp
      next => cases allocated
  free_eq allocator addr size := by
    ext other
    simp [PageAllocatorTrait.free]

/-- The addresses of blocks. -/
def addresses (blocks : List (Nat × PageSize)) : Set Nat :=
  { addr | addr ∈ blocks.map Prod.fst }

@[simp] theorem addresses_nil : addresses [] = ∅ := by
  ext addr
  simp [addresses]

@[simp] theorem addresses_cons (block : Nat × PageSize) (blocks : List (Nat × PageSize)) :
    addresses (block :: blocks) = insert block.1 (addresses blocks) := by
  ext addr
  simp [addresses]

theorem addresses_append (first second : List (Nat × PageSize)) :
    addresses (first ++ second) = addresses first ∪ addresses second := by
  induction first with
  | nil => simp
  | cons block first ih =>
      rw [List.cons_append, addresses_cons, addresses_cons, ih, Set.insert_union]

namespace FrameLedger

variable {A : Type} [PageAllocatorTrait PageSize A] {reserved : Nat}

/-- An allocator that behaves as another one which is part of its state has the same
outstanding frames. -/
def along {B : Type} [PageAllocatorTrait PageSize B] (ledger : FrameLedger A reserved)
    (view : B → A)
    (allocs : ∀ allocator : B,
      PageAllocatorTrait.alloc (view allocator) PageSize.size4K =
        ((PageAllocatorTrait.alloc allocator PageSize.size4K).1,
          view (PageAllocatorTrait.alloc allocator PageSize.size4K).2))
    (frees : ∀ (allocator : B) (addr : Nat) (size : PageSize),
      view (PageAllocatorTrait.free allocator addr size) =
        PageAllocatorTrait.free (view allocator) addr size) :
    FrameLedger B reserved where
  outstanding allocator := ledger.outstanding (view allocator)
  alloc_none {allocator after} answered := by
    have inner := allocs allocator
    rw [answered] at inner
    exact ledger.alloc_none inner
  alloc_frame {allocator after frame} answered := by
    have inner := allocs allocator
    rw [answered] at inner
    exact ledger.alloc_frame inner
  alloc_some {allocator after frame} answered := by
    have inner := allocs allocator
    rw [answered] at inner
    exact ledger.alloc_some inner
  free_eq allocator addr size := by
    rw [frees, ledger.free_eq]

/-- The ledger of a recorded allocator. -/
def recorder (ledger : FrameLedger A reserved) :
    FrameLedger (Recorder PageSize A) reserved :=
  ledger.along Recorder.inner (fun _ => rfl) (fun _ _ _ => rfl)

/-- The ledger of an allocator with a journal. -/
def journal (ledger : FrameLedger A reserved) :
    FrameLedger (Journal PageSize A) reserved :=
  ledger.along Journal.inner (fun _ => rfl) (fun _ _ _ => rfl)

/-- The ledger of a tallied allocator. -/
def tally (ledger : FrameLedger A reserved) : FrameLedger (Tally PageSize A) reserved :=
  ledger.along Tally.inner (fun _ => rfl) (fun _ _ _ => rfl)

/-- Freeing several blocks takes their addresses out of the outstanding frames. -/
theorem outstanding_freeAll (ledger : FrameLedger A reserved) (allocator : A)
    (blocks : List (Nat × PageSize)) :
    ledger.outstanding (freeAll allocator blocks) =
      ledger.outstanding allocator \ addresses blocks := by
  induction blocks generalizing allocator with
  | nil => simp
  | cons block blocks ih =>
      rw [freeAll_cons, ih, ledger.free_eq, addresses_cons, Set.sdiff_sdiff,
        Set.singleton_union]

end FrameLedger

/-! ## Frees of outstanding frames -/

/-- Each block is outstanding when its turn to be freed comes. -/
def FreedInTurn (outstanding : Set Nat) : List (Nat × PageSize) → Prop
  | [] => True
  | block :: blocks =>
      block.1 ∈ outstanding ∧ FreedInTurn (outstanding \ {block.1}) blocks

theorem freedInTurn_append {outstanding : Set Nat} {first second : List (Nat × PageSize)} :
    FreedInTurn outstanding (first ++ second) ↔
      FreedInTurn outstanding first ∧
        FreedInTurn (outstanding \ addresses first) second := by
  induction first generalizing outstanding with
  | nil => simp [FreedInTurn]
  | cons block first ih =>
      rw [List.cons_append, FreedInTurn, FreedInTurn, ih, addresses_cons, Set.sdiff_sdiff,
        Set.singleton_union, and_assoc]

/-- Different outstanding frames can be freed in any order. -/
theorem freedInTurn_of_nodup {outstanding : Set Nat} {blocks : List (Nat × PageSize)}
    (distinct : (blocks.map Prod.fst).Nodup)
    (owned : ∀ block ∈ blocks, block.1 ∈ outstanding) :
    FreedInTurn outstanding blocks := by
  induction blocks generalizing outstanding with
  | nil => trivial
  | cons block blocks ih =>
      obtain ⟨different, distinct⟩ := List.nodup_cons.mp distinct
      refine ⟨owned block (by simp), ih distinct ?_⟩
      intro other member
      refine ⟨owned other (by simp [member]), ?_⟩
      rintro equal
      apply different
      rw [← Set.mem_singleton_iff.mp equal]
      exact List.mem_map_of_mem member

/-- Every call of `free` in the journal was for a frame outstanding at that moment. -/
def JournalSound {A : Type} [PageAllocatorTrait PageSize A] {reserved : Nat}
    (ledger : FrameLedger A reserved) (journal : Journal PageSize A) : Prop :=
  ∀ entry ∈ journal.frees, entry.2.1 ∈ ledger.outstanding entry.1

section Journal

variable {A : Type} [PageAllocatorTrait PageSize A] {reserved : Nat}
  {ledger : FrameLedger A reserved}

theorem JournalSound.alloc {journal after : Journal PageSize A} {answer : Option Nat}
    (sound : JournalSound ledger journal)
    (answered : PageAllocatorTrait.alloc journal PageSize.size4K = (answer, after)) :
    JournalSound ledger after := by
  cases answered
  exact sound

theorem JournalSound.freeAll {journal : Journal PageSize A}
    {blocks : List (Nat × PageSize)} (sound : JournalSound ledger journal)
    (owned : FreedInTurn (ledger.journal.outstanding journal) blocks) :
    JournalSound ledger (freeAll journal blocks) := by
  induction blocks generalizing journal with
  | nil => exact sound
  | cons block blocks ih =>
      obtain ⟨first, rest⟩ := owned
      rw [freeAll_cons]
      apply ih
      · intro entry member
        rcases List.mem_append.mp member with earlier | now
        · exact sound entry earlier
        · rw [List.mem_singleton.mp now]
          exact first
      · rw [ledger.journal.free_eq]
        exact rest

end Journal

/-! ## Fresh frames -/

section Fresh

variable {A : Type} [PageAllocatorTrait PageSize A] {root : Nat}

/-- The tables of the address space are in outstanding frames. -/
def TablesOutstanding (memory : Memory) (root : Nat) (outstanding : Set Nat) : Prop :=
  ∀ i < 0x400, (memory root i).isTable = true → (memory root i).frame ∈ outstanding

/-- A frame that is not outstanding can become a table. -/
theorem freshFrame_of_not_outstanding {memory : Memory} {outstanding : Set Nat}
    (tables : TablesOutstanding memory root outstanding) {frame : Nat}
    (aligned : frame % 0x1000 = 0) (bounded : frame < 0x100000000) (notRoot : frame ≠ root)
    (notOutstanding : frame ∉ outstanding) : FreshFrame memory root frame := by
  refine ⟨aligned, bounded, ?_⟩
  rintro (equal | ⟨i, inside, table, equal⟩)
  · exact notRoot equal
  · exact notOutstanding (equal ▸ tables i inside table)

theorem FrameLedger.allocatesFresh (ledger : FrameLedger A root) {state : State A}
    (tables : TablesOutstanding state.memory root (ledger.outstanding state.allocator)) :
    AllocatesFresh state root := by
  intro frame allocator allocated
  obtain ⟨aligned, bounded, -, notRoot, notOutstanding⟩ := ledger.alloc_frame allocated
  exact freshFrame_of_not_outstanding tables aligned bounded notRoot notOutstanding

end Fresh

end SatanKernel.X86
