import SatanKernel.X86.SpaceRuns
import SatanKernel.X86.Tlb

/-!
# Virtual memory behind the translation lookaside buffer

The kernel reads and writes through translations that the processor may have cached at any
earlier time.  Calls take their steps one by one, with `invlpg` where the code has it, and
the processor caches translations between any two of them.  Nobody notices: the accesses are
those of a processor that walks the tables each time, and the address space is a flat
memory.
-/

namespace SatanKernel.X86

open Lib
open Lib.Program (run Reaches)

section Machine

variable {A : Type}

/-- The processor has cached any number of further translations. -/
abbrev CachesMore (root : Nat) : TlbState A → TlbState A → Prop :=
  Relation.ReflTransGen (Caches root)

/-- What the processor takes an address for: it uses what is cached, or walks the tables. -/
inductive Translates (root : Nat) (current : TlbState A) (vaddr : Nat) : Nat → Prop where
  | hit {frame : Nat} (cached : (vaddr / 0x1000, frame) ∈ current.cached) :
      Translates root current vaddr (frame * 0x1000 + vaddr % 0x1000)
  | miss {translation : Translation}
      (walked : walk current.state.memory root vaddr = some translation) :
      Translates root current vaddr translation.paddr

/-- Neither what is cached nor a walk translates the address. -/
structure Faults (root : Nat) (current : TlbState A) (vaddr : Nat) : Prop where
  uncached : ∀ frame, (vaddr / 0x1000, frame) ∉ current.cached
  unmapped : walk current.state.memory root vaddr = none

/-- A store to a physical address. -/
def TlbState.writeWord (current : TlbState A) (paddr : Nat) (word : Word) : TlbState A :=
  { current with
    state := { current.state with memory := current.state.memory.writeWord paddr word } }

variable [PageAllocatorTrait PageSize A]

/-- The end of a call. -/
inductive Ends : TlbM Unit → Outcome MappingError Unit → Prop where
  | ok : Ends (.ret ()) (.ok ())
  | err (error : MappingError) : Ends (.throw error) (.err error)

/-- A request to the address space in use.  Accesses are made by the kernel, which may read
and write every page that is mapped. -/
inductive TlbStep (root : Nat) : Steps (TlbState A) (Unit × Request × Response) where
  | call {before after : TlbState A} {call : Call} {code : TlbM Unit}
      {outcome : Outcome MappingError Unit}
      (reached : Reaches tlbHandler (Caches root) (steps (call.program root), before)
        (code, after))
      (ends : Ends code outcome) :
      TlbStep root before ((), .call call, .returned outcome) after
  | load {before after : TlbState A} {address : WordAddress} {paddr : Nat}
      (fills : CachesMore root before after)
      (translates : Translates root after address.addr paddr) :
      TlbStep root before
        ((), .load kernelAccess address, .loaded (after.state.memory.wordAt paddr)) after
  | store {before after : TlbState A} {address : WordAddress} {word : Word} {paddr : Nat}
      (fills : CachesMore root before after)
      (translates : Translates root after address.addr paddr) :
      TlbStep root before ((), .store kernelAccess address word, .stored)
        (after.writeWord paddr word)
  | loadFaults {before after : TlbState A} {address : WordAddress}
      (fills : CachesMore root before after) (faults : Faults root after address.addr) :
      TlbStep root before ((), .load kernelAccess address, .pageFault) after
  | storeFaults {before after : TlbState A} {address : WordAddress} {word : Word}
      (fills : CachesMore root before after) (faults : Faults root after address.addr) :
      TlbStep root before ((), .store kernelAccess address word, .pageFault) after

end Machine

/-! ## Between two requests -/

section Requests

variable {A : Type} [PageAllocatorTrait PageSize A] {root : Nat} {ledger : FrameLedger A root}
  {before after current : TlbState A}

omit [PageAllocatorTrait PageSize A] in
theorem state_of_fills (fills : CachesMore root before after) : after.state = before.state := by
  induction fills with
  | refl => rfl
  | tail _ cached ih =>
      cases cached
      exact ih

theorem TlbReady.fills (ready : TlbReady ledger before) (fills : CachesMore root before after) :
    TlbReady ledger after := by
  refine ⟨?_, ?_⟩
  · rw [state_of_fills fills]
    exact ready.owned
  · induction fills with
    | refl => exact ready.coherent
    | tail _ cached ih => exact ih.fill cached

/-- Behind the TLB, an address is what the walk makes of it. -/
theorem TlbReady.translates (ready : TlbReady ledger current) {vaddr paddr : Nat}
    (bounded : vaddr < 0x100000000) (translates : Translates root current vaddr paddr) :
    ∃ translation, walk current.state.memory root vaddr = some translation ∧
      translation.paddr = paddr := by
  cases translates with
  | miss walked => exact ⟨_, walked, rfl⟩
  | hit cached =>
      have agrees := (ready.coherent _ cached).resolve_right (by simp)
      obtain ⟨translation, walked, frame⟩ := agrees vaddr bounded rfl
      obtain ⟨entry, -, paddrEq⟩ := ready.owned.page_of_walk walked
      have aligned := entry.frame_aligned
      refine ⟨translation, walked, ?_⟩
      dsimp only at frame
      omega

/-- The kernel's accesses are not refused. -/
theorem loadWord_kernel {memory : Memory} {address : WordAddress} {translation : Translation}
    (walked : walk memory root address.addr = some translation) :
    loadWord root kernelAccess address memory = .loaded (memory.wordAt translation.paddr) := by
  rw [loadWord, walked]
  rfl

theorem storeWord_kernel {memory : Memory} {address : WordAddress} {translation : Translation}
    (walked : walk memory root address.addr = some translation) (word : Word) :
    storeWord root kernelAccess address word memory =
      (.stored, memory.writeWord translation.paddr word) := by
  rw [storeWord, walked]
  simp [kernelAccess, Access.mayWrite, Access.mayRead]

/-- A store to a page changes no translation. -/
theorem TlbReady.writeWord (ready : TlbReady ledger current) {address : WordAddress}
    {translation : Translation}
    (walked : walk current.state.memory root address.addr = some translation) (word : Word) :
    TlbReady ledger (current.writeWord translation.paddr word) := by
  have same := sameTables_writeWord ready.owned walked word
  exact ⟨ready.owned.of_sameTables same fun _ _ referred => ready.owned.owned _ _ referred,
    ready.coherent.of_walk same.walk_eq⟩

/-- The run of a call that has returned. -/
theorem TlbReady.run_call (ready : TlbReady ledger before) {call : Call} {code : TlbM Unit}
    {outcome : Outcome MappingError Unit}
    (reached : Reaches tlbHandler (Caches root) (steps (call.program root), before)
      (code, after))
    (ends : Ends code outcome) :
    run handler (call.program root) before.state = (outcome, after.state) := by
  have progress := (ready.progress call).reached reached
  cases progress with
  | between program shape each finished coherent =>
      cases ends with
      | ok =>
          cases program with
          | ret value => exact finished.symm
          | throw error => cases shape
          | panic => cases shape
          | call op next => cases op <;> cases shape
      | err error =>
          cases program with
          | ret value => cases shape
          | throw other =>
              cases shape
              exact finished.symm
          | panic => cases shape
          | call op next => cases op <;> cases shape
  | flushing vaddr program shape each finished coherent =>
      subst shape
      cases ends
  | clearing frame index indices program shape inside cleared fresh each finished coherent =>
      subst shape
      cases ends
  | panicked shape coherent =>
      subst shape
      cases ends

/-- An address faults exactly if the tables do not map it. -/
theorem TlbReady.faults_iff (ready : TlbReady ledger current) {vaddr : Nat}
    (bounded : vaddr < 0x100000000) :
    Faults root current vaddr ↔ walk current.state.memory root vaddr = none := by
  refine ⟨fun faults => faults.unmapped, fun unmapped => ⟨?_, unmapped⟩⟩
  intro frame cached
  obtain ⟨translation, walked, -⟩ := ready.translates bounded (.hit cached)
  rw [unmapped] at walked
  cases walked

end Requests

/-! ## Refinement -/

section Refinement

variable {A : Type} [PageAllocatorTrait PageSize A] {root : Nat}
  {shared : SharedLedger A fun _ : Unit => root} {before after : TlbState A}
  {label : Unit × Request × Response}

/-- A step with the TLB is a step of a processor that walks the tables. -/
theorem TlbReady.step (ready : TlbReady (shared.ledger ()) before)
    (step : TlbStep root before label after) :
    TlbReady (shared.ledger ()) after ∧
      spaceSteps (fun _ => root) before.state label after.state := by
  cases step with
  | call reached ends =>
      have ran := ready.run_call reached ends
      refine ⟨ready.call reached ?_, ?_, ?_⟩
      · cases ends <;> rfl
      · simp only [serve, ran]
      · cases ends <;> simp
  | load fills translates =>
      have filled := ready.fills fills
      obtain ⟨translation, walked, rfl⟩ :=
        filled.translates (WordAddress.bounded _) translates
      refine ⟨filled, ?_, by simp⟩
      rw [← state_of_fills fills]
      simp only [serve, loadWord_kernel walked]
  | @store _ filledState address word _ fills translates =>
      have filled := ready.fills fills
      obtain ⟨translation, walked, rfl⟩ := filled.translates address.bounded translates
      refine ⟨filled.writeWord walked word, ?_, by simp⟩
      rw [← state_of_fills fills]
      simp only [serve, storeWord_kernel walked, TlbState.writeWord]
  | loadFaults fills faults =>
      refine ⟨ready.fills fills, ?_, by simp⟩
      rw [← state_of_fills fills]
      simp only [serve, loadWord, faults.unmapped]
  | storeFaults fills faults =>
      refine ⟨ready.fills fills, ?_, by simp⟩
      rw [← state_of_fills fills]
      simp only [serve, storeWord, faults.unmapped]

/-- The TLB cannot be noticed. -/
def tlbRefinement (shared : SharedLedger A fun _ : Unit => root) :
    Refinement (TlbStep (A := A) root) (spaceSteps (A := A) fun _ => root) where
  invariant := TlbReady (shared.ledger ())
  view := TlbState.state
  kept ready step := (ready.step step).1
  step ready step := (ready.step step).2

end Refinement

/-! ## A page that is cached -/

/-- The steps of a call, without anything cached in between. -/
def tlbCall (call : Call) (current : TlbState (Bump 0x2000)) :
    Outcome MappingError Unit × TlbState (Bump 0x2000) :=
  run tlbHandler (steps (call.program 0x1000)) current

theorem tlbStep_call {call : Call} {before : TlbState (Bump 0x2000)}
    (succeeded : (tlbCall call before).1 = .ok ()) :
    TlbStep 0x1000 before ((), .call call, .returned (.ok ())) (tlbCall call before).2 :=
  .call (Program.reaches_of_run (Prod.ext_iff.mpr ⟨succeeded, rfl⟩)) .ok

theorem emptyDirectory_start :
    EmptyDirectories (fun _ : Unit => 0x1000) twoSpacesStart.memory where
  aligned _ := rfl
  distinct _ _ _ := rfl
  empty _ _ _ := rfl

end SatanKernel.X86
