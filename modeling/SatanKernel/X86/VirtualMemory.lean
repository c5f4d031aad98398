import SatanKernel.Lib.Simulation
import SatanKernel.X86.CallWalks

/-!
# Virtual memory

What programs see of the page tables: words that are loaded and stored at virtual
addresses.  The frames of pages and of tables are in one memory, so a store goes wherever
the walk leads it.  `FlatMemory` says what an address space is for: words with access
rights at virtual addresses, independent of each other.

Accesses walk the tables as they are; what a translation lookaside buffer that has not been
flushed does instead is the subject of the module on the TLB.
-/

namespace SatanKernel.X86

open Lib NestedPageTableLevel
open Lib.Program (run)

/-! ## Accesses -/

/-- A word of memory. -/
abbrev Word := BitVec usizeBits

/-- An aligned word of the virtual address space. -/
@[ext] structure WordAddress where
  addr : Nat
  bounded : addr < 0x100000000
  aligned : addr % 4 = 0
  deriving DecidableEq

/-- The state of the processor that decides what an access may do. -/
structure Access where
  /-- The access is made in user mode. -/
  user : Bool
  /-- `CR0.WP`: the supervisor, too, may not write to read-only pages. -/
  writeProtect : Bool
  deriving DecidableEq, Repr

namespace Access

/-- A page for the supervisor only cannot be read in user mode. -/
def mayRead (access : Access) (user : Bool) : Bool := !access.user || user

/-- A read-only page can be written by a supervisor without write protection. -/
def mayWrite (access : Access) (user writable : Bool) : Bool :=
  access.mayRead user && (writable || !(access.user || access.writeProtect))

theorem mayRead_of_mayWrite {access : Access} {user writable : Bool}
    (allowed : access.mayWrite user writable = true) : access.mayRead user = true := by
  simp only [mayWrite, Bool.and_eq_true] at allowed
  exact allowed.1

end Access

/-- What can be asked of an address space. -/
inductive Request where
  | call (call : Call)
  | load (access : Access) (address : WordAddress)
  | store (access : Access) (address : WordAddress) (word : Word)
  deriving DecidableEq

/-- The pages that the request maps have entries of the given shape. -/
def Request.Shaped (shape : PTEntry → Prop) : Request → Prop
  | .call requested => requested.Shaped shape
  | .load _ _ => True
  | .store _ _ _ => True

theorem Request.shaped_true (request : Request) : request.Shaped fun _ => True := by
  cases request with
  | call requested => cases requested <;> simp [Request.Shaped, Call.Shaped]
  | load access address => trivial
  | store access address word => trivial

/-- What becomes of a request. -/
inductive Response where
  | returned (outcome : Outcome MappingError Unit)
  | loaded (word : Word)
  | stored
  | pageFault
  deriving DecidableEq

/-! ## The machine -/

namespace Memory

/-- The word at a physical address. -/
def wordAt (memory : Memory) (paddr : Nat) : Word :=
  (memory (paddr / 0x1000 * 0x1000) (paddr % 0x1000 / 4)).word

/-- Overwrite the word at a physical address. -/
def writeWord (memory : Memory) (paddr : Nat) (word : Word) : Memory :=
  memory.write (paddr / 0x1000 * 0x1000) (paddr % 0x1000 / 4) ⟨word⟩

@[simp] theorem wordAt_writeWord (memory : Memory) (paddr : Nat) (word : Word) :
    (memory.writeWord paddr word).wordAt paddr = word := by
  rw [wordAt, writeWord, write_self]

end Memory

/-- A load through the page tables. -/
def loadWord (root : Nat) (access : Access) (address : WordAddress) (memory : Memory) :
    Response :=
  match walk memory root address.addr with
  | some translation =>
      if access.mayRead translation.user then .loaded (memory.wordAt translation.paddr)
      else .pageFault
  | none => .pageFault

/-- A store through the page tables. -/
def storeWord (root : Nat) (access : Access) (address : WordAddress) (word : Word)
    (memory : Memory) : Response × Memory :=
  match walk memory root address.addr with
  | some translation =>
      if access.mayWrite translation.user translation.writable then
        (.stored, memory.writeWord translation.paddr word)
      else (.pageFault, memory)
  | none => (.pageFault, memory)

/-- A store that does not fault writes to the word that the walk leads to. -/
theorem storeWord_memory (root : Nat) (access : Access) (address : WordAddress) (word : Word)
    (memory : Memory) :
    (storeWord root access address word memory).2 = memory ∨
      ∃ translation, walk memory root address.addr = some translation ∧
        (storeWord root access address word memory).2 =
          memory.writeWord translation.paddr word := by
  unfold storeWord
  cases walked : walk memory root address.addr with
  | none => exact .inl rfl
  | some translation =>
      dsimp only
      split
      next => exact .inr ⟨translation, rfl, rfl⟩
      next => exact .inl rfl

section Machine

variable {A : Type} [PageAllocatorTrait PageSize A]

/-- A request to the address space whose directory is at `root`. -/
def serve (root : Nat) (request : Request) (state : State A) : Response × State A :=
  match request with
  | .call call =>
      let finished := run handler (call.program root) state
      (.returned finished.1, finished.2)
  | .load access address => (loadWord root access address state.memory, state)
  | .store access address word =>
      let stored := storeWord root access address word state.memory
      (stored.1, { state with memory := stored.2 })

/-- The steps of address spaces that share memory and its allocator: one of them answers a
request, and does not panic. -/
def spaceSteps {ι : Type} (roots : ι → Nat) : Steps (State A) (ι × Request × Response) :=
  fun before label after =>
    serve (roots label.1) label.2.1 before = (label.2.2, after) ∧
      label.2.2 ≠ .returned .panic

end Machine

/-! ## Flat memory -/

/-- A word with its access rights. -/
structure Cell where
  word : Word
  user : Bool
  writable : Bool
  deriving DecidableEq, Repr

/-- The words of an address space. -/
abbrev FlatMemory := WordAddress → Option Cell

namespace FlatMemory

def load (memory : FlatMemory) (access : Access) (address : WordAddress) : Response :=
  match memory address with
  | some cell => if access.mayRead cell.user then .loaded cell.word else .pageFault
  | none => .pageFault

def store (memory : FlatMemory) (access : Access) (address : WordAddress) (word : Word) :
    Response × FlatMemory :=
  match memory address with
  | some cell =>
      if access.mayWrite cell.user cell.writable then
        (.stored, Function.update memory address (some { cell with word }))
      else (.pageFault, memory)
  | none => (.pageFault, memory)

/-- The words `[start, stop)` have been mapped; what they hold is not specified. -/
def Mapped (flags : MappingFlags) (start stop : Nat) (before after : FlatMemory) : Prop :=
  ∀ address : WordAddress,
    if start ≤ address.addr ∧ address.addr < stop then
      if flags.present then
        ∃ word, after address = some ⟨word, false, flags.write⟩
      else after address = none
    else after address = before address

/-- The words `[start, stop)` have been unmapped. -/
def unmap (start stop : Nat) (memory : FlatMemory) : FlatMemory := fun address =>
  if start ≤ address.addr ∧ address.addr < stop then none else memory address

/-- A step of one address space.  A call works on an initial part of its range, and on all
of it if it succeeds. -/
inductive Step : FlatMemory → Request × Response → FlatMemory → Prop where
  | mapAlloc {before after : FlatMemory} {vaddr size mapped : Nat} {flags : MappingFlags}
      {outcome : Outcome MappingError Unit} (upTo : mapped ≤ size / 0x1000)
      (all : outcome = .ok () → mapped = size / 0x1000)
      (maps : Mapped flags vaddr (vaddr + mapped * 0x1000) before after) :
      Step before (.call (.mapAlloc vaddr size flags), .returned outcome) after
  | unmapFree {before : FlatMemory} {vaddr size stop : Nat}
      {outcome : Outcome MappingError Unit} (upTo : stop ≤ unmapEnd vaddr size)
      (all : outcome = .ok () → stop = unmapEnd vaddr size) :
      Step before (.call (.unmapFree vaddr size), .returned outcome)
        (before.unmap vaddr stop)
  | load (memory : FlatMemory) (access : Access) (address : WordAddress) :
      Step memory (.load access address, memory.load access address) memory
  | store (memory : FlatMemory) (access : Access) (address : WordAddress) (word : Word) :
      Step memory (.store access address word, (memory.store access address word).1)
        (memory.store access address word).2

/-- The steps of independent address spaces. -/
def steps (ι : Type) : Steps (ι → FlatMemory) (ι × Request × Response) :=
  fun before label after =>
    Step (before label.1) label.2 (after label.1) ∧
      ∀ other, other ≠ label.1 → after other = before other

end FlatMemory

end SatanKernel.X86
