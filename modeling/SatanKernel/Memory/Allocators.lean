import SatanKernel.Memory.Basic

/-!
# Allocators to run the page-table code against

`Scripted` answers requests from a list, so that every pattern of answers is the behaviour
of some scripted allocator; `Bump` hands out one frame after the other.  `Recorder`,
`Journal` and `Tally` wrap an allocator and record what it is asked to do.
-/

namespace SatanKernel

/-- An allocator of 4 KiB frames that takes its answers from a script.  It withholds an
answer that is not a frame, is already outstanding or is the reserved frame. -/
structure Scripted (reserved : Nat) where
  script : List (Option Nat)
  outstanding : List Nat
  deriving DecidableEq, Repr

namespace Scripted

variable {reserved : Nat}

/-- The frame can be handed out. -/
def available (reserved : Nat) (outstanding : List Nat) (frame : Nat) : Bool :=
  decide (frame % 0x1000 = 0 ∧ frame ≠ 0 ∧ frame < 0x100000000 ∧ frame ≠ reserved ∧
    frame ∉ outstanding)

/-- Answer one request. -/
def answer : Scripted reserved → Option Nat × Scripted reserved
  | ⟨[], outstanding⟩ => (none, ⟨[], outstanding⟩)
  | ⟨none :: script, outstanding⟩ => (none, ⟨script, outstanding⟩)
  | ⟨some frame :: script, outstanding⟩ =>
      if available reserved outstanding frame then
        (some frame, ⟨script, frame :: outstanding⟩)
      else (none, ⟨script, outstanding⟩)

instance {S : Type} : PageAllocatorTrait S (Scripted reserved) where
  alloc allocator _ := allocator.answer
  free allocator addr _ :=
    { allocator with outstanding := allocator.outstanding.filter (· ≠ addr) }

end Scripted

/-- An allocator that hands out the frames above `base` in order, each once. -/
structure Bump (base : Nat) where
  next : Nat
  outstanding : List Nat
  aligned : next % 0x1000 = 0
  above : base < next
  below : ∀ frame ∈ outstanding, frame < next

namespace Bump

variable {base : Nat}

/-- All frames from `next` on are free. -/
def start (next : Nat) (aligned : next % 0x1000 = 0) (above : base < next) : Bump base where
  next := next
  outstanding := []
  aligned := aligned
  above := above
  below _ member := by cases member

/-- The next frame is outstanding. -/
def advance (allocator : Bump base) : Bump base where
  next := allocator.next + 0x1000
  outstanding := allocator.next :: allocator.outstanding
  aligned := by
    have aligned := allocator.aligned
    omega
  above := by
    have above := allocator.above
    omega
  below frame member := by
    rcases List.mem_cons.mp member with rfl | member
    · omega
    · have below := allocator.below frame member
      omega

/-- A frame is no longer outstanding. -/
def release (allocator : Bump base) (addr : Nat) : Bump base where
  next := allocator.next
  outstanding := allocator.outstanding.filter (· ≠ addr)
  aligned := allocator.aligned
  above := allocator.above
  below frame member := allocator.below frame (List.mem_filter.mp member).1

instance {S : Type} : PageAllocatorTrait S (Bump base) where
  alloc allocator _ :=
    if allocator.next < 0x100000000 then (some allocator.next, allocator.advance)
    else (none, allocator)
  free allocator addr _ := allocator.release addr

end Bump

/-- An allocator together with the calls of its `free`, oldest first, and whether it has
refused a request. -/
structure Recorder (S A : Type) where
  inner : A
  freed : List (Nat × S)
  refused : Bool

namespace Recorder

variable {S A : Type} [PageAllocatorTrait S A]

instance : PageAllocatorTrait S (Recorder S A) where
  alloc allocator size :=
    let (answer, inner) := PageAllocatorTrait.alloc allocator.inner size
    (answer, { allocator with inner, refused := allocator.refused || answer.isNone })
  free allocator addr size :=
    { allocator with
      inner := PageAllocatorTrait.free allocator.inner addr size
      freed := allocator.freed ++ [(addr, size)] }

/-- Start recording. -/
def start (inner : A) : Recorder S A := ⟨inner, [], false⟩

end Recorder

/-- An allocator together with the calls of its `free`, each with the state of the
allocator at that moment. -/
structure Journal (S A : Type) where
  inner : A
  frees : List (A × Nat × S)

namespace Journal

variable {S A : Type} [PageAllocatorTrait S A]

instance : PageAllocatorTrait S (Journal S A) where
  alloc allocator size :=
    let (answer, inner) := PageAllocatorTrait.alloc allocator.inner size
    (answer, { allocator with inner })
  free allocator addr size :=
    ⟨PageAllocatorTrait.free allocator.inner addr size,
      allocator.frees ++ [(allocator.inner, addr, size)]⟩

/-- Start a journal. -/
def start (inner : A) : Journal S A := ⟨inner, []⟩

end Journal

/-- An allocator together with the frames that it has handed out, oldest first. -/
structure Tally (S A : Type) where
  inner : A
  handed : List Nat

namespace Tally

variable {S A : Type} [PageAllocatorTrait S A]

instance : PageAllocatorTrait S (Tally S A) where
  alloc allocator size :=
    let (answer, inner) := PageAllocatorTrait.alloc allocator.inner size
    (answer, ⟨inner, allocator.handed ++ answer.toList⟩)
  free allocator addr size :=
    { allocator with inner := PageAllocatorTrait.free allocator.inner addr size }

/-- Start a tally. -/
def start (inner : A) : Tally S A := ⟨inner, []⟩

/-- An answer of the allocator is added to its tally. -/
theorem alloc_handed {allocator after : Tally S A} {size : S} {answer : Option Nat}
    (answered : PageAllocatorTrait.alloc allocator size = (answer, after)) :
    after.handed = allocator.handed ++ answer.toList := by
  cases answered
  rfl

end Tally

/-- Free several blocks, in order. -/
def freeAll {S A : Type} [PageAllocatorTrait S A] (allocator : A)
    (blocks : List (Nat × S)) : A :=
  blocks.foldl (fun current block => PageAllocatorTrait.free current block.1 block.2)
    allocator

section FreeAll

variable {S A : Type} [PageAllocatorTrait S A]

@[simp] theorem freeAll_nil (allocator : A) :
    freeAll (S := S) allocator [] = allocator := rfl

@[simp] theorem freeAll_cons (allocator : A) (block : Nat × S)
    (blocks : List (Nat × S)) :
    freeAll allocator (block :: blocks) =
      freeAll (PageAllocatorTrait.free allocator block.1 block.2) blocks := rfl

theorem freeAll_append (allocator : A) (first second : List (Nat × S)) :
    freeAll allocator (first ++ second) = freeAll (freeAll allocator first) second :=
  List.foldl_append

/-- A recorder holds exactly the blocks that were freed. -/
theorem freed_freeAll (allocator : Recorder S A) (blocks : List (Nat × S)) :
    (freeAll allocator blocks).freed = allocator.freed ++ blocks := by
  induction blocks generalizing allocator with
  | nil => simp
  | cons block blocks ih =>
      rw [freeAll_cons, ih]
      simp [PageAllocatorTrait.free]

end FreeAll

end SatanKernel
