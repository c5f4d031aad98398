import SatanKernel.Lib.Program
import SatanKernel.Lib.Align

/-!
# Memory interfaces

Addresses, mapping flags, mapping errors and the page-allocator interface shared
by all page-table implementations (`memory.rs`, `memory/address_space.rs`,
`memory/page_allocator.rs`).

Addresses and sizes are naturals; a value of the source's `usize` is below
`2 ^ usizeBits`.  The kernel is built for the 32-bit target in its debug profile,
so arithmetic that leaves this range panics.
-/

namespace SatanKernel

open Lib

/-- Width of `usize` on the target. -/
def usizeBits : Nat := 32


/-- Generic page table entry flags that indicate the corresponding mapped memory
region permissions and attributes. -/
structure MappingFlags where
  present : Bool
  read : Bool
  write : Bool
  execute : Bool
  user : Bool
  uncached : Bool
  global : Bool
  deriving DecidableEq, Repr

namespace MappingFlags

/-- No flag set. -/
def empty : MappingFlags := ⟨false, false, false, false, false, false, false⟩

/-- `PRESENT | READ | WRITE`, the flags that `setup_paging` maps with. -/
def readWrite : MappingFlags := ⟨true, true, true, false, false, false, false⟩

end MappingFlags

/-- Kinds of errors if mapping failed. -/
inductive MappingError where
  /-- Mapping over an already existing page -/
  | mappingOver (addr : Nat)
  | pageAllocationFailed
  /-- Mapping an unaligned address -/
  | unalignedPhysicalAddress (addr : Nat)
  /-- Mapping to an unaligned address -/
  | unalignedVirtualAddress (addr : Nat)
  /-- Unmapping a page that wasn't mapped -/
  | unmappingNotMapped (addr : Nat)
  | unmappingPartOfLargePage (addr : Nat)
  deriving DecidableEq, Repr

abbrev MappingResult (α : Type) := Except MappingError α

/-- Page sizes an architecture can map. -/
class PageSizeTrait (S : Type) where
  MIN : S
  tryFrom : Nat → Option S
  into : S → Nat

/-- A physical page allocator. -/
class PageAllocatorTrait (S A : Type) where
  alloc : A → S → Option Nat × A
  free : A → Nat → S → A

section Arithmetic

variable {sig : Signature} {ε : Type}

/-- `a + b` on `usize`. -/
def checkedAdd (a b : Nat) : Program sig ε Nat :=
  if a + b < 2 ^ usizeBits then .ret (a + b) else .panic

/-- `a * b` on `usize`. -/
def checkedMul (a b : Nat) : Program sig ε Nat :=
  if a * b < 2 ^ usizeBits then .ret (a * b) else .panic

/-- `a - b` on `usize`. -/
def checkedSub (a b : Nat) : Program sig ε Nat :=
  if b ≤ a then .ret (a - b) else .panic

/-- `memory_addr::align_down`. -/
def alignDown (addr align : Nat) : Nat :=
  addr &&& complement usizeBits (align - 1)

/-- `memory_addr::align_up`: `(addr + align - 1) & !(align - 1)`. -/
def alignUp (addr align : Nat) : Program sig ε Nat := do
  let sum ← checkedAdd addr align
  let last ← checkedSub sum 1
  pure (alignDown last align)

/-- `(start..stop).step_by(step)`. -/
def stepBy (start stop step : Nat) : List Nat :=
  List.range' start ((stop - start + step - 1) / step) step

/-- Between two multiples of the step, `step_by` enumerates the multiples. -/
theorem mem_stepBy {first last step item : Nat} (positive : 0 < step) :
    item ∈ stepBy (first * step) (last * step) step ↔
      item % step = 0 ∧ first * step ≤ item ∧ item < last * step := by
  have count : (last * step - first * step + step - 1) / step = last - first := by
    rw [← Nat.sub_mul]
    have regroup : (last - first) * step + step - 1 =
        (step - 1) + (last - first) * step := by omega
    rw [regroup, Nat.add_mul_div_right _ _ positive,
      Nat.div_eq_of_lt (by omega), Nat.zero_add]
  rw [stepBy, count, List.mem_range']
  constructor
  · rintro ⟨k, inside, rfl⟩
    have bound : (first + k) * step < last * step :=
      Nat.mul_lt_mul_of_pos_right (by omega) positive
    rw [Nat.add_mul, Nat.mul_comm k] at bound
    refine ⟨?_, by omega, bound⟩
    rw [Nat.add_mul_mod_self_left, Nat.mul_mod_left]
  · rintro ⟨aligned, lower, upper⟩
    obtain ⟨quotient, rfl⟩ := Nat.dvd_of_mod_eq_zero aligned
    rw [Nat.mul_comm step] at lower upper ⊢
    have lowerQuotient := Nat.le_of_mul_le_mul_right lower positive
    have upperQuotient := Nat.lt_of_mul_lt_mul_right upper
    refine ⟨quotient - first, by omega, ?_⟩
    rw [Nat.mul_comm step, ← Nat.add_mul]
    congr 1
    omega

theorem stepBy_pairwise_lt (start stop : Nat) {step : Nat} (positive : 0 < step) :
    (stepBy start stop step).Pairwise (· < ·) :=
  List.pairwise_lt_range' step positive

theorem alignDown_two_pow {addr k : Nat} (bounded : addr < 2 ^ usizeBits)
    (fits : k ≤ usizeBits) : alignDown addr (2 ^ k) = addr / 2 ^ k * 2 ^ k :=
  and_complement_low bounded fits

/-! Arithmetic that stays in range returns its result, and panics otherwise: -/

theorem checkedAdd_of_lt {a b : Nat} (bounded : a + b < 2 ^ usizeBits) :
    (checkedAdd a b : Program sig ε Nat) = .ret (a + b) := if_pos bounded

theorem checkedAdd_overflow {a b : Nat} (overflow : ¬ a + b < 2 ^ usizeBits) :
    (checkedAdd a b : Program sig ε Nat) = .panic := if_neg overflow

theorem checkedMul_of_lt {a b : Nat} (bounded : a * b < 2 ^ usizeBits) :
    (checkedMul a b : Program sig ε Nat) = .ret (a * b) := if_pos bounded

theorem checkedMul_overflow {a b : Nat} (overflow : ¬ a * b < 2 ^ usizeBits) :
    (checkedMul a b : Program sig ε Nat) = .panic := if_neg overflow

theorem checkedSub_of_le {a b : Nat} (ordered : b ≤ a) :
    (checkedSub a b : Program sig ε Nat) = .ret (a - b) := if_pos ordered

/-- `align_up` to a power of two rounds up. -/
theorem alignUp_of_lt {addr k : Nat} (fits : k ≤ usizeBits)
    (bounded : addr + 2 ^ k < 2 ^ usizeBits) :
    (alignUp addr (2 ^ k) : Program sig ε Nat) =
      .ret ((addr + 2 ^ k - 1) / 2 ^ k * 2 ^ k) := by
  have positive := Nat.two_pow_pos k
  have nonzero : 1 ≤ addr + 2 ^ k := by omega
  have last : addr + 2 ^ k - 1 < 2 ^ usizeBits := by omega
  rw [alignUp, checkedAdd_of_lt bounded, Program.ret_bind, checkedSub_of_le nonzero,
    Program.ret_bind, alignDown_two_pow last fits]
  rfl

/-- `align_up` panics where the intermediate sum leaves `usize`. -/
theorem alignUp_overflow {addr align : Nat} (overflow : ¬ addr + align < 2 ^ usizeBits) :
    (alignUp addr align : Program sig ε Nat) = .panic := by
  rw [alignUp, checkedAdd_overflow overflow, Program.panic_bind]

variable {σ : Type} (handler : Handler sig σ)

theorem run_checkedAdd (a b : Nat) (state : σ) :
    Program.run (ε := ε) handler (checkedAdd a b) state =
      if a + b < 2 ^ usizeBits then (.ok (a + b), state) else (.panic, state) := by
  unfold checkedAdd
  split <;> rfl

theorem run_checkedSub (a b : Nat) (state : σ) :
    Program.run (ε := ε) handler (checkedSub a b) state =
      if b ≤ a then (.ok (a - b), state) else (.panic, state) := by
  unfold checkedSub
  split <;> rfl

theorem run_alignUp (addr : Nat) {k : Nat} (fits : k ≤ usizeBits) (state : σ) :
    Program.run (ε := ε) handler (alignUp addr (2 ^ k)) state =
      if addr + 2 ^ k < 2 ^ usizeBits then
        (.ok ((addr + 2 ^ k - 1) / 2 ^ k * 2 ^ k), state)
      else (.panic, state) := by
  split
  next bounded => rw [alignUp_of_lt fits bounded, Program.run_ret]
  next overflow => rw [alignUp_overflow overflow, Program.run_panic]

/-! On the 32-bit target, where nothing overflows: -/

theorem run_checkedAdd_of_lt {a b : Nat} (bounded : a + b < 0x100000000) (state : σ) :
    Program.run (ε := ε) handler (checkedAdd a b) state = (.ok (a + b), state) := by
  rw [run_checkedAdd]
  exact if_pos bounded

theorem run_checkedSub_of_le {a b : Nat} (ordered : b ≤ a) (state : σ) :
    Program.run (ε := ε) handler (checkedSub a b) state = (.ok (a - b), state) := by
  rw [run_checkedSub, if_pos ordered]

end Arithmetic

end SatanKernel
