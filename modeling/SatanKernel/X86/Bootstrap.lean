import SatanKernel.Lib.ByteMemory
import SatanKernel.X86.Walk

/-!
# The boot page tables

The part of `_start` in `arch/x86/x32/bootstrap.S` that builds the page tables, and the
function `mmap` that it calls.  The code runs before paging is enabled, so addresses are
physical.  Each line of a definition is one instruction; addition wraps around.

The symbols are those of `linker.ld`.  The tables follow each other in the source: the
top-level table, the table of the first 4 MiB, two tables of the higher half, and
`kernel_tmp_page_entry_address`.
-/

namespace SatanKernel.X86

open Lib

/-- Where the kernel is mapped. -/
def kernelOffset : Nat := 0xC0000000

/-- The values of the symbols. -/
structure Symbols where
  kernelBootstrapEnd : Nat
  kernelStart : Nat
  dataStart : Nat
  kernelEnd : Nat
  kernelTmpPageAddress : Nat
  kernelReservedEnd : Nat
  kernelTopLevelPageTable : Nat
  bootstrapStackTop : Nat
  deriving DecidableEq, Repr

namespace Symbols

variable (symbols : Symbols)

def kernelPageTableBootstrap : Nat := symbols.kernelTopLevelPageTable + 0x1000

def kernelPageTablesHigherHalf : Nat := symbols.kernelTopLevelPageTable + 0x2000

def kernelTmpPageEntryAddress : Nat := symbols.kernelTopLevelPageTable + 0x4000

end Symbols

/-- Registers and memory, with the addresses of the stores so far. -/
structure Machine where
  eax : Nat
  ebx : Nat
  ecx : Nat
  esi : Nat
  edi : Nat
  esp : Nat
  memory : Bytes
  stores : List Nat

/-- `add`. -/
@[irreducible] def add32 (left right : Nat) : Nat := (left + right) % 2 ^ 32

/-- A symbol minus `KERNEL_OFFSET`. -/
def low (symbol : Nat) : Nat := add32 symbol (2 ^ 32 - kernelOffset)

namespace Machine

/-- `mov` of a register to memory. -/
def store (machine : Machine) (address value : Nat) : Machine :=
  { machine with
    memory := machine.memory.storeWord address value
    stores := machine.stores ++ [address] }

def push (machine : Machine) (value : Nat) : Machine :=
  { machine with esp := add32 machine.esp (2 ^ 32 - 4) }.store
    (add32 machine.esp (2 ^ 32 - 4)) value

end Machine

/-- Why the code did not get to its end. -/
inductive Stop where
  | kernelBootstrapTooBig
  | kernelTooBig
  /-- `ret` to another address than that of the call -/
  | returnedTo (address : Nat)
  /-- A loop is still running -/
  | running
  deriving DecidableEq, Repr

/-- The loop of `mmap`, for at most `fuel` iterations. -/
def mmap : Nat → Machine → Except Stop Machine
  | 0, _ => .error .running
  | fuel + 1, machine =>
      let machine := { machine with ecx := machine.esi }
      let machine := { machine with ecx := machine.ecx ||| machine.ebx }
      let machine := machine.store machine.edi machine.ecx
      let machine := { machine with edi := add32 machine.edi 4 }
      let machine := { machine with esi := add32 machine.esi 4096 }
      if machine.esi < machine.eax then mmap fuel machine else .ok machine

/-- `call mmap`, with the address of the next instruction. -/
def callMmap (fuel returnAddress : Nat) (machine : Machine) : Except Stop Machine := do
  let machine ← mmap fuel (machine.push returnAddress)
  let target := machine.memory.loadWord machine.esp
  let machine := { machine with esp := add32 machine.esp 4 }
  if target = returnAddress then pure machine else throw (.returnedTo target)

/-- `map_lower.loop`. -/
def mapLower : Nat → Machine → Except Stop Machine
  | 0, _ => .error .running
  | fuel + 1, machine =>
      let machine := { machine with eax := machine.esi }
      let machine := { machine with eax := machine.eax ||| 0b10000011 }
      let machine := machine.store machine.edi machine.eax
      let machine := { machine with esi := add32 machine.esi 0x400000 }
      let machine := { machine with edi := add32 machine.edi 4 }
      if machine.esi > 0x800000 then mapLower fuel machine else .ok machine

/-- The entries of the top-level table. -/
def mapTopLevel (symbols : Symbols) (fuel : Nat) (machine : Machine) :
    Except Stop Machine := do
  -- Map first page table (4MB)
  let machine := { machine with eax := low symbols.kernelPageTableBootstrap }
  let machine := { machine with eax := machine.eax ||| 0b00000011 }
  let machine := machine.store (low symbols.kernelTopLevelPageTable) machine.eax
  -- Map some more of lower pages
  let machine := { machine with esi := 0x400000 }
  let machine := { machine with edi := add32 (low symbols.kernelTopLevelPageTable) 4 }
  let machine ← mapLower fuel machine
  -- Map first 2 page tables into the higher half of the address space
  let machine := { machine with eax := low symbols.kernelPageTablesHigherHalf }
  let machine := { machine with eax := machine.eax ||| 0b00000011 }
  let machine := { machine with
    ebx := add32 (low symbols.kernelTopLevelPageTable) (kernelOffset / 0x400000 * 4) }
  let machine := machine.store machine.ebx machine.eax
  let machine := { machine with eax := add32 machine.eax 0x1000 }
  let machine := { machine with ebx := add32 machine.ebx 4 }
  pure (machine.store machine.ebx machine.eax)

/-- The table of the first 4 MiB. -/
def mapBootstrap (symbols : Symbols) (returnAddress : Nat → Nat) (fuel : Nat)
    (machine : Machine) : Except Stop Machine := do
  let machine := { machine with eax := 0x400000 }
  if machine.eax < symbols.kernelBootstrapEnd then throw .kernelBootstrapTooBig
  let machine := { machine with esi := 0 }
  let machine := { machine with eax := 0x100000 }
  let machine := { machine with edi := low symbols.kernelPageTableBootstrap }
  let machine := { machine with ebx := 0b11 }
  let machine ← callMmap fuel (returnAddress 0) machine
  let machine := { machine with eax := 0x400000 }
  let machine := { machine with ebx := 0b01 }
  callMmap fuel (returnAddress 1) machine

/-- The tables of the higher half. -/
def mapKernel (symbols : Symbols) (returnAddress : Nat → Nat) (fuel : Nat)
    (machine : Machine) : Except Stop Machine := do
  let machine := { machine with eax := add32 kernelOffset 0x800000 }
  if machine.eax < symbols.kernelReservedEnd then throw .kernelTooBig
  let machine := { machine with esi := low symbols.kernelStart }
  let machine := { machine with eax := low symbols.dataStart }
  -- Compute offset into page table
  let machine := { machine with edi := low symbols.kernelStart }
  let machine := { machine with edi := machine.edi >>> 10 }
  let machine := { machine with
    edi := add32 machine.edi (low symbols.kernelPageTablesHigherHalf) }
  let machine := { machine with ebx := 0b100000001 }
  let machine ← callMmap fuel (returnAddress 2) machine
  let machine := { machine with eax := low symbols.kernelEnd }
  let machine := { machine with ebx := 0b100000011 }
  callMmap fuel (returnAddress 3) machine

/-- The address of the entry of the tmp page. -/
def setupTmpPage (symbols : Symbols) (machine : Machine) : Machine :=
  let machine := { machine with edi := low symbols.kernelTmpPageAddress }
  let machine := { machine with edi := machine.edi >>> 10 }
  let machine := { machine with
    edi := add32 machine.edi symbols.kernelPageTablesHigherHalf }
  machine.store (low symbols.kernelTmpPageEntryAddress) machine.edi

/-- `_start`, from the first page table to the tmp page. -/
def buildTables (symbols : Symbols) (returnAddress : Nat → Nat) (fuel : Nat)
    (machine : Machine) : Except Stop Machine := do
  let machine ← mapTopLevel symbols fuel machine
  let machine ← mapBootstrap symbols returnAddress fuel machine
  let machine ← mapKernel symbols returnAddress fuel machine
  pure (setupTmpPage symbols machine)

/-! ## What the linker and the checks allow -/

/-- The values of the symbols that `linker.ld` leads to, for a kernel that passes both
size checks. -/
structure Symbols.Linked (symbols : Symbols) : Prop where
  kernelStart_aligned : symbols.kernelStart % 0x1000 = 0
  dataStart_aligned : symbols.dataStart % 0x1000 = 0
  offset_le_start : kernelOffset + 0x100000 ≤ symbols.kernelStart
  start_lt_data : symbols.kernelStart < symbols.dataStart
  data_lt_end : symbols.dataStart < symbols.kernelEnd
  tmpPage_eq : symbols.kernelTmpPageAddress = (symbols.kernelEnd + 0xfff) / 0x1000 * 0x1000
  reservedEnd_eq : symbols.kernelReservedEnd = symbols.kernelTmpPageAddress + 0x1000
  kernel_fits : symbols.kernelReservedEnd ≤ kernelOffset + 0x800000
  bootstrap_fits : symbols.kernelBootstrapEnd ≤ 0x400000
  /-- The tables are in the data of the kernel, -/
  tables_aligned : symbols.kernelTopLevelPageTable % 0x1000 = 0
  data_le_tables : symbols.dataStart ≤ symbols.kernelTopLevelPageTable
  /-- and the stacks are behind them. -/
  tables_le_stack : symbols.kernelTmpPageEntryAddress + 4 ≤ symbols.bootstrapStackTop - 0x4000
  stack_le_end : symbols.bootstrapStackTop ≤ symbols.kernelEnd

/-- The memory as page tables. -/
def pageTables (memory : Bytes) : Memory := fun frame index =>
  ⟨BitVec.ofNat usizeBits (memory.loadWord (frame + 4 * index))⟩

/-- The address of the entry of the last level that translates an address. -/
def pteAddress (memory : Memory) (root vaddr : Nat) : Nat :=
  (memory root (dirIndex vaddr)).frame + 4 * tableIndex vaddr

end SatanKernel.X86
