import SatanKernel.Memory.NestedPageTable

/-!
# x86 page sizes and page-table entries

The 32-bit configuration of `arch/x86/paging/page_size.rs` and
`arch/x86/paging/page_table_entry.rs`.  An entry is one machine word that holds an
address and the flag bits; encoding and decoding use the masks of the source.
-/

namespace SatanKernel.X86

open Lib

/-- Page sizes possible to map. -/
inductive PageSize where
  | size4K
  | size4M
  deriving DecidableEq, Repr

namespace PageSize

def toNat : PageSize → Nat
  | .size4K => 0x1000
  | .size4M => 0x400000

instance : PageSizeTrait PageSize where
  MIN := .size4K
  tryFrom size :=
    if size = 0x1000 then some .size4K
    else if size = 0x400000 then some .size4M
    else none
  into := toNat

end PageSize

/-- Page table entry flags (first byte from the right). -/
structure PTEFlags where
  /-- Present -/
  p : Bool
  /-- Read/write; if 0, writes may not be allowed -/
  rw : Bool
  /-- User/supervisor; if 0, user-mode accesses are not allowed -/
  us : Bool
  /-- Write-through -/
  pwt : Bool
  /-- Cache disable -/
  pcd : Bool
  /-- Page size; if set this entry maps a large page -/
  ps : Bool
  /-- Global; if set, invulnerable to TLB invalidation -/
  g : Bool
  deriving DecidableEq, Repr

namespace PTEFlags

/-- The bits of a set of flags. -/
def bits (flags : PTEFlags) : Nat :=
  flags.p.toNat <<< 0 ||| flags.rw.toNat <<< 1 ||| flags.us.toNat <<< 2 |||
    flags.pwt.toNat <<< 3 ||| flags.pcd.toNat <<< 4 ||| flags.ps.toNat <<< 7 |||
    flags.g.toNat <<< 8

/-- `From<MappingFlags> for PTEFlags`. -/
def ofMapping (value : MappingFlags) : PTEFlags where
  p := value.present
  rw := value.write
  us := value.user
  pwt := false
  pcd := value.uncached
  ps := false
  g := value.global

/-- `From<PTEFlags> for MappingFlags`. -/
def toMapping (value : PTEFlags) : MappingFlags where
  present := value.p
  read := false
  write := value.rw
  execute := false
  user := value.us
  uncached := value.pcd
  global := value.g

theorem bits_lt (flags : PTEFlags) : flags.bits < 0x200 := by
  obtain ⟨p, rw, us, pwt, pcd, ps, g⟩ := flags
  revert p rw us pwt pcd ps g
  decide

/-- Without `GLOBAL` the flags stay in the bits that the address mask clears. -/
theorem bits_ofMapping_lt {flags : MappingFlags} (notGlobal : flags.global = false) :
    (ofMapping flags).bits < 0x100 := by
  obtain ⟨present, read, write, execute, user, uncached, global⟩ := flags
  subst notGlobal
  revert present read write execute user uncached
  decide

/-- Flags are recovered from their bits. -/
theorem testBit_bits (flags : PTEFlags) :
    flags.bits.testBit 0 = flags.p ∧ flags.bits.testBit 1 = flags.rw ∧
      flags.bits.testBit 2 = flags.us ∧ flags.bits.testBit 3 = flags.pwt ∧
      flags.bits.testBit 4 = flags.pcd ∧ flags.bits.testBit 7 = flags.ps ∧
      flags.bits.testBit 8 = flags.g := by
  obtain ⟨p, rw, us, pwt, pcd, ps, g⟩ := flags
  revert p rw us pwt pcd ps g
  decide

end PTEFlags

/-- Page table entry. -/
structure PTEntry where
  word : BitVec usizeBits
  deriving DecidableEq, Repr

namespace PTEntry

def NULL : PTEntry := ⟨0⟩

/-- Create a new entry associated with a page. -/
def newPage (addr : Nat) (size : PageSize) (flags : PTEFlags) : PTEntry :=
  let flags := match size with
    | .size4M => { flags with ps := true }
    | .size4K => flags
  ⟨BitVec.ofNat usizeBits addr ||| BitVec.ofNat usizeBits flags.bits⟩

/-- Create a new entry associated with a page table. -/
def newPageTable (addr : Nat) : PTEntry :=
  let flags : PTEFlags := ⟨true, true, false, false, false, false, false⟩
  ⟨BitVec.ofNat usizeBits addr ||| BitVec.ofNat usizeBits flags.bits⟩

/-- Get flags of this page table entry. -/
def flags (entry : PTEntry) : PTEFlags where
  p := entry.word.getLsbD 0
  rw := entry.word.getLsbD 1
  us := entry.word.getLsbD 2
  pwt := entry.word.getLsbD 3
  pcd := entry.word.getLsbD 4
  ps := entry.word.getLsbD 7
  g := entry.word.getLsbD 8

/-- Get the address this page table entry holds. -/
def address (entry : PTEntry) : Nat := (entry.word &&& ~~~0x000000ff).toNat

/-! ## Decoding what was encoded -/

/-- The address mask clears the low eight bits only. -/
theorem address_eq (entry : PTEntry) :
    entry.address = entry.word.toNat / 0x100 * 0x100 := by
  have mask : (~~~0x000000ff : BitVec usizeBits).toNat =
      complement 32 (2 ^ 8 - 1) := by decide
  rw [address, BitVec.toNat_and, mask]
  exact and_complement_low (k := 8) entry.word.isLt (by decide)

/-- The word made of an aligned address and a set of flags. -/
theorem toNat_encode {addr : Nat} (bounded : addr < 0x100000000)
    (aligned : addr % 0x1000 = 0) (flags : PTEFlags) :
    (BitVec.ofNat usizeBits addr ||| BitVec.ofNat usizeBits flags.bits).toNat =
      addr + flags.bits := by
  have small := flags.bits_lt
  have boundedWord : addr < 2 ^ usizeBits := bounded
  have smallWord : flags.bits < 2 ^ usizeBits := lt_trans small (by decide)
  have alignedWord : addr % 2 ^ 12 = 0 := aligned
  rw [BitVec.toNat_or, BitVec.toNat_ofNat, BitVec.toNat_ofNat,
    Nat.mod_eq_of_lt boundedWord, Nat.mod_eq_of_lt smallWord,
    or_of_aligned alignedWord (lt_trans small (by decide))]

/-- The flag bits of such a word. -/
theorem getLsbD_encode {addr : Nat} (aligned : addr % 0x1000 = 0)
    (flags : PTEFlags) {bit : Nat} (low : bit < 12) :
    (BitVec.ofNat usizeBits addr ||| BitVec.ofNat usizeBits flags.bits).getLsbD bit =
      flags.bits.testBit bit := by
  have inside : bit < usizeBits := lt_trans low (by decide)
  have alignedWord : addr % 2 ^ 12 = 0 := aligned
  rw [BitVec.getLsbD_or, BitVec.getLsbD_ofNat, BitVec.getLsbD_ofNat,
    testBit_of_aligned alignedWord low]
  simp [inside]

theorem flags_encode {addr : Nat} (aligned : addr % 0x1000 = 0)
    (flags : PTEFlags) :
    PTEntry.flags
      ⟨BitVec.ofNat usizeBits addr ||| BitVec.ofNat usizeBits flags.bits⟩ =
      flags := by
  obtain ⟨p, rw, us, pwt, pcd, ps, g⟩ := flags.testBit_bits
  simp only [PTEntry.flags, getLsbD_encode aligned flags, Nat.reduceLT,
    p, rw, us, pwt, pcd, ps, g]

@[simp] theorem flags_NULL :
    NULL.flags = ⟨false, false, false, false, false, false, false⟩ := by decide

@[simp] theorem address_NULL : NULL.address = 0 := by decide

theorem newPage_4K_flags {addr : Nat} (aligned : addr % 0x1000 = 0)
    (flags : PTEFlags) : (newPage addr .size4K flags).flags = flags :=
  flags_encode aligned flags

theorem newPage_4M_flags {addr : Nat} (aligned : addr % 0x1000 = 0)
    (flags : PTEFlags) :
    (newPage addr .size4M flags).flags = { flags with ps := true } :=
  flags_encode aligned { flags with ps := true }

theorem newPageTable_flags {addr : Nat} (aligned : addr % 0x1000 = 0) :
    (newPageTable addr).flags =
      ⟨true, true, false, false, false, false, false⟩ :=
  flags_encode aligned _

/-- The frame bits of a 4 KiB entry are the encoded address. -/
theorem newPage_4K_frame {addr : Nat} (bounded : addr < 0x100000000)
    (aligned : addr % 0x1000 = 0) (flags : PTEFlags) :
    (newPage addr .size4K flags).word.toNat / 0x1000 * 0x1000 = addr := by
  have encoded : (newPage addr .size4K flags).word.toNat = addr + flags.bits :=
    toNat_encode bounded aligned flags
  have small := flags.bits_lt
  omega

/-- The frame bits of a 4 MiB entry are the encoded address. -/
theorem newPage_4M_frame {addr : Nat} (bounded : addr < 0x100000000)
    (aligned : addr % 0x400000 = 0) (flags : PTEFlags) :
    (newPage addr .size4M flags).word.toNat / 0x400000 * 0x400000 = addr := by
  have encoded : (newPage addr .size4M flags).word.toNat =
      addr + PTEFlags.bits { flags with ps := true } :=
    toNat_encode bounded (by omega) { flags with ps := true }
  have small := PTEFlags.bits_lt { flags with ps := true }
  omega

theorem newPageTable_word {addr : Nat} (bounded : addr < 0x100000000)
    (aligned : addr % 0x1000 = 0) :
    (newPageTable addr).word.toNat = addr + 3 :=
  toNat_encode bounded aligned ⟨true, true, false, false, false, false, false⟩

/-- What the generic free entry becomes at the 4 KiB level. -/
theorem newPage_null_4K : newPage 0 .size4K (.ofMapping .empty) = NULL := by decide

/-- What the generic free entry becomes at the 4 MiB level: `PS` stays set. -/
theorem newPage_null_4M : newPage 0 .size4M (.ofMapping .empty) = ⟨0x80⟩ := by
  decide

end PTEntry

end SatanKernel.X86
