import SatanKernel.X86.MapPage

/-!
# Reading entries back

`set_entry` encodes an entry into a word of the table and `get_entry` decodes it.  The
encoder shares the word between the address and the flag bits, and the decoder separates
them with a mask of its own; this module says when an entry comes back as it was written.
-/

namespace SatanKernel.X86

open Lib NestedPageTableLevel
open Lib.Program (run)

/-! ## Decoding an encoded entry -/

namespace PTEntry

/-- The address that the mask of the source leaves of an encoded word: `GLOBAL` is the one
flag outside of the bits that it clears. -/
theorem address_encode {addr : Nat} (bounded : addr < 0x100000000)
    (aligned : addr % 0x1000 = 0) (flags : PTEFlags) :
    address ⟨BitVec.ofNat usizeBits addr ||| BitVec.ofNat usizeBits flags.bits⟩ =
      addr + if flags.g then 0x100 else 0 := by
  have low : flags.bits / 0x100 = if flags.g then 1 else 0 := by
    obtain ⟨p, rw, us, pwt, pcd, ps, g⟩ := flags
    revert p rw us pwt pcd ps g
    decide
  rw [address_eq, toNat_encode bounded aligned flags]
  split at low
  next global =>
    rw [if_pos global]
    omega
  next notGlobal =>
    rw [if_neg notGlobal]
    omega

end PTEntry

/-- The address of an entry is a physical address, aligned to what it maps: to the region
of the level for a page, to 4 KiB for a table. -/
def AddressAligned (self : PageTableLevel) : PageTableEntry PageTableLevel → Prop
  | .level level => level.paddr < 0x100000000 ∧ level.paddr % 0x1000 = 0
  | .page paddr _ => paddr < 0x100000000 ∧ paddr % regionSize self = 0

/-- What `get_entry` should return for an entry: x86 has no bits for `READ` and
`EXECUTE`. -/
def asRead : PageTableEntry PageTableLevel → PageTableEntry PageTableLevel
  | .level level => .level level
  | .page paddr flags => .page paddr { flags with read := false, execute := false }

/-- A table of the next level under a directory, or a page without `GLOBAL`. -/
def Recoverable (self : PageTableLevel) : PageTableEntry PageTableLevel → Prop
  | .level level => self.shift = 22 ∧ level.shift = 12
  | .page _ flags => flags.global = false

section Decode

variable {self : PageTableLevel}

/-- A table comes back as a table of the next level, if there is one. -/
theorem decode_newPageTable {addr : Nat} (shifted : self.shift = 22 ∨ self.shift = 12)
    (bounded : addr < 0x100000000) (aligned : addr % 0x1000 = 0) :
    self.decode (.newPageTable addr) =
      if self.shift = 22 then .level (pageTable addr)
      else .page addr ⟨true, false, true, false, false, false, false⟩ := by
  have flagsEq := PTEntry.newPageTable_flags aligned
  have addressEq : (PTEntry.newPageTable addr).address = addr :=
    PTEntry.address_encode bounded aligned ⟨true, true, false, false, false, false, false⟩
  rw [PageTableLevel.decode, flagsEq, addressEq]
  rcases shifted with upper | lower
  · simp [upper, pageLevelBits]
  · simp [lower, PTEFlags.toMapping]

/-- A page comes back as a page at both levels, at an address that `GLOBAL` moves. -/
theorem decode_newPage {paddr : Nat} {flags : MappingFlags} {size : PageSize}
    (sized : pageSize self = some size) (bounded : paddr < 0x100000000)
    (aligned : paddr % 0x1000 = 0) :
    self.decode (.newPage paddr size (.ofMapping flags)) =
      .page (paddr + if flags.global then 0x100 else 0)
        { flags with read := false, execute := false } := by
  cases size with
  | size4K =>
      have shallow : ¬self.shift > 12 := by
        intro deep
        have larger : 2 ^ 13 ≤ 2 ^ self.shift := Nat.pow_le_pow_right (by decide) deep
        simp only [pageSize, regionSize, Nat.one_shiftLeft, PageSizeTrait.tryFrom] at sized
        split at sized
        next small => omega
        next =>
          split at sized
          next => cases sized
          next => cases sized
      have addressEq : (PTEntry.newPage paddr .size4K (.ofMapping flags)).address =
          paddr + if flags.global then 0x100 else 0 :=
        PTEntry.address_encode bounded aligned (.ofMapping flags)
      rw [PageTableLevel.decode, PTEntry.newPage_4K_flags aligned, addressEq]
      simp [shallow, PTEFlags.toMapping, PTEFlags.ofMapping]
  | size4M =>
      have addressEq : (PTEntry.newPage paddr .size4M (.ofMapping flags)).address =
          paddr + if flags.global then 0x100 else 0 :=
        PTEntry.address_encode bounded aligned { PTEFlags.ofMapping flags with ps := true }
      rw [PageTableLevel.decode, PTEntry.newPage_4M_flags aligned, addressEq]
      simp [PTEFlags.toMapping, PTEFlags.ofMapping]

/-- An encoded entry decodes to itself exactly when it is recoverable. -/
theorem decode_encode_iff {entry : PageTableEntry PageTableLevel} {word : PTEntry}
    (shifted : self.shift = 22 ∨ self.shift = 12) (aligned : AddressAligned self entry)
    (encoded : self.encode entry = some word) :
    self.decode word = asRead entry ↔ Recoverable self entry := by
  cases entry with
  | level level =>
      obtain ⟨bounded, onFrame⟩ := aligned
      cases encoded
      rw [decode_newPageTable shifted bounded onFrame, asRead, Recoverable]
      split
      next upper =>
        simp only [PageTableEntry.level.injEq, upper, true_and]
        constructor
        · intro equal
          rw [← equal]
        · intro lower
          rw [pageTable, ← lower]
      next notUpper => simp [notUpper]
  | page paddr flags =>
      obtain ⟨bounded, onRegion⟩ := aligned
      obtain ⟨size, sized, rfl⟩ := Option.map_eq_some_iff.mp encoded
      have onFrame : paddr % 0x1000 = 0 := by
        rcases shifted with upper | lower
        · have onLarge : paddr % 0x400000 = 0 := by
            simpa [regionSize, upper] using onRegion
          omega
        · simp only [regionSize, lower] at onRegion
          exact onRegion
      rw [decode_newPage sized bounded onFrame, asRead, Recoverable]
      cases flags.global <;> simp

end Decode

/-! ## Entries of a table -/

section Table

variable {A : Type} [PageAllocatorTrait PageSize A] {self : PageTableLevel} {vaddr : Nat}
  {entry : PageTableEntry PageTableLevel} {state after : State A}

/-- A successful `set_entry` has stored the encoded entry. -/
theorem setEntry_ok (written : run handler (setEntry self vaddr entry) state = (.ok (), after)) :
    self.paddr % 0x1000 = 0 ∧ ∃ word, self.encode entry = some word ∧
      after.memory = state.memory.write self.paddr (self.index vaddr) word := by
  cases handled : handler (.setEntry self vaddr entry) state with
  | none =>
      rw [setEntry, Program.run_call_none handler handled] at written
      cases written
  | some result =>
      obtain ⟨answer, stored⟩ := result
      rw [setEntry, Program.run_call_some handler handled] at written
      obtain ⟨onFrame, ⟨error, rfl, -⟩ | ⟨word, encoded, rfl, rfl⟩⟩ :=
        handler_setEntry_cases handled
      · cases written
      · cases written
        exact ⟨onFrame, word, encoded, rfl⟩

/-- An entry reads back as it was written, and the others are unchanged. -/
def ReadsBack (self : PageTableLevel) (vaddr : Nat) (entry : PageTableEntry PageTableLevel)
    (before after : State A) : Prop :=
  (∀ query, self.index query = self.index vaddr →
    run handler (getEntry self query) after = (.ok (asRead entry), after)) ∧
  ∀ query, self.index query ≠ self.index vaddr →
    (run handler (getEntry self query) after).1 = (run handler (getEntry self query) before).1

/-- An entry reads back as it was written unless it is a page with `GLOBAL`, whose bit the
decoder takes for a part of the address, or is not a table of the level below. -/
theorem setEntry_reads_back_iff (shifted : self.shift = 22 ∨ self.shift = 12)
    (aligned : AddressAligned self entry)
    (written : run handler (setEntry self vaddr entry) state = (.ok (), after)) :
    ReadsBack self vaddr entry state after ↔ Recoverable self entry := by
  obtain ⟨onFrame, word, encoded, memoryEq⟩ := setEntry_ok written
  have reads : ∀ query (current : State A), run handler (getEntry self query) current =
      (.ok (self.decode (current.memory self.paddr (self.index query))), current) :=
    fun query current => run_getEntry current self query onFrame
  rw [← decode_encode_iff shifted aligned encoded]
  constructor
  · rintro ⟨same, -⟩
    have read := same vaddr rfl
    rw [reads, memoryEq, Memory.write_self] at read
    exact Outcome.ok.inj (Prod.mk.inj read).1
  · intro decoded
    refine ⟨?_, ?_⟩
    · intro query sameIndex
      rw [reads, sameIndex, memoryEq, Memory.write_self, decoded]
    · intro query otherIndex
      rw [reads, reads, memoryEq, Memory.write_of_index_ne _ _ _ _ otherIndex]

end Table

/-- A present page without `GLOBAL` at the last level reads back as it was written. -/
theorem setEntry_reads_back_page :
    ∃ after : State (Scripted 0x1000),
      run handler (setEntry (pageTable 0x2000) 0x3000 (.page 0x4000 .readWrite))
        (emptySpace []) = (.ok (), after) ∧
      ReadsBack (pageTable 0x2000) 0x3000 (.page 0x4000 .readWrite) (emptySpace []) after := by
  have written := run_setEntry_pageTable (emptySpace [])
    (show 0x2000 % 0x1000 = 0 by decide) (show 0x3000 % 0x1000 = 0 by decide) 0x4000 .readWrite
  have aligned : AddressAligned (pageTable 0x2000) (.page 0x4000 .readWrite) :=
    ⟨by decide, by decide⟩
  exact ⟨_, written, (setEntry_reads_back_iff (.inr rfl) aligned written).mpr rfl⟩

/-- `PRESENT | GLOBAL`. -/
def globalPage : MappingFlags := ⟨true, false, false, false, false, false, true⟩

/-- A page with `GLOBAL` comes back at another address. -/
theorem setEntry_global_page_moves :
    ∃ after : State (Scripted 0x1000),
      run handler (setEntry (pageTable 0x2000) 0x3000 (.page 0x4000 globalPage))
        (emptySpace []) = (.ok (), after) ∧
      run handler (getEntry (pageTable 0x2000) 0x3000) after =
        (.ok (.page 0x4100 globalPage), after) ∧
      ¬ReadsBack (pageTable 0x2000) 0x3000 (.page 0x4000 globalPage) (emptySpace []) after := by
  have written := run_setEntry_pageTable (emptySpace [])
    (show 0x2000 % 0x1000 = 0 by decide) (show 0x3000 % 0x1000 = 0 by decide) 0x4000 globalPage
  have address : (PTEntry.newPage 0x4000 .size4K (.ofMapping globalPage)).address = 0x4100 := by
    decide
  have flags : (PTEntry.newPage 0x4000 .size4K (.ofMapping globalPage)).flags.toMapping =
      globalPage := by
    decide
  have moved := run_getEntry_pageTable { emptySpace [] with
    memory := (emptySpace []).memory.write 0x2000 (tableIndex 0x3000)
      (.newPage 0x4000 .size4K (.ofMapping globalPage)) } 0x3000
    (show 0x2000 % 0x1000 = 0 by decide)
  dsimp only at moved
  rw [Memory.write_self, address, flags] at moved
  refine ⟨_, written, moved, fun readsBack => ?_⟩
  have read := (Prod.mk.inj (moved.symm.trans (readsBack.1 0x3000 rfl))).1
  exact absurd (Outcome.ok.inj read) (by decide)

end SatanKernel.X86
