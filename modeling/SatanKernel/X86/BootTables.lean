import SatanKernel.X86.Bootstrap
import SatanKernel.X86.TableUpdates

/-!
# What the boot page tables map

The four tables are 4096 consecutive words, and the code is followed by what these words
hold.  Each call of `mmap` fills a range of the words with the entries of consecutive
pages.
-/

namespace SatanKernel.X86

open Lib

theorem add32_of_lt {left right : Nat} (fits : left + right < 0x100000000) :
    add32 left right = left + right := by
  rw [add32]
  exact Nat.mod_eq_of_lt fits

theorem add32_eq {left right sum : Nat} (equal : left + right = sum)
    (fits : sum < 0x100000000) : add32 left right = sum := by
  rw [add32_of_lt (by rw [equal]; exact fits), equal]

/-! ## The loop of `mmap` -/

/-- `mmap` fills words with the entries of `count` pages. -/
theorem mmap_eq {count : Nat} (positive : 0 < count) {fuel : Nat} (enough : count ≤ fuel)
    (machine : Machine) (more : machine.esi + 4096 * count < machine.eax + 4096)
    (last : machine.eax ≤ machine.esi + 4096 * count)
    (pagesFit : machine.esi + 4096 * count < 0x100000000)
    (wordsFit : machine.edi + 4 * count < 0x100000000) :
    mmap fuel machine = .ok { machine with
      ecx := (machine.esi + 4096 * (count - 1)) ||| machine.ebx
      esi := machine.esi + 4096 * count
      edi := machine.edi + 4 * count
      memory := machine.memory.fillWords machine.edi machine.esi 4096 machine.ebx count
      stores := machine.stores ++ (List.range count).map (machine.edi + 4 * ·) } := by
  induction count generalizing fuel machine with
  | zero => cases positive
  | succ count ih =>
      obtain ⟨less, fuelEq⟩ : ∃ less, fuel = less + 1 := ⟨fuel - 1, by omega⟩
      rw [Nat.mul_succ, ← Nat.add_assoc] at more last pagesFit
      have nextPage : add32 machine.esi 4096 = machine.esi + 4096 := add32_of_lt (by omega)
      have nextWord : add32 machine.edi 4 = machine.edi + 4 := add32_of_lt (by omega)
      rw [fuelEq, mmap]
      simp only [Machine.store, nextPage, nextWord]
      cases Nat.eq_zero_or_pos count with
      | inl none =>
          have done : ¬machine.esi + 4096 < machine.eax := by omega
          rw [if_neg done, none]
          simp [Bytes.fillWords]
      | inr some =>
          have goesOn : machine.esi + 4096 < machine.eax := by omega
          rw [if_pos goesOn, ih some (by omega) _ (by dsimp only; omega) (by dsimp only; omega)
            (by dsimp only; omega) (by dsimp only; omega)]
          have pages : machine.esi + 4096 + 4096 * count = machine.esi + 4096 * (count + 1) := by
            rw [Nat.mul_succ, Nat.add_assoc, Nat.add_comm 4096]
          have lastPage : machine.esi + 4096 + 4096 * (count - 1) = machine.esi + 4096 * count := by
            rw [Nat.add_assoc, Nat.add_comm 4096, ← Nat.mul_succ, Nat.succ_eq_add_one,
              Nat.sub_add_cancel some]
          have words : machine.edi + 4 + 4 * count = machine.edi + 4 * (count + 1) := by omega
          have rest : (List.range count).map (machine.edi + 4 + 4 * ·) =
              (List.range count).map ((machine.edi + 4 * ·) ∘ Nat.succ) := by
            apply List.map_congr_left
            intro index _
            change machine.edi + 4 + 4 * index = machine.edi + 4 * (index + 1)
            omega
          have stores : machine.stores ++ [machine.edi] ++
              (List.range count).map (machine.edi + 4 + 4 * ·) =
              machine.stores ++ (List.range (count + 1)).map (machine.edi + 4 * ·) := by
            rw [rest, List.range_succ_eq_map, List.map_cons, List.map_map, List.append_assoc,
              List.singleton_append, Nat.mul_zero, Nat.add_zero]
          simp only [pages, lastPage, words, stores, Nat.add_sub_cancel]
          rfl

/-! ## The words of the tables -/

section Push

variable (machine : Machine) (value : Nat)

theorem push_registers : (machine.push value).eax = machine.eax ∧
    (machine.push value).ebx = machine.ebx ∧ (machine.push value).esi = machine.esi ∧
    (machine.push value).edi = machine.edi := by
  obtain ⟨eax, ebx, ecx, esi, edi, esp, memory, stores⟩ := machine
  exact ⟨rfl, rfl, rfl, rfl⟩

theorem push_stack :
    (machine.push value).esp = add32 machine.esp (2 ^ 32 - 4) ∧
    (machine.push value).memory =
      machine.memory.storeWord (add32 machine.esp (2 ^ 32 - 4)) value ∧
    (machine.push value).stores = machine.stores ++ [add32 machine.esp (2 ^ 32 - 4)] := by
  obtain ⟨eax, ebx, ecx, esi, edi, esp, memory, stores⟩ := machine
  exact ⟨rfl, rfl, rfl⟩

end Push

/-- The places that the code may store to: the tables, the address of the entry of the tmp
page, and the slot of the return address. -/
def StoreAllowed (root slot address : Nat) : Prop :=
  root ≤ address ∧ address + 4 ≤ root + 0x4000 ∨ address = root + 0x4000 ∨ address = slot

/-- The words of the tables, where the code has stored so far, and the stack pointer. -/
structure Built (root slot : Nat) (entries : Nat → Nat) (machine : Machine) : Prop where
  words : ∀ index < 0x1000, machine.memory.loadWord (root + 4 * index) = entries index
  stores : ∀ address ∈ machine.stores, StoreAllowed root slot address
  esp : machine.esp = slot + 4

/-- The tables with another entry at an index. -/
def withEntry (entries : Nat → Nat) (index value : Nat) : Nat → Nat := fun other =>
  if other = index then value else entries other

section Built

variable {root slot : Nat} {entries : Nat → Nat} {machine : Machine}

/-- Registers do not matter. -/
theorem Built.registers {eax ebx ecx esi edi esp : Nat} {memory : Bytes} {stores : List Nat}
    (built : Built root slot entries ⟨eax, ebx, ecx, esi, edi, esp, memory, stores⟩)
    (eax' ebx' ecx' esi' edi' : Nat) :
    Built root slot entries ⟨eax', ebx', ecx', esi', edi', esp, memory, stores⟩ :=
  ⟨built.words, built.stores, built.esp⟩

/-- A store to a word of the tables. -/
theorem Built.store {eax ebx ecx esi edi esp : Nat} {memory : Bytes} {stores : List Nat}
    (built : Built root slot entries ⟨eax, ebx, ecx, esi, edi, esp, memory, stores⟩)
    {index value address : Nat} (position : address = root + 4 * index)
    (inside : index < 0x1000) (fits : value < 0x100000000) (eax' ebx' ecx' esi' edi' : Nat) :
    Built root slot (withEntry entries index value)
      ⟨eax', ebx', ecx', esi', edi', esp, memory.storeWord address value, stores ++ [address]⟩ where
  words := by
    intro other otherInside
    rw [withEntry, position]
    by_cases equal : other = index
    · rw [if_pos equal, equal]
      exact Bytes.loadWord_storeWord_self _ _ fits
    · rw [if_neg equal]
      exact (Bytes.loadWord_storeWord_of_disjoint _ _ (by omega)).trans
        (built.words other otherInside)
  stores := by
    intro other member
    cases List.mem_append.mp member with
    | inl earlier => exact built.stores other earlier
    | inr new =>
        rw [List.mem_singleton.mp new, position]
        exact Or.inl (by omega)
  esp := built.esp

/-- The tables with the entries of `count` pages from the given index on. -/
def withPages (entries : Nat → Nat) (index count first flags : Nat) : Nat → Nat := fun other =>
  if index ≤ other ∧ other < index + count then first + 4096 * (other - index) + flags
  else entries other

/-- A call of `mmap` returns, with the entries of `count` pages in the tables. -/
theorem Built.callMmap (built : Built root slot entries machine)
    (away : root + 0x4004 ≤ slot) (slotFits : slot + 4 < 0x100000000)
    {returnAddress : Nat} (isAddress : returnAddress < 0x100000000)
    (index count : Nat) {fuel : Nat} (edi : machine.edi = root + 4 * index)
    (inside : index + count ≤ 0x1000) (positive : 0 < count) (enough : count ≤ fuel)
    (more : machine.esi + 4096 * count < machine.eax + 4096)
    (last : machine.eax ≤ machine.esi + 4096 * count)
    (pagesFit : machine.esi + 4096 * count < 0x100000000)
    (aligned : machine.esi % 0x1000 = 0) (flags : machine.ebx < 0x1000) :
    ∃ after, callMmap fuel returnAddress machine = .ok after ∧
      Built root slot (withPages entries index count machine.esi machine.ebx) after ∧
      after.esi = machine.esi + 4096 * count ∧ after.edi = root + 4 * (index + count) := by
  have pushed : add32 machine.esp (2 ^ 32 - 4) = slot := by
    rw [built.esp, add32]
    omega
  have popped : add32 slot 4 = slot + 4 := add32_of_lt slotFits
  have wordsFit : machine.edi + 4 * count < 0x100000000 := by omega
  have entry : ∀ page < count, (machine.esi + 4096 * page) ||| machine.ebx =
      machine.esi + 4096 * page + machine.ebx := by
    intro page _
    have onPage : (machine.esi + 4096 * page) % 2 ^ 12 = 0 := by omega
    exact or_of_aligned onPage flags
  obtain ⟨eax, ebx, esi, edi'⟩ := push_registers machine returnAddress
  obtain ⟨esp, memory, stores⟩ := push_stack machine returnAddress
  rw [pushed] at esp memory stores
  have filled := mmap_eq positive enough (machine.push returnAddress)
    (by rw [esi, eax]; exact more) (by rw [esi, eax]; exact last)
    (by rw [esi]; exact pagesFit) (by rw [edi']; exact wordsFit)
  rw [eax, ebx, esi, edi', esp, memory, stores, edi] at filled
  have target : ((machine.memory.storeWord slot returnAddress).fillWords (root + 4 * index)
      machine.esi 4096 machine.ebx count).loadWord slot = returnAddress := by
    rw [Bytes.loadWord_fillWords_of_disjoint _ _ _ _ _ (Or.inr (by omega)),
      Bytes.loadWord_storeWord_self _ _ isAddress]
  have behind : root + 4 * index + 4 * count = root + 4 * (index + count) := by omega
  rw [X86.callMmap, filled, behind]
  simp only [Except.bind, bind, target, popped, if_true]
  refine ⟨_, rfl, ⟨?_, ?_, rfl⟩, rfl, rfl⟩
  · intro other otherInside
    rw [withPages]
    split
    next selected =>
      have word : root + 4 * other = root + 4 * index + 4 * (other - index) := by omega
      have page := entry (other - index) (by omega)
      have fits : (machine.esi + 4096 * (other - index)) ||| machine.ebx < 2 ^ 32 := by
        rw [page]
        omega
      rw [word, Bytes.loadWord_fillWords _ (by omega) fits, page]
    next outside =>
      rw [Bytes.loadWord_fillWords_of_disjoint _ _ _ _ _ (by omega),
        Bytes.loadWord_storeWord_of_disjoint _ _ (by omega)]
      exact built.words other otherInside
  · intro address member
    simp only [List.mem_append, List.mem_singleton, List.mem_map, List.mem_range] at member
    rcases member with (earlier | pushedThere) | ⟨word, inRange, there⟩
    · exact built.stores address earlier
    · exact Or.inr (Or.inr pushedThere)
    · exact Or.inl (by omega)

end Built

/-! ## The parts of `_start` -/

section Parts

variable {symbols : Symbols}

/-- The address of the top-level table. -/
def rootOf (symbols : Symbols) : Nat := symbols.kernelTopLevelPageTable - kernelOffset

/-- Where `call` puts the return address: the arguments of multiboot are on the stack. -/
def slotOf (symbols : Symbols) : Nat := symbols.bootstrapStackTop - kernelOffset - 12

/-- The addresses of the tables. -/
theorem Symbols.Linked.addresses (linked : symbols.Linked) :
    low symbols.kernelTopLevelPageTable = rootOf symbols ∧
    low symbols.kernelPageTableBootstrap = rootOf symbols + 0x1000 ∧
    low symbols.kernelPageTablesHigherHalf = rootOf symbols + 0x2000 ∧
    low symbols.kernelTmpPageEntryAddress = rootOf symbols + 0x4000 := by
  have above := linked.offset_le_start
  have data := linked.start_lt_data
  have tables := linked.data_le_tables
  have stack := linked.tables_le_stack
  have stackEnd := linked.stack_le_end
  have tmp := linked.tmpPage_eq
  have reserved := linked.reservedEnd_eq
  have fits := linked.kernel_fits
  simp only [Symbols.kernelPageTableBootstrap, Symbols.kernelPageTablesHigherHalf,
    Symbols.kernelTmpPageEntryAddress, kernelOffset, rootOf, low, add32] at *
  omega

theorem Symbols.Linked.bounds (linked : symbols.Linked) :
    rootOf symbols % 0x1000 = 0 ∧ rootOf symbols + 0x4004 ≤ slotOf symbols ∧
      slotOf symbols + 4 < 0x800000 := by
  have above := linked.offset_le_start
  have data := linked.start_lt_data
  have aligned := linked.tables_aligned
  have tables := linked.data_le_tables
  have stack := linked.tables_le_stack
  have stackEnd := linked.stack_le_end
  have tmp := linked.tmpPage_eq
  have reserved := linked.reservedEnd_eq
  have fits := linked.kernel_fits
  simp only [Symbols.kernelTmpPageEntryAddress, kernelOffset, rootOf, slotOf] at *
  omega

theorem Symbols.Linked.stack (linked : symbols.Linked) :
    low symbols.bootstrapStackTop - 12 = slotOf symbols ∧
      low symbols.bootstrapStackTop - 8 = slotOf symbols + 4 := by
  have above := linked.offset_le_start
  have data := linked.start_lt_data
  have tables := linked.data_le_tables
  have stack := linked.tables_le_stack
  have stackEnd := linked.stack_le_end
  have tmp := linked.tmpPage_eq
  have reserved := linked.reservedEnd_eq
  have fits := linked.kernel_fits
  simp only [Symbols.kernelTmpPageEntryAddress, kernelOffset, slotOf, low, add32] at *
  omega

theorem Symbols.Linked.offset_le_tmpPage (linked : symbols.Linked) :
    kernelOffset ≤ symbols.kernelTmpPageAddress := by
  have above := linked.offset_le_start
  have data := linked.start_lt_data
  have dataEnd := linked.data_lt_end
  have tmp := linked.tmpPage_eq
  simp only [kernelOffset] at *
  omega

/-- The top-level table: two entries of the lower half and two of the higher half. -/
theorem mapTopLevel_built (linked : symbols.Linked) {entries : Nat → Nat} {machine : Machine}
    (built : Built (rootOf symbols) (slotOf symbols) entries machine) {fuel : Nat}
    (enough : 0 < fuel) :
    ∃ after, mapTopLevel symbols fuel machine = .ok after ∧
      Built (rootOf symbols) (slotOf symbols)
        (withEntry (withEntry (withEntry (withEntry entries 0 (rootOf symbols + 0x1000 + 3))
          1 0x400083) 768 (rootOf symbols + 0x2000 + 3)) 769 (rootOf symbols + 0x2000 + 3 + 0x1000))
        after := by
  obtain ⟨topLevel, bootstrap, higherHalf, -⟩ := linked.addresses
  obtain ⟨aligned, away, fits⟩ := linked.bounds
  obtain ⟨less, rfl⟩ : ∃ less, fuel = less + 1 := ⟨fuel - 1, by omega⟩
  obtain ⟨eax, ebx, ecx, esi, edi, esp, memory, stores⟩ := machine
  have bootstrapEntry : (rootOf symbols + 0x1000) ||| 0b00000011 = rootOf symbols + 0x1000 + 3 :=
    or_of_aligned (k := 12) (by omega) (by decide)
  have higherHalfEntry : (rootOf symbols + 0x2000) ||| 0b00000011 = rootOf symbols + 0x2000 + 3 :=
    or_of_aligned (k := 12) (by omega) (by decide)
  have second : add32 (rootOf symbols) 4 = rootOf symbols + 4 * 1 :=
    add32_eq rfl (by omega)
  have offset : add32 (rootOf symbols) (kernelOffset / 0x400000 * 4) = rootOf symbols + 4 * 768 :=
    add32_eq (by rw [kernelOffset]) (by omega)
  have next : add32 (rootOf symbols + 4 * 768) 4 = rootOf symbols + 4 * 769 :=
    add32_eq (by omega) (by omega)
  have nextTable : add32 (rootOf symbols + 0x2000 + 3) 0x1000 =
      rootOf symbols + 0x2000 + 3 + 0x1000 := add32_of_lt (by omega)
  have stop : add32 0x400000 0x400000 = 0x800000 := add32_eq (by decide) (by decide)
  have largePage : 0x400000 ||| 0b10000011 = 0x400083 := by decide
  rw [mapTopLevel, topLevel, bootstrap, higherHalf]
  simp only [mapLower, bootstrapEntry, second, stop, largePage, gt_iff_lt, Nat.lt_irrefl,
    if_false, bind, Except.bind, pure, Except.pure, higherHalfEntry, offset, next, nextTable,
    Machine.store]
  refine ⟨_, rfl, ?_⟩
  have first := built.store (show rootOf symbols = rootOf symbols + 4 * 0 by omega) (by decide)
    (show rootOf symbols + 0x1000 + 3 < 0x100000000 by omega) 0 0 0 0 0
  have lower := first.store (Eq.refl (rootOf symbols + 4 * 1))
    (by decide) (show 0x400083 < 0x100000000 by decide) 0 0 0 0 0
  have higher := lower.store (Eq.refl (rootOf symbols + 4 * 768))
    (by decide) (show rootOf symbols + 0x2000 + 3 < 0x100000000 by omega) 0 0 0 0 0
  exact higher.store (Eq.refl (rootOf symbols + 4 * 769))
    (by decide) (show rootOf symbols + 0x2000 + 3 + 0x1000 < 0x100000000 by omega) _ _ _ _ _

/-- The first 4 MiB: writable below 1 MiB and read-only from there on. -/
theorem mapBootstrap_built (linked : symbols.Linked) {entries : Nat → Nat} {machine : Machine}
    (built : Built (rootOf symbols) (slotOf symbols) entries machine)
    {returnAddress : Nat → Nat} (areAddresses : ∀ call, returnAddress call < 0x100000000)
    {fuel : Nat} (enough : 0x800 ≤ fuel) :
    ∃ after, mapBootstrap symbols returnAddress fuel machine = .ok after ∧
      Built (rootOf symbols) (slotOf symbols)
        (withPages (withPages entries 1024 256 0 3) 1280 768 0x100000 1) after := by
  obtain ⟨-, bootstrap, -, -⟩ := linked.addresses
  obtain ⟨-, away, fits⟩ := linked.bounds
  obtain ⟨eax, ebx, ecx, esi, edi, esp, memory, stores⟩ := machine
  have small : ¬0x400000 < symbols.kernelBootstrapEnd := Nat.not_lt.mpr linked.bootstrap_fits
  obtain ⟨low, lowRan, lowBuilt, lowEsi, lowEdi⟩ :=
    (built.registers 0x100000 0b11 ecx 0 (rootOf symbols + 0x1000)).callMmap away (by omega)
      (areAddresses 0) 1024 256 (by dsimp only) (by decide)
      (by decide) (show 256 ≤ fuel by omega) (by dsimp only; decide) (by dsimp only; decide)
      (by dsimp only; decide) (by dsimp only) (by dsimp only; decide)
  obtain ⟨lowEax, lowEbx, lowEcx, _, _, lowEsp, lowMemory, lowStores⟩ := low
  dsimp only at lowEsi lowEdi
  subst lowEsi lowEdi
  obtain ⟨high, highRan, highBuilt, -, -⟩ :=
    (lowBuilt.registers 0x400000 0b01 lowEcx (0 + 4096 * 256)
      (rootOf symbols + 4 * (1024 + 256))).callMmap away (by omega)
      (areAddresses 1) 1280 768 (by dsimp only) (by decide)
      (by decide) (show 768 ≤ fuel by omega) (by dsimp only; decide) (by dsimp only; decide)
      (by dsimp only; decide) (by dsimp only) (by dsimp only; decide)
  rw [mapBootstrap]
  simp only [small, if_false, bootstrap, bind, Except.bind, lowRan]
  exact ⟨high, highRan, highBuilt⟩

/-- The number of the page, counted from the kernel offset, that an address is in. -/
def kernelPage (symbol : Nat) : Nat := (symbol - kernelOffset) / 0x1000

/-- The layout of the kernel in pages. -/
theorem Symbols.Linked.pages (linked : symbols.Linked) :
    low symbols.kernelStart = 4096 * kernelPage symbols.kernelStart ∧
    low symbols.dataStart = 4096 * kernelPage symbols.dataStart ∧
    low symbols.kernelTmpPageAddress = 4096 * kernelPage symbols.kernelTmpPageAddress ∧
    low symbols.kernelEnd ≤ 4096 * kernelPage symbols.kernelTmpPageAddress ∧
    4096 * kernelPage symbols.kernelTmpPageAddress < low symbols.kernelEnd + 4096 ∧
    0x100 ≤ kernelPage symbols.kernelStart ∧
    kernelPage symbols.kernelStart < kernelPage symbols.dataStart ∧
    kernelPage symbols.dataStart < kernelPage symbols.kernelTmpPageAddress ∧
    kernelPage symbols.kernelTmpPageAddress < 0x800 := by
  have startAligned := linked.kernelStart_aligned
  have dataAligned := linked.dataStart_aligned
  have above := linked.offset_le_start
  have data := linked.start_lt_data
  have dataEnd := linked.data_lt_end
  have tmp := linked.tmpPage_eq
  have reserved := linked.reservedEnd_eq
  have fits := linked.kernel_fits
  simp only [kernelPage, kernelOffset, low, add32] at *
  omega

/-- The entry of a page of the kernel in the tables of the higher half. -/
theorem shift_kernelPage (page : Nat) : (4096 * page) >>> 10 = 4 * page := by
  rw [Nat.shiftRight_eq_div_pow]
  omega

/-- The kernel: read-only up to its data and writable from there on. -/
theorem mapKernel_built (linked : symbols.Linked) {entries : Nat → Nat} {machine : Machine}
    (built : Built (rootOf symbols) (slotOf symbols) entries machine)
    {returnAddress : Nat → Nat} (areAddresses : ∀ call, returnAddress call < 0x100000000)
    {fuel : Nat} (enough : 0x800 ≤ fuel) :
    ∃ after, mapKernel symbols returnAddress fuel machine = .ok after ∧
      Built (rootOf symbols) (slotOf symbols)
        (withPages
          (withPages entries (2048 + kernelPage symbols.kernelStart)
            (kernelPage symbols.dataStart - kernelPage symbols.kernelStart)
            (4096 * kernelPage symbols.kernelStart) 0x101)
          (2048 + kernelPage symbols.dataStart)
          (kernelPage symbols.kernelTmpPageAddress - kernelPage symbols.dataStart)
          (4096 * kernelPage symbols.dataStart) 0x103) after := by
  obtain ⟨-, -, higherHalf, -⟩ := linked.addresses
  obtain ⟨-, away, fits⟩ := linked.bounds
  obtain ⟨startAt, dataAt, -, endLe, ltEnd, -, startLt, dataLt, tmpLt⟩ := linked.pages
  obtain ⟨eax, ebx, ecx, esi, edi, esp, memory, stores⟩ := machine
  generalize kernelPage symbols.kernelStart = startPage at *
  generalize kernelPage symbols.dataStart = dataPage at *
  generalize kernelPage symbols.kernelTmpPageAddress = tmpPage at *
  have stop : add32 kernelOffset 0x800000 = kernelOffset + 0x800000 :=
    add32_of_lt (by rw [kernelOffset]; decide)
  have small : ¬kernelOffset + 0x800000 < symbols.kernelReservedEnd :=
    Nat.not_lt.mpr linked.kernel_fits
  have offset : add32 (4 * startPage) (rootOf symbols + 0x2000) =
      rootOf symbols + 4 * (2048 + startPage) := add32_eq (by omega) (by omega)
  obtain ⟨text, textRan, textBuilt, textEsi, textEdi⟩ :=
    (built.registers (4096 * dataPage) 0b100000001 ecx (4096 * startPage)
      (rootOf symbols + 4 * (2048 + startPage))).callMmap away (by omega)
      (areAddresses 2) (2048 + startPage) (dataPage - startPage) rfl (by omega) (by omega)
      (show dataPage - startPage ≤ fuel by omega) (by dsimp only; omega) (by dsimp only; omega)
      (by dsimp only; omega) (by dsimp only; omega) (by dsimp only; decide)
  obtain ⟨textEax, textEbx, textEcx, _, _, textEsp, textMemory, textStores⟩ := text
  have dataEsi : 4096 * startPage + 4096 * (dataPage - startPage) = 4096 * dataPage := by omega
  have dataEdi : 2048 + startPage + (dataPage - startPage) = 2048 + dataPage := by omega
  dsimp only at textEsi textEdi
  rw [dataEsi] at textEsi
  rw [dataEdi] at textEdi
  subst textEsi textEdi
  obtain ⟨data, dataRan, dataBuilt, -, -⟩ :=
    (textBuilt.registers (low symbols.kernelEnd) 0b100000011 textEcx (4096 * dataPage)
      (rootOf symbols + 4 * (2048 + dataPage))).callMmap away (by omega)
      (areAddresses 3) (2048 + dataPage) (tmpPage - dataPage) rfl (by omega) (by omega)
      (show tmpPage - dataPage ≤ fuel by omega) (by dsimp only; omega) (by dsimp only; omega)
      (by dsimp only; omega) (by dsimp only; omega) (by dsimp only; decide)
  rw [mapKernel]
  simp only [stop, small, if_false, higherHalf, startAt, dataAt, shift_kernelPage, offset, bind,
    Except.bind, textRan]
  exact ⟨data, dataRan, dataBuilt⟩

/-- The words of the four tables at the end. -/
def bootEntries (symbols : Symbols) : Nat → Nat :=
  let topLevel := withEntry (withEntry (withEntry (withEntry (fun _ => 0)
    0 (rootOf symbols + 0x1000 + 3)) 1 0x400083) 768 (rootOf symbols + 0x2000 + 3))
    769 (rootOf symbols + 0x2000 + 3 + 0x1000)
  let bootstrap := withPages (withPages topLevel 1024 256 0 3) 1280 768 0x100000 1
  withPages
    (withPages bootstrap (2048 + kernelPage symbols.kernelStart)
      (kernelPage symbols.dataStart - kernelPage symbols.kernelStart)
      (4096 * kernelPage symbols.kernelStart) 0x101)
    (2048 + kernelPage symbols.dataStart)
    (kernelPage symbols.kernelTmpPageAddress - kernelPage symbols.dataStart)
    (4096 * kernelPage symbols.dataStart) 0x103

/-- The code gets to its end, with the tables built. -/
theorem buildTables_built (linked : symbols.Linked) {machine : Machine}
    (built : Built (rootOf symbols) (slotOf symbols) (fun _ => 0) machine)
    {returnAddress : Nat → Nat} (areAddresses : ∀ call, returnAddress call < 0x100000000)
    {fuel : Nat} (enough : 0x800 ≤ fuel) :
    ∃ after, buildTables symbols returnAddress fuel machine = .ok after ∧
      Built (rootOf symbols) (slotOf symbols) (bootEntries symbols) after ∧
      after.memory.loadWord (rootOf symbols + 0x4000) =
        kernelOffset + (rootOf symbols + 0x2000 +
          4 * kernelPage symbols.kernelTmpPageAddress) := by
  obtain ⟨topLevel, topLevelRan, topLevelBuilt⟩ :=
    mapTopLevel_built linked built (Nat.lt_of_lt_of_le (by decide) enough)
  obtain ⟨bootstrap, bootstrapRan, bootstrapBuilt⟩ :=
    mapBootstrap_built linked topLevelBuilt areAddresses enough
  obtain ⟨kernel, kernelRan, kernelBuilt⟩ :=
    mapKernel_built linked bootstrapBuilt areAddresses enough
  obtain ⟨-, -, higherHalf, entryAddress⟩ := linked.addresses
  obtain ⟨aligned, away, fits⟩ := linked.bounds
  obtain ⟨-, -, tmpAt, -, -, -, -, -, tmpLt⟩ := linked.pages
  obtain ⟨eax, ebx, ecx, esi, edi, esp, memory, stores⟩ := kernel
  have tables : symbols.kernelPageTablesHigherHalf = kernelOffset + (rootOf symbols + 0x2000) := by
    have tablesAbove := linked.data_le_tables
    have dataAbove := linked.start_lt_data
    have above := linked.offset_le_start
    rw [Symbols.kernelPageTablesHigherHalf, rootOf]
    omega
  have tmpEntry : add32 (4 * kernelPage symbols.kernelTmpPageAddress)
      symbols.kernelPageTablesHigherHalf =
      kernelOffset + (rootOf symbols + 0x2000 + 4 * kernelPage symbols.kernelTmpPageAddress) :=
    add32_eq (by rw [tables]; omega) (by rw [kernelOffset]; omega)
  rw [buildTables, topLevelRan]
  simp only [bind, Except.bind, bootstrapRan, kernelRan, pure, Except.pure, setupTmpPage, tmpAt,
    shift_kernelPage, entryAddress, tmpEntry, Machine.store]
  refine ⟨_, rfl, ⟨?_, ?_, kernelBuilt.esp⟩, ?_⟩
  · intro index inside
    rw [Bytes.loadWord_storeWord_of_disjoint _ _ (by omega)]
    exact kernelBuilt.words index inside
  · intro address member
    cases List.mem_append.mp member with
    | inl earlier => exact kernelBuilt.stores address earlier
    | inr new => exact Or.inr (Or.inl (List.mem_singleton.mp new))
  · apply Bytes.loadWord_storeWord_self
    rw [kernelOffset]
    omega

end Parts

/-! ## The walk -/

section Walk

variable {symbols : Symbols}

/-- What the tables should map, and where they should allow to write. -/
def bootMapping (symbols : Symbols) (vaddr : Nat) : Option (Nat × Bool) :=
  if symbols.kernelStart ≤ vaddr ∧ vaddr < symbols.kernelTmpPageAddress then
    some (vaddr - kernelOffset, decide (symbols.dataStart ≤ vaddr))
  else if vaddr < 0x800000 then
    some (vaddr, !decide (0x100000 ≤ vaddr ∧ vaddr < 0x400000))
  else none

/-- The address and the permission that a walk results in. -/
def Translation.target (translation : Translation) : Nat × Bool :=
  (translation.paddr, translation.writable)

/-- An entry of a page, read from the word that the code stores. -/
theorem entry_of_page {addr : Nat} (bounded : addr < 0x100000000) (aligned : addr % 0x1000 = 0)
    (flags : PTEFlags) :
    (⟨BitVec.ofNat usizeBits (addr + flags.bits)⟩ : PTEntry) = .newPage addr .size4K flags := by
  have encoded := PTEntry.toNat_encode bounded aligned flags
  rw [← encoded, PTEntry.newPage, BitVec.ofNat_toNat, BitVec.setWidth_eq]

/-- Read-only, of the kernel or of the lower half. -/
def readOnly (isGlobal : Bool) : PTEFlags := ⟨true, false, false, false, false, false, isGlobal⟩

def readWrite (isGlobal : Bool) : PTEFlags := ⟨true, true, false, false, false, false, isGlobal⟩

theorem Built.entry {root slot : Nat} {entries : Nat → Nat} {machine : Machine}
    (built : Built root slot entries machine) {frame i index : Nat}
    (position : frame + 4 * i = root + 4 * index) (inside : index < 0x1000) :
    pageTables machine.memory frame i = ⟨BitVec.ofNat usizeBits (entries index)⟩ := by
  rw [pageTables, position, built.words index inside]

/-- The directory. -/
theorem bootEntries_directory (symbols : Symbols) {index : Nat} (inside : index < 0x400) :
    bootEntries symbols index =
      if index = 769 then rootOf symbols + 0x2000 + 3 + 0x1000
      else if index = 768 then rootOf symbols + 0x2000 + 3
      else if index = 1 then 0x400083
      else if index = 0 then rootOf symbols + 0x1000 + 3
      else 0 := by
  simp only [bootEntries, withPages, withEntry]
  rw [if_neg (by omega), if_neg (by omega), if_neg (by omega), if_neg (by omega)]

/-- The entries of the directory for the higher half. -/
theorem bootEntries_higherHalf (symbols : Symbols) {page : Nat} (inside : page < 0x800) :
    bootEntries symbols (768 + page / 0x400) =
      rootOf symbols + 0x1000 * (2 + page / 0x400) + 3 := by
  rw [bootEntries_directory symbols (by omega)]
  split
  next last => omega
  next notLast =>
    rw [if_pos (by omega)]
    omega

/-- The table of the first 4 MiB. -/
theorem bootEntries_bootstrap (symbols : Symbols) {index : Nat} (inside : index < 0x400) :
    bootEntries symbols (1024 + index) =
      4096 * index + if index < 256 then 3 else 1 := by
  simp only [bootEntries, withPages]
  rw [if_neg (by omega), if_neg (by omega)]
  by_cases low : index < 256
  · rw [if_neg (by omega), if_pos (by omega), if_pos low]
    omega
  · rw [if_pos (by omega), if_neg low]
    omega

/-- The tables of the higher half. -/
theorem bootEntries_kernel (linked : symbols.Linked) {page : Nat} (inside : page < 0x800) :
    bootEntries symbols (2048 + page) =
      if kernelPage symbols.kernelStart ≤ page ∧
          page < kernelPage symbols.kernelTmpPageAddress then
        4096 * page + if kernelPage symbols.dataStart ≤ page then 0x103 else 0x101
      else 0 := by
  obtain ⟨-, -, -, -, -, -, startLt, dataLt, tmpLt⟩ := linked.pages
  simp only [bootEntries, withPages, withEntry]
  generalize kernelPage symbols.kernelStart = startPage at *
  generalize kernelPage symbols.dataStart = dataPage at *
  generalize kernelPage symbols.kernelTmpPageAddress = tmpPage at *
  by_cases mapped : startPage ≤ page ∧ page < tmpPage
  · rw [if_pos mapped]
    by_cases data : dataPage ≤ page
    · rw [if_pos (by omega), if_pos data]
      omega
    · rw [if_neg (by omega), if_pos (by omega), if_neg data]
      omega
  · rw [if_neg mapped, if_neg (by omega), if_neg (by omega), if_neg (by omega), if_neg (by omega),
      if_neg (by omega), if_neg (by omega), if_neg (by omega), if_neg (by omega)]

theorem entry_of_table {addr : Nat} (bounded : addr < 0x100000000)
    (aligned : addr % 0x1000 = 0) :
    (⟨BitVec.ofNat usizeBits (addr + 3)⟩ : PTEntry) = .newPageTable addr :=
  entry_of_page bounded aligned (readWrite false)

section Tables

variable {root slot : Nat} {entries : Nat → Nat} {machine : Machine}

/-- The walk from a directory entry that is a table. -/
theorem Built.walk_table (built : Built root slot entries machine) (aligned : root % 0x1000 = 0)
    (fits : root + 0x4000 < 0x100000000) {vaddr : Nat} (table : Nat) (inside : table < 4)
    (directory : entries (dirIndex vaddr) = root + 0x1000 * table + 3) :
    walk (pageTables machine.memory) root vaddr =
      walkEntries (.newPageTable (root + 0x1000 * table))
        ⟨BitVec.ofNat usizeBits (entries (0x400 * table + tableIndex vaddr))⟩ vaddr := by
  have directoryInside := dirIndex_lt vaddr
  have tableInside := tableIndex_lt vaddr
  have bounded : root + 0x1000 * table < 0x100000000 := by omega
  have onPage : (root + 0x1000 * table) % 0x1000 = 0 := by omega
  have isTable : pageTables machine.memory root (dirIndex vaddr) =
      .newPageTable (root + 0x1000 * table) := by
    rw [built.entry rfl (by omega), directory, entry_of_table bounded onPage]
  have position : root + 0x1000 * table + 4 * tableIndex vaddr =
      root + 4 * (0x400 * table + tableIndex vaddr) := by omega
  rw [walk, isTable, newPageTable_frame onPage bounded, built.entry position (by omega)]

/-- A page in a table. -/
theorem walkEntries_page {table addr : Nat} (tableAligned : table % 0x1000 = 0)
    (bounded : addr < 0x100000000) (aligned : addr % 0x1000 = 0) {flags : PTEFlags}
    (present : flags.p = true) {bits : Nat} (encoded : flags.bits = bits) (vaddr : Nat) :
    (walkEntries (.newPageTable table) ⟨BitVec.ofNat usizeBits (addr + bits)⟩ vaddr).map
      Translation.target = some (addr + vaddr % 0x1000, flags.rw) := by
  have frame : (PTEntry.newPage addr .size4K flags).frame = addr :=
    PTEntry.newPage_4K_frame bounded aligned flags
  rw [← encoded, entry_of_page bounded aligned]
  simp [walkEntries, PTEntry.newPageTable_flags tableAligned, PTEntry.newPage_4K_flags aligned,
    present, frame, Translation.target]

theorem walkEntries_zero (table : PTEntry) (tableSmall : table.flags.ps = false) (vaddr : Nat) :
    walkEntries table ⟨BitVec.ofNat usizeBits 0⟩ vaddr = none := by
  have null : (⟨BitVec.ofNat usizeBits 0⟩ : PTEntry) = .NULL := rfl
  simp [walkEntries, null, tableSmall]

end Tables

section Boot

variable {machine : Machine} {vaddr : Nat}

/-- The first 4 MiB. -/
theorem Built.walk_lower (linked : symbols.Linked)
    (built : Built (rootOf symbols) (slotOf symbols) (bootEntries symbols) machine)
    (lower : vaddr < 0x400000) :
    (walk (pageTables machine.memory) (rootOf symbols) vaddr).map Translation.target =
      some (vaddr, decide (vaddr < 0x100000)) := by
  obtain ⟨aligned, away, fits⟩ := linked.bounds
  have region : dirIndex vaddr = 0 := by
    unfold dirIndex
    omega
  have page : tableIndex vaddr = vaddr / 0x1000 := by
    unfold tableIndex
    omega
  have directory : bootEntries symbols (dirIndex vaddr) = rootOf symbols + 0x1000 * 1 + 3 := by
    rw [region, bootEntries_directory symbols (by decide)]
    rfl
  have target : 4096 * (vaddr / 0x1000) + vaddr % 0x1000 = vaddr := by omega
  rw [built.walk_table aligned (by omega) 1 (by decide) directory, page,
    bootEntries_bootstrap symbols (by omega)]
  split
  next writable =>
    have allowed : vaddr < 0x100000 := by omega
    have present : (readWrite false).p = true := rfl
    rw [walkEntries_page (by omega) (by omega) (by omega) present (by decide), target,
      decide_eq_true allowed, readWrite]
  next readable =>
    have forbidden : ¬vaddr < 0x100000 := by omega
    have present : (readOnly false).p = true := rfl
    rw [walkEntries_page (by omega) (by omega) (by omega) present (by decide), target,
      decide_eq_false forbidden, readOnly]

/-- The 4 MiB page. -/
theorem Built.walk_large
    (built : Built (rootOf symbols) (slotOf symbols) (bootEntries symbols) machine)
    (fromLarge : 0x400000 ≤ vaddr) (large : vaddr < 0x800000) :
    (walk (pageTables machine.memory) (rootOf symbols) vaddr).map Translation.target =
      some (vaddr, true) := by
  have region : dirIndex vaddr = 1 := by
    unfold dirIndex
    omega
  have entry : pageTables machine.memory (rootOf symbols) (dirIndex vaddr) =
      .newPage 0x400000 .size4M (readWrite false) := by
    rw [region, built.entry rfl (by decide), bootEntries_directory symbols (by decide),
      if_neg (by decide), if_neg (by decide), if_pos rfl]
    decide
  have frame : (PTEntry.newPage 0x400000 .size4M (readWrite false)).largeFrame = 0x400000 := by
    decide
  have target : 0x400000 + vaddr % 0x400000 = vaddr := by omega
  rw [walk_of_large (by rw [entry]; decide), entry, frame, target]
  rfl

/-- The higher half. -/
theorem Built.walk_kernel (linked : symbols.Linked)
    (built : Built (rootOf symbols) (slotOf symbols) (bootEntries symbols) machine)
    (fromKernel : kernelOffset ≤ vaddr) (toKernel : vaddr < kernelOffset + 0x800000) :
    (walk (pageTables machine.memory) (rootOf symbols) vaddr).map Translation.target =
      if symbols.kernelStart ≤ vaddr ∧ vaddr < symbols.kernelTmpPageAddress then
        some (vaddr - kernelOffset, decide (symbols.dataStart ≤ vaddr))
      else none := by
  obtain ⟨aligned, away, fits⟩ := linked.bounds
  obtain ⟨pageLt, region, entry, inPage⟩ : kernelPage vaddr < 0x800 ∧
      dirIndex vaddr = 768 + kernelPage vaddr / 0x400 ∧
      0x400 * (2 + kernelPage vaddr / 0x400) + tableIndex vaddr = 2048 + kernelPage vaddr ∧
      4096 * kernelPage vaddr + vaddr % 0x1000 = vaddr - kernelOffset := by
    simp only [kernelPage, dirIndex, tableIndex, kernelOffset] at *
    omega
  obtain ⟨fromStart, toTmp, fromData⟩ : (kernelPage symbols.kernelStart ≤ kernelPage vaddr ↔
        symbols.kernelStart ≤ vaddr) ∧
      (kernelPage vaddr < kernelPage symbols.kernelTmpPageAddress ↔
        vaddr < symbols.kernelTmpPageAddress) ∧
      (kernelPage symbols.dataStart ≤ kernelPage vaddr ↔ symbols.dataStart ≤ vaddr) := by
    have startAligned := linked.kernelStart_aligned
    have dataAligned := linked.dataStart_aligned
    have above := linked.offset_le_start
    have data := linked.start_lt_data
    have dataEnd := linked.data_lt_end
    have tmp := linked.tmpPage_eq
    simp only [kernelPage, kernelOffset] at *
    omega
  have directory : bootEntries symbols (dirIndex vaddr) =
      rootOf symbols + 0x1000 * (2 + kernelPage vaddr / 0x400) + 3 := by
    rw [region, bootEntries_higherHalf symbols pageLt]
  rw [built.walk_table aligned (by omega) _ (by omega) directory, entry,
    bootEntries_kernel linked pageLt]
  simp only [fromStart, toTmp, fromData]
  split
  next mapped =>
    split
    next data =>
      have present : (readWrite true).p = true := rfl
      rw [walkEntries_page (by omega) (by omega) (by omega) present (by decide), inPage,
        decide_eq_true data, readWrite]
    next text =>
      have present : (readOnly true).p = true := rfl
      rw [walkEntries_page (by omega) (by omega) (by omega) present (by decide), inPage,
        decide_eq_false text, readOnly]
  next unmapped =>
    rw [walkEntries_zero _ (by rw [PTEntry.newPageTable_flags (by omega)])]
    rfl

/-- No other directory entry is present. -/
theorem Built.walk_other
    (built : Built (rootOf symbols) (slotOf symbols) (bootEntries symbols) machine)
    (isAddress : vaddr < 0x100000000) (notLower : 0x800000 ≤ vaddr)
    (notKernel : vaddr < kernelOffset ∨ kernelOffset + 0x800000 ≤ vaddr) :
    walk (pageTables machine.memory) (rootOf symbols) vaddr = none := by
  have region : dirIndex vaddr ≠ 769 ∧ dirIndex vaddr ≠ 768 ∧ dirIndex vaddr ≠ 1 ∧
      dirIndex vaddr ≠ 0 := by
    unfold dirIndex
    rw [kernelOffset] at notKernel
    omega
  have inside := dirIndex_lt vaddr
  have entry : pageTables machine.memory (rootOf symbols) (dirIndex vaddr) = .NULL := by
    rw [built.entry rfl (by omega), bootEntries_directory symbols inside, if_neg region.1,
      if_neg region.2.1, if_neg region.2.2.1, if_neg region.2.2.2]
    rfl
  exact walk_of_not_present (by rw [entry]; decide)

/-- The walk through the boot tables. -/
theorem Built.walk_eq (linked : symbols.Linked)
    (built : Built (rootOf symbols) (slotOf symbols) (bootEntries symbols) machine)
    (isAddress : vaddr < 0x100000000) :
    (walk (pageTables machine.memory) (rootOf symbols) vaddr).map Translation.target =
      bootMapping symbols vaddr := by
  have above := linked.offset_le_start
  have tmp := linked.reservedEnd_eq
  have fits := linked.kernel_fits
  rw [bootMapping]
  by_cases kernel : kernelOffset ≤ vaddr ∧ vaddr < kernelOffset + 0x800000
  · have notLower : ¬vaddr < 0x800000 := by
      rw [kernelOffset] at kernel
      omega
    rw [built.walk_kernel linked kernel.1 kernel.2, if_neg notLower]
  · have notKernel : ¬(symbols.kernelStart ≤ vaddr ∧ vaddr < symbols.kernelTmpPageAddress) := by
      omega
    rw [if_neg notKernel]
    by_cases lower : vaddr < 0x800000
    · rw [if_pos lower]
      by_cases first : vaddr < 0x400000
      · rw [built.walk_lower linked first, ← decide_not]
        simp only [Option.some.injEq, Prod.mk.injEq, decide_eq_decide, true_and]
        omega
      · have notCut : ¬(0x100000 ≤ vaddr ∧ vaddr < 0x400000) := by omega
        rw [built.walk_large (by omega) lower, decide_eq_false notCut, Bool.not_false]
    · rw [if_neg lower, built.walk_other isAddress (by omega) (by omega), Option.map_none]

/-- The entry of the last level that translates the tmp page. -/
theorem Built.pteAddress_tmpPage (linked : symbols.Linked)
    (built : Built (rootOf symbols) (slotOf symbols) (bootEntries symbols) machine) :
    (pageTables machine.memory (rootOf symbols)
      (dirIndex symbols.kernelTmpPageAddress)).isTable = true ∧
    pteAddress (pageTables machine.memory) (rootOf symbols) symbols.kernelTmpPageAddress =
      rootOf symbols + 0x2000 + 4 * kernelPage symbols.kernelTmpPageAddress := by
  obtain ⟨aligned, away, fits⟩ := linked.bounds
  obtain ⟨-, -, tmpAt, -, -, -, -, -, tmpLt⟩ := linked.pages
  have above := linked.offset_le_tmpPage
  obtain ⟨region, entry⟩ : dirIndex symbols.kernelTmpPageAddress =
        768 + kernelPage symbols.kernelTmpPageAddress / 0x400 ∧
      tableIndex symbols.kernelTmpPageAddress =
        kernelPage symbols.kernelTmpPageAddress % 0x400 := by
    simp only [kernelPage, dirIndex, tableIndex, kernelOffset] at *
    omega
  have bounded : rootOf symbols + 0x1000 * (2 + kernelPage symbols.kernelTmpPageAddress / 0x400) <
      0x100000000 := by omega
  have onPage : (rootOf symbols +
      0x1000 * (2 + kernelPage symbols.kernelTmpPageAddress / 0x400)) % 0x1000 = 0 := by omega
  have table : pageTables machine.memory (rootOf symbols)
      (dirIndex symbols.kernelTmpPageAddress) =
      .newPageTable (rootOf symbols +
        0x1000 * (2 + kernelPage symbols.kernelTmpPageAddress / 0x400)) := by
    rw [region, built.entry rfl (by omega), bootEntries_higherHalf symbols tmpLt,
      entry_of_table bounded onPage]
  constructor
  · rw [table, newPageTable_isTable onPage]
  · rw [pteAddress, table, newPageTable_frame onPage bounded, entry]
    omega

end Boot

/-- For every layout of the kernel that the linker allows, the boot code stores only where it
may, and leaves tables that map the lower 8 MiB and the kernel and nothing else. -/
theorem bootTables_map_kernel {symbols : Symbols} (linked : symbols.Linked) (machine : Machine)
    (zero : ∀ index < 0x1000,
      machine.memory.loadWord (low symbols.kernelTopLevelPageTable + 4 * index) = 0)
    (stack : machine.esp = low symbols.bootstrapStackTop - 8) (noStores : machine.stores = [])
    (returnAddress : Nat → Nat) (areAddresses : ∀ call, returnAddress call < 0x100000000)
    {fuel : Nat} (enough : 0x800 ≤ fuel) :
    ∃ after, buildTables symbols returnAddress fuel machine = .ok after ∧
      (∀ address ∈ after.stores, StoreAllowed (low symbols.kernelTopLevelPageTable)
        (low symbols.bootstrapStackTop - 12) address) ∧
      (∀ vaddr < 0x100000000,
        (walk (pageTables after.memory) (low symbols.kernelTopLevelPageTable) vaddr).map
          Translation.target = bootMapping symbols vaddr) ∧
      (pageTables after.memory (low symbols.kernelTopLevelPageTable)
        (dirIndex symbols.kernelTmpPageAddress)).isTable = true ∧
      (walk (pageTables after.memory) (low symbols.kernelTopLevelPageTable)
        (after.memory.loadWord (low symbols.kernelTmpPageEntryAddress))).map
          Translation.target =
        some (pteAddress (pageTables after.memory) (low symbols.kernelTopLevelPageTable)
          symbols.kernelTmpPageAddress, true) := by
  obtain ⟨topLevel, -, -, entryAddress⟩ := linked.addresses
  obtain ⟨aligned, away, fits⟩ := linked.bounds
  have slot := linked.stack
  rw [topLevel] at zero ⊢
  rw [slot.2] at stack
  rw [slot.1, entryAddress]
  have before : Built (rootOf symbols) (slotOf symbols) (fun _ => 0) machine := by
    refine ⟨zero, ?_, stack⟩
    rw [noStores]
    intro address member
    cases member
  obtain ⟨after, ran, built, tmpEntry⟩ := buildTables_built linked before areAddresses enough
  obtain ⟨isTable, position⟩ := built.pteAddress_tmpPage linked
  refine ⟨after, ran, built.stores, fun vaddr => built.walk_eq linked, isTable, ?_⟩
  obtain ⟨inKernel, inData, isAddress⟩ : (symbols.kernelStart ≤ kernelOffset + (rootOf symbols +
        0x2000 + 4 * kernelPage symbols.kernelTmpPageAddress) ∧
        kernelOffset + (rootOf symbols + 0x2000 +
          4 * kernelPage symbols.kernelTmpPageAddress) < symbols.kernelTmpPageAddress) ∧
      symbols.dataStart ≤ kernelOffset + (rootOf symbols + 0x2000 +
        4 * kernelPage symbols.kernelTmpPageAddress) ∧
      kernelOffset + (rootOf symbols + 0x2000 +
        4 * kernelPage symbols.kernelTmpPageAddress) < 0x100000000 := by
    have tables := linked.data_le_tables
    have data := linked.start_lt_data
    have start := linked.offset_le_start
    have stackBehind := linked.tables_le_stack
    have stackEnd := linked.stack_le_end
    have tmp := linked.tmpPage_eq
    have reserved := linked.reservedEnd_eq
    have kernelFits := linked.kernel_fits
    obtain ⟨-, -, -, -, -, -, -, -, tmpLt⟩ := linked.pages
    simp only [Symbols.kernelTmpPageEntryAddress, rootOf, kernelOffset] at *
    omega
  rw [tmpEntry, built.walk_eq linked isAddress, bootMapping, if_pos inKernel,
    decide_eq_true inData, position, Nat.add_sub_cancel_left]

/-- A kernel of eleven pages. -/
theorem bootTables_map_kernel_small :
    let symbols : Symbols := {
      kernelBootstrapEnd := 0x101000
      kernelStart := 0xC0101000
      dataStart := 0xC0102000
      kernelEnd := 0xC010B800
      kernelTmpPageAddress := 0xC010C000
      kernelReservedEnd := 0xC010D000
      kernelTopLevelPageTable := 0xC0102000
      bootstrapStackTop := 0xC010B000 }
    ∃ after, buildTables symbols (fun _ => 0x100400) 0x800
        ⟨0, 0, 0, 0, 0, 0x10AFF8, fun _ => 0, []⟩ = .ok after ∧
      (walk (pageTables after.memory) 0x102000 0xC0103004).map Translation.target =
        some (0x103004, true) := by
  intro symbols
  have linked : symbols.Linked := by
    constructor <;> decide
  have root : low symbols.kernelTopLevelPageTable = 0x102000 :=
    linked.addresses.1.trans (by decide)
  have stack : low symbols.bootstrapStackTop - 8 = 0x10AFF8 := linked.stack.2.trans (by decide)
  obtain ⟨after, ran, -, walks, -, -⟩ := bootTables_map_kernel linked
    ⟨0, 0, 0, 0, 0, 0x10AFF8, fun _ => 0, []⟩ (fun _ _ => rfl) stack.symm rfl
    (fun _ => 0x100400) (fun _ => by decide) (Nat.le_refl 0x800)
  refine ⟨after, ran, ?_⟩
  rw [root] at walks
  rw [walks 0xC0103004 (by decide)]
  decide

end Walk

end SatanKernel.X86
