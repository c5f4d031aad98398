import SatanKernel.X86.VirtualMemory

/-!
# Address spaces refine flat memories

Any number of address spaces share physical memory and the allocator that manages it.  As
long as no two of them use the same frame, each of them behaves as a flat memory of its
own: a word holds what was last stored to it, a store changes this word alone, and a call
changes nothing outside the range that it is given.
-/

namespace SatanKernel.X86

open Lib NestedPageTableLevel
open Lib.Program (run)

/-- The words that the processor finds through a directory. -/
def flatMemory (memory : Memory) (root : Nat) : FlatMemory := fun address =>
  (walk memory root address.addr).map fun translation =>
    ⟨memory.wordAt translation.paddr, translation.user, translation.writable⟩

theorem loadWord_eq (memory : Memory) (root : Nat) (access : Access)
    (address : WordAddress) :
    loadWord root access address memory = (flatMemory memory root).load access address := by
  unfold loadWord FlatMemory.load flatMemory
  cases walk memory root address.addr <;> rfl

/-! ## Memories with the same tables -/

section SameTables

variable {before after : Memory} {root : Nat}

theorem SameTables.directory (same : SameTables before after root) {i : Nat}
    (inside : i < 0x400) : after root i = before root i :=
  same root (.inl rfl) i inside

theorem SameTables.walk_eq (same : SameTables before after root) (vaddr : Nat) :
    walk after root vaddr = walk before root vaddr :=
  (sameTables_iff.mp same (dirIndex vaddr) (dirIndex_lt vaddr)).walk_eq rfl

/-- References depend on nothing but the tables. -/
theorem SameTables.refers_iff (same : SameTables before after root) {place : Reference}
    {entry : PTEntry} : Refers after root place entry ↔ Refers before root place entry := by
  cases place with
  | table i =>
      unfold Refers
      refine and_congr_right fun inside => ?_
      rw [same.directory inside]
  | leaf i index =>
      unfold Refers
      refine and_congr_right fun inside => and_congr_right fun indexInside => ?_
      rw [same.directory inside]
      refine and_congr_right fun table => ?_
      rw [same _ (.inr ⟨i, inside, table, rfl⟩) index indexInside]

theorem Owned.of_sameTables {shape : PTEntry → Prop} {outstanding remaining : Set Nat}
    (owned : Owned shape before root outstanding) (same : SameTables before after root)
    (kept : ∀ place entry, Refers before root place entry → entry.frame ∈ remaining) :
    Owned shape after root remaining := by
  apply owned.shrink (owned.wf.of_directory_eq fun _ inside => same.directory inside)
  · intro i inside
    rw [same.directory inside]
    exact owned.directory i inside
  · intro place entry referred
    have old := same.refers_iff.mp referred
    exact ⟨old, kept place entry old⟩

end SameTables

/-! ## The page of an address -/

section Page

variable {shape : PTEntry → Prop} {memory : Memory} {root : Nat} {outstanding : Set Nat}
  {vaddr : Nat} {translation : Translation}

/-- An address translates through an entry of a table. -/
theorem Owned.page_of_walk (owned : Owned shape memory root outstanding)
    (walked : walk memory root vaddr = some translation) :
    ∃ entry, Refers memory root (.leaf (dirIndex vaddr) (tableIndex vaddr)) entry ∧
      translation.paddr = entry.frame + vaddr % 0x1000 := by
  have inside := dirIndex_lt vaddr
  have translated : walk memory root vaddr ≠ none := by simp [walked]
  rcases walk_ne_none_iff.mp translated with large | ⟨table, present⟩
  · rw [owned.not_large inside] at large
    cases large
  · refine ⟨_, ⟨inside, tableIndex_lt vaddr, table, rfl, ?_⟩, ?_⟩
    · rw [PTEntry.isMapped, present, Bool.true_or]
    · rw [walk_of_table table] at walked
      simp only [present, if_true, Option.some.injEq] at walked
      rw [← walked]

/-- The frame and the index of the word at an address of a page. -/
theorem word_of_paddr {frame offset : Nat} (aligned : frame % 0x1000 = 0)
    (inside : offset < 0x1000) :
    (frame + offset) / 0x1000 * 0x1000 = frame ∧ (frame + offset) % 0x1000 / 4 = offset / 4 := by
  omega

/-- A page is neither the directory nor a table. -/
theorem Owned.page_not_table (owned : Owned shape memory root outstanding) {i index : Nat}
    {entry : PTEntry} (referred : Refers memory root (.leaf i index) entry) :
    ¬IsTableFrame memory root entry.frame := by
  rw [isTableFrame_iff]
  rintro (isRoot | ⟨j, tableEntry, table, same⟩)
  · exact owned.not_root _ _ referred isRoot
  · have equal := owned.once _ _ _ _ table referred same
    cases equal

/-- Different words of an address space are in different places. -/
theorem Owned.word_injective (owned : Owned shape memory root outstanding)
    {left right : WordAddress} {leftTo rightTo : Translation}
    (leftWalk : walk memory root left.addr = some leftTo)
    (rightWalk : walk memory root right.addr = some rightTo)
    (sameFrame : leftTo.paddr / 0x1000 * 0x1000 = rightTo.paddr / 0x1000 * 0x1000)
    (sameIndex : leftTo.paddr % 0x1000 / 4 = rightTo.paddr % 0x1000 / 4) : left = right := by
  obtain ⟨leftEntry, leftRefers, leftPaddr⟩ := owned.page_of_walk leftWalk
  obtain ⟨rightEntry, rightRefers, rightPaddr⟩ := owned.page_of_walk rightWalk
  have leftAligned := leftEntry.frame_aligned
  have rightAligned := rightEntry.frame_aligned
  have samePage := owned.once _ _ _ _ leftRefers rightRefers (by omega)
  obtain ⟨sameDir, sameTable⟩ := Reference.leaf.inj samePage
  have page := (indices_eq_iff left.bounded right.bounded).mp ⟨sameDir, sameTable⟩
  have leftWord := left.aligned
  have rightWord := right.aligned
  ext
  omega

end Page

/-! ## One address space -/

section Single

variable {shape : PTEntry → Prop} {memory after : Memory} {root : Nat}
  {outstanding : Set Nat}

/-- The words of pages whose translations and frames are as before. -/
theorem flatMemory_congr (owned : Owned shape memory root outstanding) {address : WordAddress}
    (sameWalk : walk after root address.addr = walk memory root address.addr)
    (kept : ∀ place entry, Refers memory root place entry →
      ¬IsTableFrame memory root entry.frame → after entry.frame = memory entry.frame) :
    flatMemory after root address = flatMemory memory root address := by
  unfold flatMemory
  rw [sameWalk]
  cases walked : walk memory root address.addr with
  | none => rfl
  | some translation =>
      obtain ⟨entry, referred, paddrEq⟩ := owned.page_of_walk walked
      have same := kept _ entry referred (owned.page_not_table referred)
      have frameEq := (word_of_paddr entry.frame_aligned
        (Nat.mod_lt address.addr (by decide : 0 < 0x1000))).1
      simp only [Option.map_some, Memory.wordAt, paddrEq, frameEq, same]

/-- A store to a page leaves the tables as they are. -/
theorem sameTables_writeWord (owned : Owned shape memory root outstanding)
    {address : WordAddress} {translation : Translation}
    (walked : walk memory root address.addr = some translation) (word : Word) :
    SameTables memory (memory.writeWord translation.paddr word) root := by
  intro frame isTable index _
  obtain ⟨entry, referred, paddrEq⟩ := owned.page_of_walk walked
  have frameEq := (word_of_paddr entry.frame_aligned
    (Nat.mod_lt address.addr (by decide : 0 < 0x1000))).1
  apply Memory.write_of_frame_ne
  rintro rfl
  rw [paddrEq, frameEq] at isTable
  exact owned.page_not_table referred isTable

/-- A store changes the word that it is for, and no other one. -/
theorem flatMemory_writeWord (owned : Owned shape memory root outstanding)
    {address : WordAddress} {translation : Translation}
    (walked : walk memory root address.addr = some translation) (word : Word) :
    flatMemory (memory.writeWord translation.paddr word) root =
      Function.update (flatMemory memory root) address
        (some ⟨word, translation.user, translation.writable⟩) := by
  have sameWalk := (sameTables_writeWord owned walked word).walk_eq
  funext other
  by_cases same : other = address
  · subst same
    rw [Function.update_self, flatMemory, sameWalk, walked, Option.map_some,
      Memory.wordAt_writeWord]
  · rw [Function.update_of_ne same]
    unfold flatMemory
    rw [sameWalk]
    cases otherWalked : walk memory root other.addr with
    | none => rfl
    | some otherTo =>
        have elsewhere : ¬(otherTo.paddr / 0x1000 * 0x1000 = translation.paddr / 0x1000 * 0x1000 ∧
            otherTo.paddr % 0x1000 / 4 = translation.paddr % 0x1000 / 4) :=
          fun equal => same (owned.word_injective otherWalked walked equal.1 equal.2)
        simp only [Option.map_some, Memory.wordAt, Memory.writeWord, Memory.write,
          if_neg elsewhere]

/-- A store through the tables is a store to the flat memory. -/
theorem storeWord_eq (owned : Owned shape memory root outstanding) (access : Access)
    (address : WordAddress) (word : Word) :
    (storeWord root access address word memory).1 =
        ((flatMemory memory root).store access address word).1 ∧
      flatMemory (storeWord root access address word memory).2 root =
        ((flatMemory memory root).store access address word).2 := by
  unfold storeWord FlatMemory.store
  cases walked : walk memory root address.addr with
  | none => simp [flatMemory, walked]
  | some translation =>
      have cell : flatMemory memory root address = some ⟨memory.wordAt translation.paddr,
          translation.user, translation.writable⟩ := by
        simp [flatMemory, walked]
      rw [cell]
      dsimp only
      split
      next => exact ⟨rfl, flatMemory_writeWord owned walked word⟩
      next => exact ⟨rfl, rfl⟩

/-! ## Calls -/

variable {A : Type} [PageAllocatorTrait PageSize A] {ledger : FrameLedger A root}
  {state : State A}

/-- What a call does to the words of its address space. -/
theorem flatMemory_call {call : Call}
    (owned : Owned shape state.memory root (ledger.outstanding state.allocator))
    (tables : KernelTables state.memory root)
    (returned : (run handler (call.program root) state).1 ≠ .panic) :
    FlatMemory.Step (flatMemory state.memory root)
      (.call call, .returned (run handler (call.program root) state).1)
      (flatMemory (run handler (call.program root) state).2.memory root) := by
  have ready : MapReady ledger state := ⟨owned.wf, owned.tables⟩
  have confined : Confined (ledger.outstanding state.allocator ∪ ∅) root state.memory
      (run handler (call.program root) state).2.memory :=
    confined_call (fun _ _ _ _ => id) owned returned
  have kept : ∀ place entry, Refers state.memory root place entry →
      ¬IsTableFrame state.memory root entry.frame →
      (run handler (call.program root) state).2.memory entry.frame =
        state.memory entry.frame :=
    fun place entry referred => confined.kept _ (.inl (owned.owned place entry referred))
  cases call with
  | mapAlloc vaddr size flags =>
      obtain ⟨mapped, upTo, all, walked⟩ := walk_mapAlloc ready tables returned
      refine .mapAlloc upTo all fun address => ?_
      obtain ⟨inside, outside⟩ := walked address.addr address.bounded
      split
      next member =>
        have fresh := inside member
        unfold MappedWith at fresh
        unfold flatMemory
        split at fresh
        next present =>
          obtain ⟨translation, translated, user, writable⟩ := fresh
          rw [if_pos present, translated]
          exact ⟨_, by rw [Option.map_some, user, writable]⟩
        next absent => rw [if_neg absent, fresh, Option.map_none]
      next notMember => exact flatMemory_congr owned (outside notMember) kept
  | unmapFree vaddr size =>
      have bounded := bounded_of_run rfl returned
      have finished := run_unmapFree state owned.wf bounded
      obtain ⟨stop, upTo, all, walked⟩ := walk_unmapEffect owned.wf
        (fun i inside => owned.not_large inside) bounded
      rw [Call.program, finished] at kept ⊢
      rw [Effect.apply_memory] at kept
      rw [Effect.apply_outcome, Effect.apply_memory]
      have unmapped : flatMemory (unmapEffect state.memory root vaddr size).memory root =
          (flatMemory state.memory root).unmap vaddr stop := by
        funext address
        have onAddress := walked address.addr address.bounded
        unfold FlatMemory.unmap
        split
        next member =>
          rw [if_pos member] at onAddress
          rw [flatMemory, onAddress, Option.map_none]
        next notMember =>
          rw [if_neg notMember] at onAddress
          exact flatMemory_congr owned onAddress kept
      rw [unmapped]
      exact .unmapFree upTo all

end Single

/-! ## Any number of address spaces -/

/-- An allocator that address spaces share: it hands out none of their directories. -/
structure SharedLedger (A : Type) [PageAllocatorTrait PageSize A] {ι : Type}
    (roots : ι → Nat) where
  outstanding : A → Set Nat
  ledger : (i : ι) → FrameLedger A (roots i)
  same : ∀ i, (ledger i).outstanding = outstanding

/-- The address space uses the frame, as its directory or for one of its references. -/
def Uses (memory : Memory) (root frame : Nat) : Prop :=
  frame = root ∨ ∃ place entry, Refers memory root place entry ∧ entry.frame = frame

/-- Address spaces that own what they refer to and share no frame. -/
structure Spaces {A : Type} [PageAllocatorTrait PageSize A] {ι : Type} {roots : ι → Nat}
    (shape : PTEntry → Prop) (shared : SharedLedger A roots) (state : State A) : Prop where
  owned : ∀ i, Owned shape state.memory (roots i) (shared.outstanding state.allocator)
  tables : ∀ i, KernelTables state.memory (roots i)
  apart : ∀ i j, j ≠ i → ∀ frame, Uses state.memory (roots i) frame →
    ¬Uses state.memory (roots j) frame

section Uses

variable {memory after : Memory} {root frame : Nat}

theorem Uses.of_isTableFrame (isTable : IsTableFrame memory root frame) :
    Uses memory root frame := by
  rcases isTableFrame_iff.mp isTable with isRoot | ⟨i, entry, referred, same⟩
  · exact .inl isRoot
  · exact .inr ⟨_, entry, referred, same⟩

/-- The frames that an address space uses after an update are its own or new. -/
theorem Confined.uses {taken : Set Nat} (confined : Confined taken root memory after)
    (member : frame ∈ taken) (used : Uses after root frame) : Uses memory root frame := by
  rcases used with isRoot | ⟨place, entry, referred, rfl⟩
  · exact .inl isRoot
  · rcases confined.refers place entry referred with old | ⟨untaken, -⟩
    · exact .inr ⟨place, entry, old, rfl⟩
    · exact absurd member untaken

variable (kept : ∀ frame, Uses memory root frame → after frame = memory frame)

include kept

theorem sameTables_of_uses : SameTables memory after root := by
  intro frame isTable index _
  rw [kept frame (.of_isTableFrame isTable)]

theorem uses_iff_of_uses : Uses after root frame ↔ Uses memory root frame := by
  simp only [Uses, (sameTables_of_uses kept).refers_iff]

theorem flatMemory_of_uses {shape : PTEntry → Prop} {outstanding : Set Nat}
    (owned : Owned shape memory root outstanding) :
    flatMemory after root = flatMemory memory root := by
  funext address
  apply flatMemory_congr owned ((sameTables_of_uses kept).walk_eq address.addr)
  intro place entry referred _
  exact kept _ (.inr ⟨place, entry, referred, rfl⟩)

end Uses

section Shared

variable {A : Type} [PageAllocatorTrait PageSize A] {ι : Type} {roots : ι → Nat}
  {shape : PTEntry → Prop} {shared : SharedLedger A roots} {state after : State A}

/-- Directories that are empty and different. -/
theorem spaces_empty (aligned : ∀ i, roots i % 0x1000 = 0) (distinct : roots.Injective)
    (empty : ∀ i, ∀ index < 0x400, state.memory (roots i) index = .NULL) :
    Spaces shape shared state := by
  have nothing : ∀ i place entry, ¬Refers state.memory (roots i) place entry := by
    rintro i (k | ⟨k, index⟩) entry referred
    · obtain ⟨inside, entryEq, table⟩ := referred
      rw [← entryEq, empty i k inside] at table
      cases table
    · obtain ⟨inside, -, table, -⟩ := referred
      rw [empty i k inside] at table
      cases table
  constructor
  · exact fun i => owned_empty (aligned i) (empty i) _
  · exact fun i k entry referred => absurd referred (nothing i _ entry)
  · rintro i j different frame (isRoot | ⟨place, entry, referred, -⟩) used
    · rcases used with isOther | ⟨place, entry, referred, -⟩
      · exact different (distinct (isOther.symm.trans isRoot))
      · exact nothing j place entry referred
    · exact nothing i place entry referred

/-- The other address spaces do not notice an update that leaves their frames alone. -/
theorem Spaces.update (spaces : Spaces shape shared state) (i : ι)
    (owned : Owned shape after.memory (roots i)
      (shared.outstanding after.allocator))
    (tables : KernelTables after.memory (roots i))
    (kept : ∀ j, j ≠ i → ∀ frame, Uses state.memory (roots j) frame →
      after.memory frame = state.memory frame)
    (remain : ∀ j, j ≠ i → ∀ place entry, Refers state.memory (roots j) place entry →
      entry.frame ∈ shared.outstanding after.allocator)
    (separate : ∀ j, j ≠ i → ∀ frame, Uses after.memory (roots i) frame →
      ¬Uses state.memory (roots j) frame) :
    Spaces shape shared after ∧ ∀ j, j ≠ i →
      flatMemory after.memory (roots j) = flatMemory state.memory (roots j) := by
  have sameUses : ∀ j, j ≠ i → ∀ frame, Uses after.memory (roots j) frame ↔
      Uses state.memory (roots j) frame :=
    fun j different frame => uses_iff_of_uses (kept j different)
  refine ⟨⟨?_, ?_, ?_⟩, fun j different =>
    flatMemory_of_uses (kept j different) (spaces.owned j)⟩
  · intro j
    by_cases same : j = i
    · rw [same]
      exact owned
    · exact (spaces.owned j).of_sameTables (sameTables_of_uses (kept j same)) (remain j same)
  · intro j
    by_cases same : j = i
    · rw [same]
      exact tables
    · intro k entry referred
      rw [(sameTables_of_uses (kept j same)).refers_iff] at referred
      exact spaces.tables j k entry referred
  · intro j k different frame used otherUsed
    by_cases jSame : j = i
    · rw [jSame] at used different
      exact separate k different frame used ((sameUses k different frame).mp otherUsed)
    · by_cases kSame : k = i
      · rw [kSame] at otherUsed
        exact separate j jSame frame otherUsed ((sameUses j jSame frame).mp used)
      · rw [sameUses j jSame] at used
        rw [sameUses k kSame] at otherUsed
        exact spaces.apart j k different frame used otherUsed

theorem Spaces.taken (spaces : Spaces shape shared state) {j : ι} {frame : Nat}
    (used : Uses state.memory (roots j) frame) :
    frame ∈ shared.outstanding state.allocator ∪ Set.range roots := by
  rcases used with rfl | ⟨place, entry, referred, rfl⟩
  · exact .inr ⟨j, rfl⟩
  · exact .inl ((spaces.owned j).owned place entry referred)

theorem SharedLedger.spares (shared : SharedLedger A roots) (allocator : A) :
    Spares (Set.range roots) allocator := by
  rintro after frame allocated ⟨j, rfl⟩
  obtain ⟨-, -, -, notRoot, -⟩ := (shared.ledger j).alloc_frame allocated
  exact notRoot rfl

/-- The words of all address spaces. -/
def flatMemories (roots : ι → Nat) (memory : Memory) : ι → FlatMemory := fun i =>
  flatMemory memory (roots i)

/-! ## A request to one of the address spaces -/

theorem Spaces.call (spaces : Spaces shape shared state) (i : ι) {call : Call}
    (shaped : call.Shaped shape)
    (returned : (run handler (call.program (roots i)) state).1 ≠ .panic) :
    Spaces shape shared (run handler (call.program (roots i)) state).2 ∧
      FlatMemory.steps ι (flatMemories roots state.memory)
        (i, .call call, .returned (run handler (call.program (roots i)) state).1)
        (flatMemories roots (run handler (call.program (roots i)) state).2.memory) := by
  have owned := spaces.owned i
  rw [← shared.same i] at owned
  have confined := confined_call shared.spares owned returned
  rw [shared.same i] at confined
  have ownedAfter := owned_call shaped owned returned
  rw [shared.same i] at ownedAfter
  have updated := spaces.update i ownedAfter ((spaces.tables i).confined confined) ?_ ?_ ?_
  · exact ⟨updated.1, flatMemory_call owned (spaces.tables i) returned, updated.2⟩
  · intro j different frame used
    apply confined.kept frame (spaces.taken used)
    intro isTable
    exact spaces.apart i j different frame (.of_isTableFrame isTable) used
  · intro j different place entry referred
    rw [← shared.same i]
    refine outstanding_call owned returned ?_ entry.frame_aligned ?_
    · rw [shared.same i]
      exact (spaces.owned j).owned place entry referred
    · intro otherPlace otherEntry otherReferred same
      exact spaces.apart i j different entry.frame (.inr ⟨_, _, otherReferred, same⟩)
        (.inr ⟨_, _, referred, rfl⟩)
  · intro j different frame used otherUsed
    exact spaces.apart i j different frame (confined.uses (spaces.taken otherUsed) used)
      otherUsed

theorem Spaces.store (spaces : Spaces shape shared state) (i : ι) (access : Access)
    (address : WordAddress) (word : Word) :
    Spaces shape shared (serve (roots i) (.store access address word) state).2 ∧
      FlatMemory.steps ι (flatMemories roots state.memory)
        (i, .store access address word,
          (serve (roots i) (.store access address word) state).1)
        (flatMemories roots
          (serve (roots i) (.store access address word) state).2.memory) := by
  have owned := spaces.owned i
  obtain ⟨response, stored⟩ := storeWord_eq owned access address word
  have step := FlatMemory.Step.store (flatMemory state.memory (roots i)) access address word
  rw [← response, ← stored] at step
  suffices updated : Spaces shape shared
        ⟨(storeWord (roots i) access address word state.memory).2, state.allocator⟩ ∧
      ∀ j, j ≠ i → flatMemory (storeWord (roots i) access address word state.memory).2
        (roots j) = flatMemory state.memory (roots j) from
    ⟨updated.1, step, updated.2⟩
  rcases storeWord_memory (roots i) access address word state.memory with
    unchanged | ⟨translation, walked, written⟩
  · rw [unchanged]
    exact ⟨spaces, fun _ _ => rfl⟩
  · rw [written]
    obtain ⟨entry, referred, paddrEq⟩ := owned.page_of_walk walked
    have frameEq := (word_of_paddr entry.frame_aligned
      (Nat.mod_lt address.addr (by decide : 0 < 0x1000))).1
    have same := sameTables_writeWord owned walked word
    refine spaces.update i ?_ ?_ ?_ ?_ ?_
    · exact owned.of_sameTables same owned.owned
    · intro k entry referred
      rw [same.refers_iff] at referred
      exact spaces.tables i k entry referred
    · intro j different frame used
      funext index
      apply Memory.write_of_frame_ne
      rintro rfl
      rw [paddrEq, frameEq] at used
      exact spaces.apart i j different _ (.inr ⟨_, entry, referred, rfl⟩) used
    · exact fun j _ => (spaces.owned j).owned
    · intro j different frame used
      rw [Uses] at used
      simp only [same.refers_iff] at used
      exact spaces.apart i j different frame used

/-- A step of one of the address spaces. -/
theorem Spaces.step {label : ι × Request × Response} (spaces : Spaces shape shared state)
    (shaped : label.2.1.Shaped shape) (step : spaceSteps roots state label after) :
    Spaces shape shared after ∧
      FlatMemory.steps ι (flatMemories roots state.memory) label
        (flatMemories roots after.memory) := by
  obtain ⟨i, request, response⟩ := label
  obtain ⟨served, noPanic⟩ := step
  dsimp only at served noPanic
  cases request with
  | call call =>
      cases served
      exact spaces.call i shaped fun panicked => noPanic (congrArg Response.returned panicked)
  | load access address =>
      cases served
      refine ⟨spaces, ?_, fun _ _ => rfl⟩
      rw [loadWord_eq]
      exact .load _ _ _
  | store access address word =>
      cases served
      exact spaces.store i access address word

/-- Address spaces that share memory and its allocator refine independent flat memories. -/
def spacesRefinement (shared : SharedLedger A roots) :
    Refinement (spaceSteps (A := A) roots) (FlatMemory.steps ι) where
  invariant := Spaces (fun _ => True) shared
  view state := flatMemories roots state.memory
  kept spaces step := (spaces.step (Request.shaped_true _) step).1
  step spaces step := (spaces.step (Request.shaped_true _) step).2

end Shared

end SatanKernel.X86
