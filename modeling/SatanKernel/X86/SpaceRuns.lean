import SatanKernel.X86.Spaces

/-!
# Runs of address spaces

Requests to any number of address spaces in any order, from empty directories on.  The
responses are those of independent flat memories: a load returns what was last stored at
its address, whatever is asked of the other address spaces in between, and no store ever
reaches a page table.
-/

namespace SatanKernel.X86

open Lib NestedPageTableLevel
open Lib.Program (run)

/-! ## Words that a run leaves alone -/

/-- The request concerns neither the word nor, if it is a call, the range around it. -/
def Request.Avoids (address : WordAddress) : Request → Prop
  | .call (.mapAlloc vaddr size _) => ¬(vaddr ≤ address.addr ∧ address.addr < vaddr + size)
  | .call (.unmapFree vaddr size) =>
      ¬(vaddr ≤ address.addr ∧ address.addr < unmapEnd vaddr size)
  | .load _ _ => True
  | .store _ other _ => other ≠ address

namespace FlatMemory

theorem Step.keeps {before after : FlatMemory} {request : Request} {response : Response}
    {address : WordAddress} (step : Step before (request, response) after)
    (avoids : request.Avoids address) : after address = before address := by
  cases step with
  | @mapAlloc _ vaddr size mapped flags outcome upTo all maps =>
      have outside : ¬(vaddr ≤ address.addr ∧ address.addr < vaddr + mapped * 0x1000) := by
        intro inside
        apply avoids
        omega
      have kept := maps address
      rwa [if_neg outside] at kept
  | @unmapFree vaddr size stop outcome upTo all =>
      refine if_neg ?_
      intro inside
      apply avoids
      omega
  | load access other => rfl
  | store access other word =>
      unfold FlatMemory.store
      split
      · split
        · exact Function.update_of_ne (Ne.symm avoids) _ _
        · rfl
      · rfl

variable {ι : Type}

/-- The words that no request of a trace concerns. -/
theorem trace_keeps {before after : ι → FlatMemory} {labels : List (ι × Request × Response)}
    {i : ι} {address : WordAddress} (trace : Trace (steps ι) before labels after)
    (avoids : ∀ label ∈ labels, label.1 = i → label.2.1.Avoids address) :
    after i address = before i address := by
  apply trace.unchanged fun memories => memories i address
  rintro ⟨j, request, response⟩ member state next ⟨step, others⟩
  by_cases same : i = j
  · subst same
    exact step.keeps (avoids _ member rfl)
  · rw [others i same]

/-- A word that has been stored can be read. -/
theorem store_stored {before : FlatMemory} {access : Access} {address : WordAddress}
    {word : Word} (stored : (before.store access address word).1 = .stored) :
    ∃ cell, (before.store access address word).2 address = some cell ∧ cell.word = word ∧
      access.mayRead cell.user = true := by
  unfold store at stored ⊢
  split at stored
  next cell found =>
    split at stored
    next allowed =>
      rw [if_pos allowed]
      exact ⟨_, Function.update_self _ _ _, rfl, Access.mayRead_of_mayWrite allowed⟩
    next => cases stored
  next => cases stored

/-- A load returns what was last stored at its address. -/
theorem load_last_store {before after : ι → FlatMemory}
    {earlier between : List (ι × Request × Response)} {i : ι} {writer reader : Access}
    {address : WordAddress} {word : Word} {response : Response}
    (rights : reader.user = true → writer.user = true)
    (trace : Trace (steps ι) before
      (earlier ++ (i, .store writer address word, .stored) ::
        (between ++ [(i, .load reader address, response)])) after)
    (avoids : ∀ label ∈ between, label.1 = i → label.2.1.Avoids address) :
    response = .loaded word := by
  obtain ⟨atStore, -, trace⟩ := Trace.append_iff.mp trace
  obtain ⟨stored, ⟨step, -⟩, trace⟩ := Trace.cons_iff.mp trace
  obtain ⟨atLoad, quiet, trace⟩ := Trace.append_iff.mp trace
  obtain ⟨last, ⟨loads, -⟩, -⟩ := Trace.cons_iff.mp trace
  have kept := trace_keeps quiet avoids
  dsimp only at step loads
  generalize stored i = afterStore at step kept
  generalize storedResponse : Response.stored = answer at step
  cases step
  obtain ⟨cell, found, wordEq, readable⟩ := store_stored storedResponse.symm
  rw [found] at kept
  generalize last i = afterLoad at loads
  cases loads
  have readerMay : reader.mayRead cell.user = true := by
    simp only [Access.mayRead, Bool.or_eq_true, Bool.not_eq_true'] at readable ⊢
    cases user : reader.user with
    | false => exact .inl rfl
    | true =>
        rw [rights user] at readable
        simpa using readable
  simp [load, kept, readerMay, wordEq]

end FlatMemory

/-! ## Running requests -/

variable {A : Type} [PageAllocatorTrait PageSize A] {ι : Type} {roots : ι → Nat}

/-- Requests one after the other, with their responses. -/
def serveAll (roots : ι → Nat) :
    List (ι × Request) → State A → List (ι × Request × Response) × State A
  | [], state => ([], state)
  | (i, request) :: requests, state =>
      let served := serve (roots i) request state
      let rest := serveAll roots requests served.2
      ((i, request, served.1) :: rest.1, rest.2)

/-- Requests that do not panic make a trace. -/
theorem trace_serveAll (requests : List (ι × Request)) (state : State A)
    (noPanic : ∀ label ∈ (serveAll roots requests state).1, label.2.2 ≠ .returned .panic) :
    Trace (spaceSteps roots) state (serveAll roots requests state).1
      (serveAll roots requests state).2 := by
  induction requests generalizing state with
  | nil => exact .nil state
  | cons request requests ih =>
      obtain ⟨i, request⟩ := request
      apply Trace.cons
      · exact ⟨rfl, noPanic _ List.mem_cons_self⟩
      · apply ih
        intro label member
        exact noPanic label (List.mem_cons_of_mem _ member)

/-- The ledger of a bump allocator above the directories. -/
def bumpLedger {base : Nat} (below : ∀ i, roots i ≤ base) :
    SharedLedger (Bump base) roots where
  outstanding allocator := { frame | frame ∈ allocator.outstanding }
  same _ := rfl
  ledger i :=
    { outstanding := fun allocator => { frame | frame ∈ allocator.outstanding }
      alloc_none := by
        intro allocator after answered
        simp only [PageAllocatorTrait.alloc] at answered
        split at answered
        next => cases answered
        next =>
          cases answered
          rfl
      alloc_frame := by
        intro allocator after frame answered
        simp only [PageAllocatorTrait.alloc] at answered
        split at answered
        next bounded =>
          cases answered
          have aligned := allocator.aligned
          have above := allocator.above
          have belowBase := below i
          refine ⟨aligned, bounded, by omega, by omega, fun outstanding => ?_⟩
          exact absurd (allocator.below _ outstanding) (by omega)
        next => cases answered
      alloc_some := by
        intro allocator after frame answered
        simp only [PageAllocatorTrait.alloc] at answered
        split at answered
        next =>
          cases answered
          ext other
          simp [Bump.advance]
        next => cases answered
      free_eq := by
        intro allocator addr size
        ext other
        simp [PageAllocatorTrait.free, Bump.release] }

/-! ## Two address spaces -/

/-- Directories that are empty and different, in frames of their own. -/
structure EmptyDirectories (roots : ι → Nat) (memory : Memory) : Prop where
  aligned : ∀ i, roots i % 0x1000 = 0
  distinct : roots.Injective
  empty : ∀ i, ∀ index < 0x400, memory (roots i) index = .NULL

/-- The directories of two address spaces. -/
def twoRoots (i : Bool) : Nat := if i then 0x2000 else 0x1000

/-- An access of the kernel. -/
def kernelAccess : Access := ⟨false, false⟩

/-- A word of a page. -/
def someWord : WordAddress := ⟨0x5004, by decide, by decide⟩

/-- Both address spaces map the same page and store to it. -/
def twoSpacesRequests : List (Bool × Request) :=
  [(false, .call (.mapAlloc 0x5000 0x1000 .readWrite)),
    (false, .store kernelAccess someWord 42),
    (true, .call (.mapAlloc 0x5000 0x1000 .readWrite)),
    (true, .store kernelAccess someWord 7),
    (false, .load kernelAccess someWord)]

/-- Empty memory and frames from `0x10000` on. -/
def twoSpacesStart : State (Bump 0x2000) :=
  ⟨fun _ _ => .NULL, .start 0x10000 (by decide) (by decide)⟩

/-- The responses to the requests. -/
def twoSpacesLabels : List (Bool × Request × Response) :=
  [(false, .call (.mapAlloc 0x5000 0x1000 .readWrite), .returned (.ok ())),
    (false, .store kernelAccess someWord 42, .stored),
    (true, .call (.mapAlloc 0x5000 0x1000 .readWrite), .returned (.ok ())),
    (true, .store kernelAccess someWord 7, .stored),
    (false, .load kernelAccess someWord, .loaded 42)]

theorem twoSpaces_directories : EmptyDirectories twoRoots twoSpacesStart.memory where
  aligned := by decide
  distinct := by decide
  empty _ _ _ := rfl

theorem twoSpaces_trace : Trace (spaceSteps twoRoots) twoSpacesStart twoSpacesLabels
    (serveAll twoRoots twoSpacesRequests twoSpacesStart).2 := by
  have labels : (serveAll twoRoots twoSpacesRequests twoSpacesStart).1 = twoSpacesLabels := by
    decide +kernel
  rw [← labels]
  apply trace_serveAll
  rw [labels]
  decide

/-! ## Runs from empty directories -/

theorem EmptyDirectories.spaces {shape : PTEntry → Prop} {state : State A}
    (directories : EmptyDirectories roots state.memory) (shared : SharedLedger A roots) :
    Spaces shape shared state :=
  spaces_empty directories.aligned directories.distinct directories.empty

theorem EmptyDirectories.flatMemories {memory : Memory}
    (directories : EmptyDirectories roots memory) :
    flatMemories roots memory = fun _ _ => none := by
  funext i address
  have absent : walk memory (roots i) address.addr = none := by
    apply walk_of_not_present
    rw [directories.empty i _ (dirIndex_lt _), PTEntry.flags_NULL]
  rw [X86.flatMemories, flatMemory, absent, Option.map_none]

/-- In every run the responses are those of independent flat memories that start out
without words, and so are the words in the end. -/
theorem spaces_refine_flat_memories (shared : SharedLedger A roots) {state after : State A}
    {labels : List (ι × Request × Response)}
    (directories : EmptyDirectories roots state.memory)
    (trace : Trace (spaceSteps roots) state labels after) :
    Trace (FlatMemory.steps ι) (fun _ _ => none) labels (flatMemories roots after.memory) := by
  have traced := ((spacesRefinement shared).trace trace (directories.spaces shared)).2
  rwa [show (spacesRefinement shared).view state = fun _ _ => none from
    directories.flatMemories] at traced

theorem spaces_refine_flat_memories_two_spaces :
    Trace (FlatMemory.steps Bool) (fun _ _ => none) twoSpacesLabels
      (flatMemories twoRoots
        (serveAll twoRoots twoSpacesRequests twoSpacesStart).2.memory) :=
  spaces_refine_flat_memories (bumpLedger (by decide)) twoSpaces_directories twoSpaces_trace

/-- In every state of a run no address of an address space leads to a page table of any
address space, and addresses of different address spaces lead to different frames. -/
theorem walks_stay_apart (shared : SharedLedger A roots) {state after : State A}
    {labels : List (ι × Request × Response)}
    (directories : EmptyDirectories roots state.memory)
    (trace : Trace (spaceSteps roots) state labels after) {i j : ι} {vaddr : Nat}
    {translation : Translation}
    (walked : walk after.memory (roots i) vaddr = some translation) :
    ¬IsTableFrame after.memory (roots j) (translation.paddr / 0x1000 * 0x1000) ∧
      ∀ other otherTo, j ≠ i → walk after.memory (roots j) other = some otherTo →
        otherTo.paddr / 0x1000 ≠ translation.paddr / 0x1000 := by
  have spaces : Spaces (fun _ => True) shared after :=
    ((spacesRefinement shared).trace trace (directories.spaces shared)).1
  obtain ⟨entry, referred, paddrEq⟩ := (spaces.owned i).page_of_walk walked
  have aligned := entry.frame_aligned
  have frameEq : translation.paddr / 0x1000 * 0x1000 = entry.frame := by omega
  rw [frameEq]
  constructor
  · intro isTable
    by_cases same : j = i
    · rw [same] at isTable
      exact (spaces.owned i).page_not_table referred isTable
    · exact spaces.apart i j same entry.frame (.inr ⟨_, _, referred, rfl⟩)
        (.of_isTableFrame isTable)
  · intro other otherTo different otherWalked same
    obtain ⟨otherEntry, otherReferred, otherPaddrEq⟩ :=
      (spaces.owned j).page_of_walk otherWalked
    have otherAligned := otherEntry.frame_aligned
    apply spaces.apart i j different entry.frame (.inr ⟨_, _, referred, rfl⟩)
    exact .inr ⟨_, _, otherReferred, by omega⟩

/-- The word that is stored to is in the first frame. -/
theorem walks_stay_apart_two_spaces :
    ¬IsTableFrame (serveAll twoRoots twoSpacesRequests twoSpacesStart).2.memory 0x2000
        0x10000 ∧
      ∀ other otherTo, true ≠ false →
        walk (serveAll twoRoots twoSpacesRequests twoSpacesStart).2.memory 0x2000 other =
          some otherTo → otherTo.paddr / 0x1000 ≠ 0x10 := by
  have walked : walk (serveAll twoRoots twoSpacesRequests twoSpacesStart).2.memory
      (twoRoots false) 0x5004 =
        some ⟨0x10004, ⟨true, true, false, false, false, false, false⟩, false, true⟩ := by
    decide +kernel
  exact walks_stay_apart (bumpLedger (by decide)) twoSpaces_directories twoSpaces_trace
    (j := true) walked

end SatanKernel.X86
