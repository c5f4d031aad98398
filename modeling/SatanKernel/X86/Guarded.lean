import SatanKernel.Lib.Ghost
import SatanKernel.X86.SpaceRuns

/-!
# Allocators that must be used correctly

A real allocator keeps its promises only if nothing is given back that is not outstanding.
`ConditionalLedger` states them under this condition.  `Guarded` is a ghost of such an
allocator that stops when the condition is violated, and so keeps its promises always: it
has a `FrameLedger`.  The page-table code never violates the condition, so it runs on the
allocator as it runs on the ghost.
-/

namespace SatanKernel.X86

open Lib NestedPageTableLevel
open Lib.Program (run Only)

/-- What an allocator of 4 KiB frames promises while it is used correctly; it never hands
out a frame in `withheld`. -/
structure ConditionalLedger (A : Type) [PageAllocatorTrait PageSize A] (withheld : Set Nat)
    where
  Sound : A → Prop
  outstanding : A → Set Nat
  alloc_sound : ∀ {allocator : A}, Sound allocator →
    Sound (PageAllocatorTrait.alloc allocator PageSize.size4K).2
  alloc_none : ∀ {allocator : A}, Sound allocator →
    (PageAllocatorTrait.alloc allocator PageSize.size4K).1 = none →
      outstanding (PageAllocatorTrait.alloc allocator PageSize.size4K).2 =
        outstanding allocator
  alloc_some : ∀ {allocator : A} {frame : Nat}, Sound allocator →
    (PageAllocatorTrait.alloc allocator PageSize.size4K).1 = some frame →
      (frame % 0x1000 = 0 ∧ frame < 0x100000000 ∧ frame ≠ 0 ∧ frame ∉ withheld ∧
        frame ∉ outstanding allocator) ∧
      outstanding (PageAllocatorTrait.alloc allocator PageSize.size4K).2 =
        insert frame (outstanding allocator)
  free_sound : ∀ {allocator : A} {addr : Nat}, Sound allocator →
    addr ∈ outstanding allocator →
      Sound (PageAllocatorTrait.free allocator addr PageSize.size4K)
  free_eq : ∀ {allocator : A} {addr : Nat}, Sound allocator →
    addr ∈ outstanding allocator →
      outstanding (PageAllocatorTrait.free allocator addr PageSize.size4K) =
        outstanding allocator \ {addr}

section Guarded

variable {A : Type} [PageAllocatorTrait PageSize A] {withheld : Set Nat}

/-- The ghost of an allocator: the allocator as long as it has been used correctly, and
then only a set of frames. -/
inductive Guarded (conditional : ConditionalLedger A withheld) where
  | live (allocator : A) (sound : conditional.Sound allocator)
  | dead (outstanding : Set Nat)

namespace Guarded

variable {conditional : ConditionalLedger A withheld}

def outstanding : Guarded conditional → Set Nat
  | .live allocator _ => conditional.outstanding allocator
  | .dead outstanding => outstanding

/-- The ghost has stopped. -/
def Dead : Guarded conditional → Prop
  | .live _ _ => False
  | .dead _ => True

open Classical in
noncomputable instance : PageAllocatorTrait PageSize (Guarded conditional) where
  alloc guarded size :=
    match guarded, size with
    | .live allocator sound, .size4K =>
        ((PageAllocatorTrait.alloc allocator PageSize.size4K).1,
          .live (PageAllocatorTrait.alloc allocator PageSize.size4K).2
            (conditional.alloc_sound sound))
    | guarded, _ => (none, .dead guarded.outstanding)
  free guarded addr size :=
    match guarded, size with
    | .live allocator sound, .size4K =>
        if owned : addr ∈ conditional.outstanding allocator then
          .live (PageAllocatorTrait.free allocator addr PageSize.size4K)
            (conditional.free_sound sound owned)
        else .dead (conditional.outstanding allocator \ {addr})
    | guarded, _ => .dead (guarded.outstanding \ {addr})

theorem alloc_live (allocator : A) (sound : conditional.Sound allocator) :
    PageAllocatorTrait.alloc (Guarded.live allocator sound) PageSize.size4K =
      ((PageAllocatorTrait.alloc allocator PageSize.size4K).1,
        Guarded.live (PageAllocatorTrait.alloc allocator PageSize.size4K).2
          (conditional.alloc_sound sound)) := rfl

theorem alloc_live_of {allocator after : A} {answer : Option Nat}
    (answered : PageAllocatorTrait.alloc allocator PageSize.size4K = (answer, after))
    (sound : conditional.Sound allocator) :
    ∃ afterSound, PageAllocatorTrait.alloc (Guarded.live allocator sound) PageSize.size4K =
      (answer, Guarded.live after afterSound) := by
  have afterSound := conditional.alloc_sound sound
  have shadowed := alloc_live allocator sound
  simp only [answered] at afterSound shadowed
  exact ⟨afterSound, shadowed⟩

theorem alloc_dead (frames : Set Nat) (size : PageSize) :
    PageAllocatorTrait.alloc (Guarded.dead frames : Guarded conditional) size =
      (none, Guarded.dead frames) := by
  cases size <;> rfl

theorem free_live {allocator : A} {addr : Nat} (sound : conditional.Sound allocator)
    (owned : addr ∈ conditional.outstanding allocator) :
    PageAllocatorTrait.free (Guarded.live allocator sound) addr PageSize.size4K =
      Guarded.live (PageAllocatorTrait.free allocator addr PageSize.size4K)
        (conditional.free_sound sound owned) :=
  dif_pos owned

theorem free_foreign {allocator : A} {addr : Nat} (sound : conditional.Sound allocator)
    (foreign : addr ∉ conditional.outstanding allocator) :
    PageAllocatorTrait.free (Guarded.live allocator sound) addr PageSize.size4K =
      Guarded.dead (conditional.outstanding allocator \ {addr}) :=
  dif_neg foreign

theorem free_dead (frames : Set Nat) (addr : Nat) (size : PageSize) :
    PageAllocatorTrait.free (Guarded.dead frames : Guarded conditional) addr size =
      Guarded.dead (frames \ {addr}) := by
  cases size <;> rfl

/-- The ghost keeps its promises whatever happens. -/
noncomputable def ledger {root : Nat} (reserved : root ∈ withheld) :
    FrameLedger (Guarded conditional) root where
  outstanding := outstanding
  alloc_none := by
    rintro (⟨allocator, sound⟩ | frames) after answered
    · rw [alloc_live, Prod.mk.injEq] at answered
      rw [← answered.2]
      exact conditional.alloc_none sound answered.1
    · rw [alloc_dead] at answered
      cases answered
      rfl
  alloc_frame := by
    rintro (⟨allocator, sound⟩ | frames) after frame answered
    · rw [alloc_live, Prod.mk.injEq] at answered
      obtain ⟨⟨aligned, bounded, nonzero, notWithheld, free⟩, -⟩ :=
        conditional.alloc_some sound answered.1
      refine ⟨aligned, bounded, nonzero, ?_, free⟩
      rintro rfl
      exact notWithheld reserved
    · rw [alloc_dead] at answered
      cases answered
  alloc_some := by
    rintro (⟨allocator, sound⟩ | frames) after frame answered
    · rw [alloc_live, Prod.mk.injEq] at answered
      rw [← answered.2]
      exact (conditional.alloc_some sound answered.1).2
    · rw [alloc_dead] at answered
      cases answered
  free_eq := by
    rintro (⟨allocator, sound⟩ | frames) addr (_ | _)
    · by_cases owned : addr ∈ conditional.outstanding allocator
      · rw [free_live sound owned]
        exact conditional.free_eq sound owned
      · rw [free_foreign sound owned]
        rfl
    · rfl
    · rfl
    · rfl

end Guarded

/-- The ghost beside a state. -/
def shadow (conditional : ConditionalLedger A withheld) (state : State A)
    (sound : conditional.Sound state.allocator) : State (Guarded conditional) :=
  ⟨state.memory, .live state.allocator sound⟩

/-- The ghost stands beside the state. -/
def Shadows {conditional : ConditionalLedger A withheld} (state : State A)
    (ghost : State (Guarded conditional)) : Prop :=
  ∃ sound, ghost = shadow conditional state sound

variable {conditional : ConditionalLedger A withheld}

/-- An answer of the allocator is an answer of its ghost. -/
theorem handler_shadow (op : PageTableOp PageTableLevel PageSize) (state : State A)
    (ghost : State (Guarded conditional)) (shadows : Shadows state ghost) :
    Program.Follows Shadows (fun ghost : State (Guarded conditional) => ghost.allocator.Dead)
      (handler op state) (handler op ghost) := by
  obtain ⟨sound, rfl⟩ := shadows
  obtain ⟨memory, allocator⟩ := state
  unfold shadow
  cases op with
  | alloc size =>
      cases size with
      | size4K => exact .answered _ ⟨conditional.alloc_sound sound, rfl⟩
      | size4M => exact .breaks _ _ trivial
  | free addr size =>
      cases size with
      | size4K =>
          by_cases owned : addr ∈ conditional.outstanding allocator
          · simp only [handler, Guarded.free_live sound owned]
            exact .answered _ ⟨conditional.free_sound sound owned, rfl⟩
          · simp only [handler, Guarded.free_foreign sound owned]
            exact .breaks _ _ trivial
      | size4M => exact .breaks _ _ trivial
  | newSublevel level =>
      rcases answered : PageAllocatorTrait.alloc allocator PageSize.size4K with
        ⟨_ | frame, after⟩
      · obtain ⟨afterSound, shadowed⟩ := Guarded.alloc_live_of answered sound
        simp only [handler, handleNewSublevel, answered, shadowed]
        exact .answered _ ⟨afterSound, rfl⟩
      · obtain ⟨afterSound, shadowed⟩ := Guarded.alloc_live_of answered sound
        simp only [handler, handleNewSublevel, answered, shadowed]
        split_ifs
        · exact .answered _ ⟨afterSound, rfl⟩
        · exact .refused
  | freeSublevel level sublevel =>
      by_cases owned : sublevel.paddr ∈ conditional.outstanding allocator
      · simp only [handler, Guarded.free_live sound owned]
        exact .answered _ ⟨conditional.free_sound sound owned, rfl⟩
      · simp only [handler, Guarded.free_foreign sound owned]
        exact .breaks _ _ trivial
  | setEntry level vaddr entry =>
      simp only [handler, handleSetEntry]
      split_ifs with unaligned large
      · exact .refused
      · exact .answered _ ⟨sound, rfl⟩
      · cases level.encode entry with
        | none => exact .refused
        | some word => exact .answered _ ⟨sound, rfl⟩
  | getEntry level vaddr =>
      simp only [handler, handleGetEntry]
      split_ifs
      · exact .answered _ ⟨sound, rfl⟩
      · exact .refused

/-- A ghost that has stopped does not start again. -/
theorem handler_dead (op : PageTableOp PageTableLevel PageSize)
    (ghost : State (Guarded conditional)) (answer : op.Answer)
    (after : State (Guarded conditional)) (dead : ghost.allocator.Dead)
    (handled : handler op ghost = some (answer, after)) : after.allocator.Dead := by
  obtain ⟨memory, allocator⟩ := ghost
  cases allocator with
  | live allocator sound => exact absurd dead id
  | dead frames =>
      cases op with
      | alloc size =>
          simp only [handler, Guarded.alloc_dead, Option.some.injEq, Prod.mk.injEq] at handled
          rw [← handled.2]
          trivial
      | free addr size =>
          simp only [handler, Guarded.free_dead, Option.some.injEq, Prod.mk.injEq] at handled
          rw [← handled.2]
          trivial
      | newSublevel level =>
          simp only [handler, handleNewSublevel, Guarded.alloc_dead, Option.some.injEq,
            Prod.mk.injEq] at handled
          rw [← handled.2]
          trivial
      | freeSublevel level sublevel =>
          simp only [handler, Guarded.free_dead, Option.some.injEq, Prod.mk.injEq] at handled
          rw [← handled.2]
          trivial
      | setEntry level vaddr entry =>
          obtain ⟨-, ⟨error, -, rfl⟩ | ⟨word, -, -, rfl⟩⟩ := handler_setEntry_cases handled
          · trivial
          · trivial
      | getEntry level vaddr =>
          obtain ⟨-, rfl⟩ := handler_getEntry_cases handled
          trivial

/-- A program that does not stop the ghost runs on the allocator as on the ghost. -/
theorem run_shadow {α : Type} (program : PagingM α) {state : State A}
    (sound : conditional.Sound state.allocator)
    (alive : ¬(run handler program (shadow conditional state sound)).2.allocator.Dead) :
    ∃ afterSound, run handler program (shadow conditional state sound) =
      ((run handler program state).1,
        shadow conditional (run handler program state).2 afterSound) := by
  have ran := Program.run_follows handler_shadow handler_dead program
    (⟨sound, rfl⟩ : Shadows state (shadow conditional state sound)) alive
  obtain ⟨sameOutcome, afterSound, sameState⟩ := ran
  exact ⟨afterSound, Prod.ext sameOutcome.symm sameState⟩

/-! ## Calls do not stop the ghost -/

/-- An operation of `map_alloc`: frames are taken, and none is given back. -/
def Takes : PageTableOp PageTableLevel PageSize → Prop
  | .alloc size => size = .size4K
  | .free _ _ => False
  | .freeSublevel _ _ => False
  | _ => True

theorem only_mapPage (depth : Nat) (self : PageTableLevel) (vaddr paddr : Nat)
    (size : PageSize) (flags : MappingFlags) :
    (mapPage depth self vaddr paddr size flags : PagingM Unit).Only Takes := by
  have sets : ∀ (level : PageTableLevel) entry,
      (setEntry level vaddr entry : PagingM Unit).Only Takes :=
    fun _ _ => ⟨trivial, fun answer => Program.only_ofExcept answer⟩
  induction depth generalizing self with
  | zero => exact Program.only_panic
  | succ depth ih =>
      rw [mapPage]
      split
      · exact sets self _
      · refine Only.bind ?_ fun level => ih level
        refine Only.bind ⟨trivial, fun answer => Program.only_ofExcept answer⟩ fun entry => ?_
        cases entry with
        | level level => exact Program.only_ret level
        | page addr entryFlags =>
            dsimp only
            split
            · exact Program.only_throw _
            · refine Only.bind ⟨trivial, fun answer => ?_⟩ fun level =>
                (sets self _).bind fun _ => Program.only_ret level
              cases answer with
              | none => exact Program.only_throw _
              | some level => exact Program.only_ret level

theorem only_mapAlloc (root vaddr size : Nat) (flags : MappingFlags) :
    ((AddressSpace.fromPaddr root).mapAlloc vaddr size flags : PagingM Nat).Only Takes := by
  refine Only.bind (Program.only_forEach fun page _ => ?_) fun _ => Program.only_ret _
  refine Only.bind ?_ fun offset => Only.bind ?_ fun target =>
    Only.bind ⟨rfl, fun answer => Program.only_ret answer⟩ fun frame => Only.bind ?_ fun frame =>
      only_mapPage _ _ _ _ _ _
  · unfold checkedMul
    split <;> exact trivial
  · unfold checkedAdd
    split <;> exact trivial
  · cases frame <;> exact trivial

/-- Operations that take frames do not stop the ghost. -/
theorem alive_of_takes (op : PageTableOp PageTableLevel PageSize) (takes : Takes op)
    (ghost : State (Guarded conditional)) (answer : op.Answer)
    (after : State (Guarded conditional)) (alive : ¬ghost.allocator.Dead)
    (handled : handler op ghost = some (answer, after)) : ¬after.allocator.Dead := by
  obtain ⟨memory, allocator⟩ := ghost
  cases allocator with
  | dead frames => exact absurd trivial alive
  | live allocator sound =>
      cases op with
      | alloc size =>
          cases takes
          cases handled
          exact id
      | free addr size => exact absurd takes id
      | freeSublevel level sublevel => exact absurd takes id
      | newSublevel level =>
          rcases answered : PageAllocatorTrait.alloc allocator PageSize.size4K with
            ⟨_ | frame, next⟩
          · obtain ⟨afterSound, shadowed⟩ := Guarded.alloc_live_of answered sound
            simp only [handler, handleNewSublevel, shadowed, Option.some.injEq,
              Prod.mk.injEq] at handled
            rw [← handled.2]
            exact id
          · obtain ⟨afterSound, shadowed⟩ := Guarded.alloc_live_of answered sound
            simp only [handler, handleNewSublevel, shadowed] at handled
            split_ifs at handled
            cases handled
            exact id
      | setEntry level vaddr entry =>
          obtain ⟨-, ⟨error, -, rfl⟩ | ⟨word, -, -, rfl⟩⟩ := handler_setEntry_cases handled
          · exact id
          · exact id
      | getEntry level vaddr =>
          obtain ⟨-, rfl⟩ := handler_getEntry_cases handled
          exact id

/-- Frames that are freed in turn do not stop the ghost. -/
theorem freeAll_alive {allocator : Guarded conditional} {blocks : List (Nat × PageSize)}
    (alive : ¬allocator.Dead) (inTurn : FreedInTurn allocator.outstanding blocks)
    (small : ∀ block ∈ blocks, block.2 = .size4K) : ¬(freeAll allocator blocks).Dead := by
  induction blocks generalizing allocator with
  | nil => exact alive
  | cons block blocks ih =>
      obtain ⟨owned, rest⟩ := inTurn
      cases allocator with
      | dead frames => exact absurd trivial alive
      | live allocator sound =>
          rw [freeAll_cons, small block (by simp), Guarded.free_live sound owned]
          apply ih id
          · rw [Guarded.outstanding, conditional.free_eq sound owned]
            exact rest
          · exact fun other member => small other (by simp [member])

/-- Without large pages only 4 KiB frames are freed. -/
theorem freed_small {memory : Memory} {root : Nat} {outstanding : Set Nat}
    {shape : PTEntry → Prop} (owned : Owned shape memory root outstanding)
    {vaddr size : Nat} {regions : List Nat} :
    ∀ block ∈ (regionsEffect memory root vaddr size regions).freed, block.2 = .size4K := by
  have leaf : ∀ (memory : Memory) frame pages, ∀ block ∈ leafFrames memory frame pages,
      block.2 = .size4K := by
    intro memory frame pages block member
    obtain ⟨page, -, rfl⟩ := List.mem_map.mp member
    rfl
  induction regions generalizing memory outstanding with
  | nil => simp [regionsEffect]
  | cons region regions ih =>
      have head : ∀ block ∈ (regionEffect memory root vaddr size region).freed,
          block.2 = .size4K := by
        have notLarge := owned.not_large (dirIndex_lt region)
        have ending := regionEnding memory root vaddr size region
        generalize regionEffect memory root vaddr size region = effect at ending
        cases ending with
        | idle absent => simp
        | cutLarge large cut => simp
        | wholeLarge large whole =>
            rw [notLarge] at large
            cases large
        | stopped table framed split passes stops => exact leaf _ _ _
        | kept table framed complete cut inUse => exact leaf _ _ _
        | unlinked table framed complete unused =>
            intro block member
            rcases List.mem_append.mp member with page | last
            · exact leaf _ _ _ block page
            · rw [List.mem_singleton.mp last]
      rw [regionsEffect]
      split
      next =>
        intro block member
        rcases List.mem_append.mp member with first | later
        · exact head block first
        · exact ih (owned.regionEffect vaddr size region) block later
      next => exact head

theorem alive_of_only {α : Type} {program : PagingM α} (only : program.Only Takes)
    {ghost : State (Guarded conditional)} (alive : ¬ghost.allocator.Dead) :
    ¬(run handler program ghost).2.allocator.Dead :=
  Only.invariant (fun ghost : State (Guarded conditional) => ¬ghost.allocator.Dead)
    alive_of_takes only alive

theorem alive_unmapFree {root vaddr size : Nat} {ghost : State (Guarded conditional)}
    (owned : Owned PlainLeaf ghost.memory root ghost.allocator.outstanding)
    (alive : ¬ghost.allocator.Dead) :
    ¬(run handler ((AddressSpace.fromPaddr root).unmapFree vaddr size)
      ghost).2.allocator.Dead := by
  by_cases bounded : vaddr + size + 0x400000 < 0x100000000
  · rw [run_unmapFree ghost owned.wf bounded, Effect.apply_allocator]
    exact freeAll_alive alive (freedInTurn_regionsEffect owned fun region => visits_of_mem bounded)
      (freed_small owned)
  · rw [run_unmapFree_overflow ghost (Nat.not_lt.mp bounded)]
    exact alive

/-- No call stops the ghost, whatever it returns. -/
theorem alive_call {root : Nat} {call : Call} {ghost : State (Guarded conditional)}
    (owned : Owned PlainLeaf ghost.memory root ghost.allocator.outstanding)
    (alive : ¬ghost.allocator.Dead) :
    ¬(run handler (call.program root) ghost).2.allocator.Dead := by
  cases call with
  | mapAlloc vaddr size flags =>
      exact alive_of_only ((only_mapAlloc root vaddr size flags).bind
        fun _ => Program.only_ret _) alive
  | unmapFree vaddr size => exact alive_unmapFree owned alive

/-! ## Traces beside the ghost -/

variable {ι : Type} {roots : ι → Nat}

/-- The ghost serves all address spaces whose directories are withheld. -/
noncomputable def sharedGuard (conditional : ConditionalLedger A withheld)
    (reserved : ∀ i, roots i ∈ withheld) : SharedLedger (Guarded conditional) roots where
  outstanding := Guarded.outstanding
  ledger i := Guarded.ledger (reserved i)
  same _ := rfl

/-- A request that does not map with `GLOBAL`. -/
def Request.NotGlobal : Request → Prop
  | .call requested => requested.NotGlobal
  | .load _ _ => True
  | .store _ _ _ => True

theorem Request.NotGlobal.shaped {request : Request} (notGlobal : request.NotGlobal) :
    request.Shaped PlainLeaf := by
  cases request with
  | call requested => exact Call.NotGlobal.shaped notGlobal
  | load access address => trivial
  | store access address word => trivial

/-- Steps of address spaces that do not map with `GLOBAL`. -/
def plainSteps (roots : ι → Nat) : Steps (State A) (ι × Request × Response) :=
  fun before label after => label.2.1.NotGlobal ∧ spaceSteps roots before label after

/-- The address spaces are sound beside the ghost, which has not stopped. -/
def Shadowed (conditional : ConditionalLedger A withheld) (reserved : ∀ i, roots i ∈ withheld)
    (state : State A) : Prop :=
  ∃ sound, Spaces PlainLeaf (sharedGuard conditional reserved) (shadow conditional state sound)

variable {reserved : ∀ i, roots i ∈ withheld} {state after : State A}

/-- The ghost makes the steps of its allocator. -/
theorem shadow_step {label : ι × Request × Response} {sound : conditional.Sound state.allocator}
    (spaces : Spaces PlainLeaf (sharedGuard conditional reserved)
      (shadow conditional state sound))
    (step : plainSteps roots state label after) :
    ∃ afterSound, spaceSteps roots (shadow conditional state sound) label
      (shadow conditional after afterSound) := by
  obtain ⟨i, request, response⟩ := label
  obtain ⟨notGlobal, served, noPanic⟩ := step
  cases request with
  | call requested =>
      obtain ⟨afterSound, shadowed⟩ := run_shadow (requested.program (roots i)) sound
        (alive_call (spaces.owned i) id)
      simp only [serve, Prod.mk.injEq] at served
      obtain ⟨rfl, rfl⟩ := served
      refine ⟨afterSound, ?_, noPanic⟩
      simp only [serve, shadowed]
  | load access address =>
      simp only [serve, Prod.mk.injEq] at served
      obtain ⟨rfl, rfl⟩ := served
      exact ⟨sound, rfl, noPanic⟩
  | store access address word =>
      simp only [serve, Prod.mk.injEq] at served
      obtain ⟨rfl, rfl⟩ := served
      exact ⟨sound, rfl, noPanic⟩

theorem Shadowed.step {label : ι × Request × Response}
    (shadowed : Shadowed conditional reserved state)
    (step : plainSteps roots state label after) :
    Shadowed conditional reserved after ∧
      FlatMemory.steps ι (flatMemories roots state.memory) label
        (flatMemories roots after.memory) := by
  obtain ⟨sound, spaces⟩ := shadowed
  obtain ⟨afterSound, ghostStep⟩ := shadow_step spaces step
  obtain ⟨afterSpaces, stepped⟩ := spaces.step step.1.shaped ghostStep
  exact ⟨⟨afterSound, afterSpaces⟩, stepped⟩

/-- Address spaces over an allocator that must be used correctly refine flat memories. -/
def plainRefinement (conditional : ConditionalLedger A withheld)
    (reserved : ∀ i, roots i ∈ withheld) :
    Refinement (plainSteps (A := A) roots) (FlatMemory.steps ι) where
  invariant := Shadowed conditional reserved
  view state := flatMemories roots state.memory
  kept shadowed step := (shadowed.step step).1
  step shadowed step := (shadowed.step step).2

theorem EmptyDirectories.shadowed (directories : EmptyDirectories roots state.memory)
    (reserved : ∀ i, roots i ∈ withheld) (sound : conditional.Sound state.allocator) :
    Shadowed conditional reserved state := by
  have beside : EmptyDirectories roots (shadow conditional state sound).memory := directories
  exact ⟨sound, beside.spaces _⟩

end Guarded

end SatanKernel.X86
