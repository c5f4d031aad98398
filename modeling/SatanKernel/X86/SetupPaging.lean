import SatanKernel.X86.ZonedPaging
import SatanKernel.X86.BootTables
import SatanKernel.X86.OnePage
import SatanKernel.X86.Setup

/-!
# Setting up paging

`setup_paging` of `arch/x86/paging/mod.rs` as a whole: the loop over the memory map, and
the test that follows it on the page at `0xc0801000`, which ends with an access to the page
after it has been unmapped.  The program runs on the page tables that the boot code leaves
and on a zoned allocator without zones.
-/

namespace SatanKernel.X86

open Lib
open Lib.Program (run)

/-- What `setup_paging` does with the page allocator, its address space, memory and the
screen. -/
inductive SetupOp where
  | addZone (start size : Nat)
  | totalMemory
  | allocatedMemory
  | mapAlloc (root vaddr size : Nat) (flags : MappingFlags)
  | unmapFree (root vaddr size : Nat)
  | load (address : Nat)
  | store (address : Nat) (word : Word)
  | print (text : String)

abbrev SetupOp.Answer : SetupOp → Type
  | .addZone _ _ => Except AllocError Unit
  | .totalMemory => Nat
  | .allocatedMemory => Nat
  | .mapAlloc _ _ _ _ => Except MappingError Nat
  | .unmapFree _ _ _ => Except MappingError Unit
  | .load _ => Response
  | .store _ _ => Response
  | .print _ => Unit

abbrev setupSig : Signature := ⟨SetupOp, SetupOp.Answer⟩

/-- An exception of the processor that does not return. -/
inductive Fault where
  | pageFault (address errorCode : Nat)
  deriving DecidableEq, Repr

abbrev SetupM := Program setupSig Fault

namespace SetupPaging

def println (text : String) : SetupM Unit := .call (.print (text ++ "\n")) .ret

/-- `Result::unwrap`. -/
def unwrapResult {ε α : Type} : Except ε α → SetupM α
  | .ok value => .ret value
  | .error _ => .panic

/-- `kernel_virt2phys`. -/
def kernelVirt2phys (vaddr : Nat) : SetupM Nat := checkedSub vaddr kernelOffset

/-- A read by the kernel. -/
def read (address : Nat) : SetupM Word := do
  match ← (.call (.load address) .ret : SetupM Response) with
  | .loaded word => pure word
  | _ => .throw (.pageFault address 0b00)

/-- A write by the kernel. -/
def write (address : Nat) (word : Word) : SetupM Unit := do
  match ← (.call (.store address word) .ret : SetupM Response) with
  | .stored => pure ()
  | _ => .throw (.pageFault address 0b10)

/-- The body of the loop for one area of the memory map. -/
def setupArea (symbols : Symbols) (region : MemoryArea) : SetupM Unit := do
  if region.typ = .available then
    let kernelPhysicalEnd ← kernelVirt2phys symbols.kernelEnd
    let start ← alignUp (max (region.startAddress % 2 ^ usizeBits) kernelPhysicalEnd) 0x1000
    let stop := region.endAddress % 2 ^ usizeBits
    if stop ≤ start then pure ()
    else
      let size ← checkedSub stop start
      match ← (.call (.addZone start (alignDown size 0x1000)) .ret :
          SetupM (Except AllocError Unit)) with
      | .ok () => pure ()
      | .error _ => println "Failed to add some memory zones"
  else pure ()

/-- The page of the test. -/
def testPage : Nat := 0xc0801000

/-- The test at the end of `setup_paging`. -/
def selfTest (kernelAddressSpace : Nat) : SetupM Unit := do
  let total ← (.call .totalMemory .ret : SetupM Nat)
  println ("Total memory: " ++ toString total)
  let mapped ← (.call (.mapAlloc kernelAddressSpace testPage
    (PageSizeTrait.into (PageSizeTrait.MIN : PageSize)) .readWrite) .ret :
      SetupM (Except MappingError Nat))
  let test ← unwrapResult mapped
  println "Mapped!"
  let allocated ← (.call .allocatedMemory .ret : SetupM Nat)
  println ("Allocated memory: " ++ toString allocated)
  write test 42
  println "Wrote!"
  let value ← read test
  println ("Testing page mapping: " ++ toString value.toNat)
  let unmapped ← (.call (.unmapFree kernelAddressSpace test 4096) .ret :
    SetupM (Except MappingError Unit))
  unwrapResult unmapped
  let allocated ← (.call .allocatedMemory .ret : SetupM Nat)
  println ("Allocated memory after freeing: " ++ toString allocated)
  println "Testing page unmapping (You should see a page fault):"
  let value ← read test
  println ("Huh? " ++ toString value.toNat)

/-- `setup_paging`; the memory map is missing if the boot loader gave none. -/
def setupPaging (symbols : Symbols) (memoryMap : Option (List MemoryArea)) : SetupM Unit := do
  let kernelAddressSpace ← kernelVirt2phys symbols.kernelTopLevelPageTable
  let areas ← Program.unwrap memoryMap
  Program.forEach areas (setupArea symbols)
  selfTest kernelAddressSpace

end SetupPaging

/-! ## The machine that it runs on -/

/-- Memory and page allocator, what the construction of buddies depends on, and the texts
that have been printed. -/
structure SetupState {B : Type} (buddy : BuddyAlloc B) (E : Type) where
  space : State (PageAllocator buddy)
  environment : E
  printed : List String

section Handler

variable {B E : Type} (construct : E → Nat → Nat → Option B × E) {buddy : BuddyAlloc B}

namespace SetupState

/-- The allocator without zones. -/
def start (buddy : BuddyAlloc B) (memory : Memory) (environment : E) : SetupState buddy E :=
  ⟨⟨memory, ⟨[], false⟩⟩, environment, []⟩

variable (state : SetupState buddy E)

/-- The zones as `add_zone` sees them. -/
def zoneState : ZoneState B E := ⟨state.space.allocator.zones, state.environment⟩

def withZones (zones : ZoneState B E) : SetupState buddy E :=
  { state with
    space := { state.space with allocator := { state.space.allocator with zones := zones.zones } }
    environment := zones.environment }

def withSpace (space : State (PageAllocator buddy)) : SetupState buddy E := { state with space }

def withTexts (texts : List String) : SetupState buddy E :=
  { state with printed := state.printed ++ texts }

@[simp] theorem withZones_self : state.withZones state.zoneState = state := by
  obtain ⟨⟨memory, zones, panicked⟩, environment, printed⟩ := state
  rfl

@[simp] theorem withTexts_nil : state.withTexts [] = state := by
  rw [withTexts, List.append_nil]

theorem withTexts_again (zones others : ZoneState B E) (texts more : List String) :
    (((state.withZones zones).withTexts texts).withZones others).withTexts more =
      (state.withZones others).withTexts (texts ++ more) := by
  simp only [withTexts, withZones, List.append_assoc]

end SetupState

/-- The end of a call that returns a `Result`. -/
def resultOf {ε α σ : Type} : Outcome ε α × σ → Option (Except ε α × σ)
  | (.ok value, after) => some (.ok value, after)
  | (.err error, after) => some (.error error, after)
  | (.panic, _) => none

/-- An address that a 32-bit word can be read from. -/
def wordAddress (address : Nat) : Option WordAddress :=
  if fits : address < 0x100000000 ∧ address % 4 = 0 then some ⟨address, fits.1, fits.2⟩ else none

/-- The operations, with the page tables at `root` in use.  Accesses are made in kernel
mode, and the boot code leaves `CR0.WP` clear. -/
def setupHandler (root : Nat) : Handler setupSig (SetupState buddy E)
  | .addZone start size, state =>
      (resultOf (run (zoneHandler construct) (addZone pageAllocatorBlock start size)
        state.zoneState)).map fun (answer, zones) => (answer, state.withZones zones)
  | .totalMemory, state =>
      match run (buddyHandler buddy)
        (ZonedBuddy.totalMemory (state.space.allocator.zones.map Zone.bounds))
        state.space.allocator.zones with
      | (.ok total, _) => some (total, state)
      | _ => none
  | .allocatedMemory, state =>
      match run (buddyHandler buddy)
        (ZonedBuddy.allocatedMemory (state.space.allocator.zones.map Zone.bounds))
        state.space.allocator.zones with
      | (.ok allocated, _) => some (allocated, state)
      | _ => none
  | .mapAlloc addressSpace vaddr size flags, state =>
      (resultOf (run handler ((AddressSpace.fromPaddr addressSpace).mapAlloc vaddr size flags)
        state.space)).map fun (answer, space) => (answer, state.withSpace space)
  | .unmapFree addressSpace vaddr size, state =>
      (resultOf (run handler ((AddressSpace.fromPaddr addressSpace).unmapFree vaddr size)
        state.space)).map fun (answer, space) => (answer, state.withSpace space)
  | .load address, state => (wordAddress address).map fun address =>
      (loadWord root kernelAccess address state.space.memory, state)
  | .store address word, state => (wordAddress address).map fun address =>
      let (response, memory) := storeWord root kernelAccess address word state.space.memory
      (response, state.withSpace { state.space with memory })
  | .print text, state => some ((), state.withTexts [text])

/-! ## The loop -/

/-- The range that an area of the memory map becomes. -/
def addedRange (kernelPhysicalEnd : Nat) (area : MemoryArea) : Option Bounds :=
  if area.typ = .available ∧
      contributionStart kernelPhysicalEnd area < area.endAddress % 0x100000000 then
    some ⟨contributionStart kernelPhysicalEnd area,
      contributionStop area - contributionStart kernelPhysicalEnd area⟩
  else none

/-- The body of the loop, with something else in place of `add_zone`. -/
def withArea {sig : Signature} {ε : Type} (kernelPhysicalEnd : Nat) (region : MemoryArea)
    (add : Nat → Nat → Program sig ε Unit) : Program sig ε Unit := do
  if region.typ = .available then
    let start ← alignUp (max (region.startAddress % 2 ^ usizeBits) kernelPhysicalEnd) 0x1000
    let stop := region.endAddress % 2 ^ usizeBits
    if stop ≤ start then pure ()
    else
      let size ← checkedSub stop start
      add start (alignDown size 0x1000)
  else pure ()

theorem addArea_eq_withArea (kernelPhysicalEnd : Nat) (region : MemoryArea) :
    addArea (B := B) kernelPhysicalEnd region =
      withArea kernelPhysicalEnd region fun start size =>
        Program.attempt (addZone pageAllocatorBlock start size) >>= fun _ => pure () := rfl

section WithArea

variable {sig : Signature} {ε σ : Type} (handler : Handler sig σ) {kernelPhysicalEnd : Nat}
  {area : MemoryArea} (add : Nat → Nat → Program sig ε Unit) (state : σ)

/-- The start of an area, clamped to the end of the kernel and rounded up. -/
theorem run_clampedStart (kernelPhysicalEnd : Nat) (area : MemoryArea) :
    run (ε := ε) handler
        (alignUp (max (area.startAddress % 2 ^ usizeBits) kernelPhysicalEnd) 0x1000) state =
      if max (area.startAddress % 2 ^ usizeBits) kernelPhysicalEnd + 2 ^ 12 < 2 ^ usizeBits then
        (.ok (contributionStart kernelPhysicalEnd area), state)
      else (.panic, state) :=
  run_alignUp handler _ (k := 12) (by decide) state

theorem run_withArea (reached : ¬startOverflows kernelPhysicalEnd area) :
    run handler (withArea kernelPhysicalEnd area add) state =
      match addedRange kernelPhysicalEnd area with
      | some range => run handler (add range.start range.size) state
      | none => (.ok (), state) := by
  rw [withArea, addedRange]
  by_cases available : area.typ = .available
  · have bounded : max (area.startAddress % 2 ^ usizeBits) kernelPhysicalEnd + 2 ^ 12 <
        2 ^ usizeBits := by
      by_contra overflow
      exact reached ⟨available, Nat.not_lt.mp overflow⟩
    have stopBounded := Nat.mod_lt area.endAddress (by decide : 0 < 0x100000000)
    rw [if_pos available, Program.run_bind, run_clampedStart, if_pos bounded, Outcome.andThen_ok]
    change run handler (if area.endAddress % 0x100000000 ≤ contributionStart kernelPhysicalEnd area
      then pure () else _) state = _
    split
    next skipped => rw [if_neg fun entered => Nat.not_lt.mpr skipped entered.2, Program.run_pure]
    next entered =>
      have ordered := Nat.not_le.mp entered
      have subtracted := run_checkedSub_of_le (ε := ε) handler (Nat.le_of_lt ordered) state
      have size : alignDown (area.endAddress % 0x100000000 -
          contributionStart kernelPhysicalEnd area) 0x1000 =
          contributionStop area - contributionStart kernelPhysicalEnd area := by
        rw [alignDown_page (lt_of_le_of_lt (Nat.sub_le _ _) stopBounded), contributionStop,
          contributionStart]
        rw [contributionStart] at ordered
        omega
      rw [if_pos ⟨available, ordered⟩, Program.run_bind]
      change Outcome.andThen (run handler
        (checkedSub (area.endAddress % 0x100000000) _) state) _ = _
      rw [subtracted, Outcome.andThen_ok, size]
  · rw [if_neg available, if_neg fun added => available added.1, Program.run_pure]

theorem run_withArea_overflow (overflows : startOverflows kernelPhysicalEnd area) :
    run handler (withArea kernelPhysicalEnd area add) state = (.panic, state) := by
  have unbounded : ¬max (area.startAddress % 2 ^ usizeBits) kernelPhysicalEnd + 2 ^ 12 <
      2 ^ usizeBits := Nat.not_lt.mpr overflows.2
  rw [withArea, if_pos overflows.1, Program.run_bind, run_clampedStart, if_neg unbounded,
    Outcome.andThen_panic]

end WithArea

section Areas

variable {kernelPhysicalEnd : Nat} {area : MemoryArea} {range : Bounds}

theorem addedRange_aligned (added : addedRange kernelPhysicalEnd area = some range) :
    range.start % 0x1000 = 0 ∧ range.size % 0x1000 = 0 ∧
      range.start + range.size < 0x100000000 := by
  rw [addedRange] at added
  split at added
  next entered =>
    cases added
    have ordered := entered.2
    rw [contributionStart] at ordered
    dsimp only
    rw [contributionStart, contributionStop]
    omega
  next => cases added

theorem addedRange_bytes (added : addedRange kernelPhysicalEnd area = some range) :
    range.bytes = contribution kernelPhysicalEnd area := by
  rw [addedRange] at added
  split at added
  next entered =>
    cases added
    have ordered := entered.2
    have reaches : contributionStart kernelPhysicalEnd area +
        (contributionStop area - contributionStart kernelPhysicalEnd area) =
          contributionStop area := by
      rw [contributionStart] at ordered ⊢
      rw [contributionStop]
      omega
    rw [contribution, if_pos entered.1, Bounds.bytes, extent, reaches]
  next => cases added

/-- `add_zone` for what an area of the memory map becomes. -/
def addRange (zones : ZoneState B E) : Option Bounds → Outcome AllocError Unit × ZoneState B E
  | some range =>
      run (zoneHandler construct) (addZone pageAllocatorBlock range.start range.size) zones
  | none => (.ok (), zones)

theorem addRange_some (start : range.start % 0x1000 = 0) (size : range.size % 0x1000 = 0)
    (fits : range.start + range.size < 0x100000000) (zones : ZoneState B E) :
    addRange construct zones (some range) =
      pushPieces construct (2 ^ 12) (pieces range.start range.size) zones :=
  run_addZone construct (k := 12) start size fits zones

/-- What the loop prints when `add_zone` fails. -/
def failureText : String := "Failed to add some memory zones\n"

/-- What the loop prints after a call of `add_zone`. -/
def addTexts : Outcome AllocError Unit → List String
  | .ok () => []
  | .err _ => [failureText]
  | .panic => []

/-- `add_zone` does not panic in the loop. -/
theorem addRange_ending (kernelPhysicalEnd : Nat) (area : MemoryArea) (zones : ZoneState B E) :
    (addRange construct zones (addedRange kernelPhysicalEnd area)).1 = .ok () ∨
      (addRange construct zones (addedRange kernelPhysicalEnd area)).1 = .err .allocError ∧
        ConstructionFails construct := by
  cases added : addedRange kernelPhysicalEnd area with
  | none => exact .inl rfl
  | some range =>
      obtain ⟨start, size, fits⟩ := addedRange_aligned added
      have ending := addZone_ending construct (k := 12) start size fits zones
      change AddZoneEnding construct _ zones range.start range.size
        (addRange construct zones (some range)) at ending
      generalize addRange construct zones (some range) = finished at ending ⊢
      cases ending with
      | covered after appends => exact .inl rfl
      | failed after covered less appends fails => exact .inr ⟨rfl, fails⟩

theorem run_addArea_range (reached : ¬startOverflows kernelPhysicalEnd area)
    (zones : ZoneState B E) :
    run (zoneHandler construct) (addArea kernelPhysicalEnd area) zones =
      (.ok (), (addRange construct zones (addedRange kernelPhysicalEnd area)).2) := by
  have ending := addRange_ending construct kernelPhysicalEnd area zones
  rw [addArea_eq_withArea, run_withArea (zoneHandler construct) _ zones reached]
  cases added : addedRange kernelPhysicalEnd area with
  | none => rfl
  | some range =>
      rw [added, addRange] at ending
      dsimp only
      rw [addRange, Program.run_bind, Program.run_attempt]
      generalize run (zoneHandler construct)
        (addZone pageAllocatorBlock range.start range.size) zones = finished at ending ⊢
      obtain ⟨outcome, after⟩ := finished
      dsimp only at ending
      rcases ending with rfl | ⟨rfl, -⟩ <;> rfl

variable {symbols : Symbols}

/-- The physical address behind the kernel. -/
def physicalEnd (symbols : Symbols) : Nat := symbols.kernelEnd - kernelOffset

variable (root : Nat) (state : SetupState buddy E)

/-- A call of `add_zone`, and what is printed after it. -/
def SetupState.addRange (range : Option Bounds) : SetupState buddy E :=
  (state.withZones (X86.addRange construct state.zoneState range).2).withTexts
    (addTexts (X86.addRange construct state.zoneState range).1)

@[simp] theorem SetupState.addRange_zoneState (range : Option Bounds) :
    (state.addRange construct range).zoneState = (X86.addRange construct state.zoneState range).2 :=
  rfl

/-- The call of `add_zone` in the loop. -/
def addZoneReported (start size : Nat) : SetupM Unit := do
  match ← (.call (.addZone start size) .ret : SetupM (Except AllocError Unit)) with
  | .ok () => pure ()
  | .error _ => SetupPaging.println "Failed to add some memory zones"

theorem run_setupArea_withArea (above : kernelOffset ≤ symbols.kernelEnd) (area : MemoryArea) :
    run (setupHandler construct root) (SetupPaging.setupArea symbols area) state =
      run (setupHandler construct root)
        (withArea (physicalEnd symbols) area addZoneReported) state := by
  have converted := run_checkedSub_of_le (ε := Fault) (setupHandler construct root) above state
  rw [SetupPaging.setupArea, withArea]
  split
  next available =>
    rw [Program.run_bind, SetupPaging.kernelVirt2phys, converted, Outcome.andThen_ok]
    rfl
  next => rfl

/-- One area of the memory map. -/
theorem run_setupArea (above : kernelOffset ≤ symbols.kernelEnd)
    (reached : ¬startOverflows (physicalEnd symbols) area) :
    run (setupHandler construct root) (SetupPaging.setupArea symbols area) state =
      (.ok (), state.addRange construct (addedRange (physicalEnd symbols) area)) := by
  have ending := addRange_ending construct (physicalEnd symbols) area state.zoneState
  rw [run_setupArea_withArea construct root state above,
    run_withArea (setupHandler construct root) _ state reached]
  cases added : addedRange (physicalEnd symbols) area with
  | none =>
      rw [SetupState.addRange, addRange, addTexts, state.withZones_self, SetupState.withTexts_nil]
  | some range =>
      rw [added, addRange] at ending
      dsimp only
      rw [SetupState.addRange, addRange, addZoneReported, Program.run_bind, Program.run_call,
        setupHandler]
      generalize run (zoneHandler construct)
        (addZone pageAllocatorBlock range.start range.size) state.zoneState = finished at ending ⊢
      obtain ⟨outcome, after⟩ := finished
      dsimp only at ending
      rcases ending with rfl | ⟨rfl, -⟩ 
      · rw [addTexts, SetupState.withTexts_nil]
        rfl
      · rfl

/-- The loop pushes the zones that `addAreas` pushes, and prints a line for every call of
`add_zone` that fails. -/
theorem run_setupAreas (above : kernelOffset ≤ symbols.kernelEnd) (areas : List MemoryArea)
    (state : SetupState buddy E) :
    ∃ failures ≤ areas.length, (¬ConstructionFails construct → failures = 0) ∧
      run (setupHandler construct root)
          (Program.forEach areas (SetupPaging.setupArea symbols)) state =
        (if ∃ area ∈ areas, startOverflows (physicalEnd symbols) area then .panic else .ok (),
          (state.withZones (run (zoneHandler construct) (addAreas (physicalEnd symbols) areas)
            state.zoneState).2).withTexts (List.replicate failures failureText)) := by
  induction areas generalizing state with
  | nil => exact ⟨0, Nat.le_refl 0, fun _ => rfl, by simp [addAreas]⟩
  | cons area rest ih =>
      rw [Program.run_forEach_cons, addAreas, Program.run_forEach_cons]
      by_cases overflows : startOverflows (physicalEnd symbols) area
      · refine ⟨0, Nat.zero_le _, fun _ => rfl, ?_⟩
        rw [run_setupArea_withArea construct root state above,
          run_withArea_overflow _ _ _ overflows, addArea_eq_withArea, run_withArea_overflow _ _ _ overflows]
        simp [overflows]
      · obtain ⟨failures, atMost, none, ran⟩ :=
          ih (state.addRange construct (addedRange (physicalEnd symbols) area))
        rw [run_setupArea construct root state above overflows, Outcome.andThen_ok, ran,
          run_addArea_range construct overflows, Outcome.andThen_ok]
        have later : (∃ other ∈ area :: rest, startOverflows (physicalEnd symbols) other) ↔
            ∃ other ∈ rest, startOverflows (physicalEnd symbols) other := by
          simp [overflows]
        simp only [later, SetupState.addRange_zoneState, addAreas]
        rcases addRange_ending construct (physicalEnd symbols) area state.zoneState with
          succeeded | ⟨failed, fails⟩
        · refine ⟨failures, Nat.le_succ_of_le atMost, none, ?_⟩
          rw [SetupState.addRange, SetupState.withTexts_again, succeeded, addTexts, List.nil_append]
        · refine ⟨failures + 1, Nat.succ_le_succ atMost, fun succeeds => absurd fails succeeds, ?_⟩
          rw [SetupState.addRange, SetupState.withTexts_again, failed, addTexts,
            List.singleton_append, List.replicate_succ]

/-- The history of the allocator that the loop makes. -/
theorem reached_addAreas {buddy : BuddyAlloc B} {kernelPhysicalEnd : Nat}
    (areas : List MemoryArea) {ranges : List Bounds} {zones : ZoneState B E}
    (reached : Reached construct buddy (2 ^ 12) ranges [] zones) :
    Reached construct buddy (2 ^ 12)
      (((reachedAreas kernelPhysicalEnd areas).filterMap (addedRange kernelPhysicalEnd)).reverse ++
        ranges) []
      (run (zoneHandler construct) (addAreas kernelPhysicalEnd areas) zones).2 := by
  induction areas generalizing ranges zones with
  | nil => exact reached
  | cons area rest ih =>
      rw [addAreas, Program.run_forEach_cons, reachedAreas]
      by_cases overflows : startOverflows kernelPhysicalEnd area
      · rw [addArea_eq_withArea, run_withArea_overflow _ _ _ overflows,
          List.takeWhile_cons_of_neg (by simpa using overflows)]
        exact reached
      · rw [run_addArea_range construct overflows, Outcome.andThen_ok,
          List.takeWhile_cons_of_pos (by simpa using overflows)]
        cases added : addedRange kernelPhysicalEnd area with
        | none =>
            rw [List.filterMap_cons_none added]
            exact ih reached
        | some range =>
            obtain ⟨start, size, fits⟩ := addedRange_aligned added
            rw [List.filterMap_cons_some added, List.reverse_cons, List.append_assoc,
              List.singleton_append]
            exact ih (Reached.addZone reached start size fits)

end Areas

end Handler

end SatanKernel.X86
