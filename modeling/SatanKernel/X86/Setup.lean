import SatanKernel.Memory.ZonedBuddy

/-!
# Which memory the allocator gets

The loop of `setup_paging` (`arch/x86/paging/mod.rs`) goes over the memory map of the
boot loader and hands the available areas, cut to whole pages above the kernel, to
`add_zone`.  The bounds of an area have 64 bits and are cast to the 32-bit `usize`.
-/

namespace SatanKernel

namespace X86

open Lib

/-- `multiboot2::MemoryAreaType`. -/
inductive MemoryAreaType where
  | available
  | reserved
  | acpiAvailable
  | reservedHibernate
  | defective
  | custom (id : Nat)
  deriving DecidableEq, Repr

/-- An entry of the memory map.  Its end is a 64-bit number too. -/
structure MemoryArea where
  base : Nat
  length : Nat
  typ : MemoryAreaType
  fits : base + length < 2 ^ 64
  deriving DecidableEq

namespace MemoryArea

/-- `region.start_address()`. -/
def startAddress (area : MemoryArea) : Nat := area.base

/-- `region.end_address()`. -/
def endAddress (area : MemoryArea) : Nat := area.base + area.length

/-- The addresses of an area. -/
def bytes (area : MemoryArea) : Set Nat := Set.Ico area.startAddress area.endAddress

end MemoryArea

/-- The block size of `PageAllocator`. -/
def pageAllocatorBlock : Nat := 0x1000

section Loop

variable {B : Type}

/-- The body of the loop for one area of the memory map.  A failure of `add_zone` is
only printed. -/
def addArea (kernelPhysicalEnd : Nat) (region : MemoryArea) : ZoneM B Empty Unit := do
  if region.typ = .available then
    let start ← alignUp (max (region.startAddress % 2 ^ usizeBits) kernelPhysicalEnd) 0x1000
    let stop := region.endAddress % 2 ^ usizeBits
    if stop ≤ start then pure ()
    else
      let size ← checkedSub stop start
      let _ ← Program.attempt (addZone pageAllocatorBlock start (alignDown size 0x1000))
      pure ()
  else pure ()

/-- The loop of `setup_paging` over the memory map. -/
def addAreas (kernelPhysicalEnd : Nat) (areas : List MemoryArea) : ZoneM B Empty Unit :=
  Program.forEach areas (addArea kernelPhysicalEnd)

end Loop

/-! ## What one area contributes -/

/-- Where the memory taken from an area starts. -/
def contributionStart (kernelPhysicalEnd : Nat) (area : MemoryArea) : Nat :=
  (max (area.startAddress % 0x100000000) kernelPhysicalEnd + 0xfff) / 0x1000 * 0x1000

/-- Where the memory taken from an area ends. -/
def contributionStop (area : MemoryArea) : Nat :=
  area.endAddress % 0x100000000 / 0x1000 * 0x1000

/-- The memory that the loop takes from an area. -/
def contribution (kernelPhysicalEnd : Nat) (area : MemoryArea) : Set Nat :=
  if area.typ = .available then
    Set.Ico (contributionStart kernelPhysicalEnd area) (contributionStop area)
  else ∅

/-- Rounding the start of an area up overflows, which panics. -/
def startOverflows (kernelPhysicalEnd : Nat) (area : MemoryArea) : Prop :=
  area.typ = .available ∧
    0x100000000 ≤ max (area.startAddress % 0x100000000) kernelPhysicalEnd + 0x1000

instance (kernelPhysicalEnd : Nat) (area : MemoryArea) :
    Decidable (startOverflows kernelPhysicalEnd area) :=
  inferInstanceAs (Decidable (_ ∧ _))

/-- The areas that the loop gets through. -/
def reachedAreas (kernelPhysicalEnd : Nat) (areas : List MemoryArea) : List MemoryArea :=
  areas.takeWhile fun area => ¬ startOverflows kernelPhysicalEnd area

section Ending

variable {B E : Type} (construct : E → Nat → Nat → Option B × E)

/-- Zones that fill a set of addresses, up to constructions that fail. -/
structure Fills (target : Set Nat) (zones : List (Zone B)) : Prop where
  apart : zones.Pairwise fun left right => Disjoint left.bytes right.bytes
  inside : ∀ zone ∈ zones, zone.bytes ⊆ target
  whole : ¬ ConstructionFails construct →
    ∀ byte ∈ target, ∃ zone ∈ zones, byte ∈ zone.bytes

theorem Fills.empty : Fills construct ∅ [] :=
  ⟨List.Pairwise.nil, by simp, by simp⟩

/-- Zones that tile a prefix of an interval, all of it unless a construction fails. -/
theorem Fills.of_tiles {zones : List (Zone B)} {start stop covered : Nat}
    (tiles : Tiles Zone.start Zone.size start zones covered) (atMost : covered ≤ stop)
    (whole : ¬ ConstructionFails construct → covered = stop) :
    Fills construct (Set.Ico start stop) zones where
  apart := tiles.pairwise_disjoint
  inside _ member := (tiles.extent_subset member).trans (Set.Ico_subset_Ico_right atMost)
  whole succeeds _ inside := tiles.exists_mem (whole succeeds ▸ inside)

/-- The attempt to add a zone always returns, and the zones pushed fill its range. -/
theorem run_attempt_addZone {start size : Nat} (startAligned : start % 0x1000 = 0)
    (sizeAligned : size % 0x1000 = 0) (fits : start + size < 0x100000000)
    (before : ZoneState B E) :
    ∃ result after added, Program.run (ε := Empty) (zoneHandler construct)
        (Program.attempt (addZone pageAllocatorBlock start size)) before =
          (.ok result, after) ∧
      after.zones = before.zones ++ added ∧
      Fills construct (Set.Ico start (start + size)) added := by
  have ending := addZone_ending construct (k := 12) startAligned sizeAligned fits before
  rw [Program.run_attempt]
  change AddZoneEnding construct _ before start size (Program.run (zoneHandler construct)
    (addZone pageAllocatorBlock start size) before) at ending
  generalize Program.run (zoneHandler construct)
    (addZone pageAllocatorBlock start size) before = finished at ending ⊢
  cases ending with
  | covered after appends =>
      obtain ⟨added, zones, tiles, regular⟩ := appends
      exact ⟨.ok (), after, added, rfl, zones,
        Fills.of_tiles construct tiles le_rfl fun _ => rfl⟩
  | failed after covered less appends fails =>
      obtain ⟨added, zones, tiles, regular⟩ := appends
      exact ⟨.error .allocError, after, added, rfl, zones,
        Fills.of_tiles construct tiles (by omega) fun succeeds => absurd fails succeeds⟩

/-- The start of an area, clamped to the end of the kernel and rounded up. -/
theorem run_roundStart (kernelPhysicalEnd : Nat) (area : MemoryArea)
    (state : ZoneState B E) :
    Program.run (ε := Empty) (zoneHandler construct)
        (alignUp (max (area.startAddress % 2 ^ usizeBits) kernelPhysicalEnd) 0x1000) state =
      if max (area.startAddress % 2 ^ usizeBits) kernelPhysicalEnd + 2 ^ 12 < 2 ^ usizeBits then
        (.ok (contributionStart kernelPhysicalEnd area), state)
      else (.panic, state) :=
  run_alignUp (zoneHandler construct) _ (k := 12) (by decide) state

/-- An area that does not overflow ends its iteration normally, and zones that fill its
contribution were pushed. -/
theorem run_addArea (kernelPhysicalEnd : Nat) (area : MemoryArea)
    (reached : ¬ startOverflows kernelPhysicalEnd area) (before : ZoneState B E) :
    ∃ after added, Program.run (zoneHandler construct)
        (addArea kernelPhysicalEnd area) before = (.ok (), after) ∧
      after.zones = before.zones ++ added ∧
      Fills construct (contribution kernelPhysicalEnd area) added := by
  rw [addArea, contribution]
  split
  next available =>
    have bounded : max (area.startAddress % 2 ^ usizeBits) kernelPhysicalEnd + 2 ^ 12 <
        2 ^ usizeBits := by
      by_contra overflow
      exact reached ⟨available, Nat.not_lt.mp overflow⟩
    rw [Program.run_bind, run_roundStart, if_pos bounded, Outcome.andThen_ok]
    have startAligned : contributionStart kernelPhysicalEnd area % 0x1000 = 0 :=
      Nat.mul_mod_left _ _
    change ∃ after added, Program.run (zoneHandler construct)
      (if area.endAddress % 0x100000000 ≤ contributionStart kernelPhysicalEnd area then
        pure () else _) before = _ ∧ _
    have stopBounded := Nat.mod_lt area.endAddress (by decide : 0 < 0x100000000)
    split
    next skipped =>
      have nothing : Set.Ico (contributionStart kernelPhysicalEnd area)
          (contributionStop area) = ∅ := by
        apply Set.Ico_eq_empty_of_le
        exact (Nat.div_mul_le_self _ _).trans skipped
      rw [nothing]
      exact ⟨before, [], rfl, by simp, Fills.empty construct⟩
    next entered =>
      have ordered := Nat.not_le.mp entered
      have cut : alignDown (area.endAddress % 0x100000000 -
          contributionStart kernelPhysicalEnd area) 0x1000 =
          (area.endAddress % 0x100000000 - contributionStart kernelPhysicalEnd area) /
            0x1000 * 0x1000 :=
        alignDown_two_pow (k := 12) (lt_of_le_of_lt (Nat.sub_le _ _) stopBounded) (by decide)
      have reaches : contributionStart kernelPhysicalEnd area +
          (area.endAddress % 0x100000000 - contributionStart kernelPhysicalEnd area) /
            0x1000 * 0x1000 = contributionStop area := by
        rw [contributionStop]
        omega
      obtain ⟨result, after, added, returned, zones, fills⟩ :=
        run_attempt_addZone construct startAligned (Nat.mul_mod_left _ _)
          (by rw [reaches, contributionStop]; omega) before
      rw [reaches] at fills
      refine ⟨after, added, ?_, zones, fills⟩
      have subtracted := run_checkedSub_of_le (ε := Empty) (zoneHandler construct)
        (Nat.le_of_lt ordered) before
      change Program.run _ (checkedSub (area.endAddress % 2 ^ usizeBits) _) before = _
        at subtracted
      rw [Program.run_bind, subtracted, Outcome.andThen_ok, cut, Program.run_bind, returned,
        Outcome.andThen_ok, Program.run_pure]
  next other =>
    exact ⟨before, [], rfl, by simp, Fills.empty construct⟩

/-- An area whose start overflows panics the loop before anything is pushed. -/
theorem run_addArea_overflow (kernelPhysicalEnd : Nat) (area : MemoryArea)
    (overflows : startOverflows kernelPhysicalEnd area) (before : ZoneState B E) :
    Program.run (zoneHandler construct) (addArea kernelPhysicalEnd area) before =
      (.panic, before) := by
  have unbounded : ¬ max (area.startAddress % 2 ^ usizeBits) kernelPhysicalEnd + 2 ^ 12 <
      2 ^ usizeBits := Nat.not_lt.mpr overflows.2
  rw [addArea, if_pos overflows.1, Program.run_bind, run_roundStart, if_neg unbounded,
    Outcome.andThen_panic]

/-- The loop pushes, for each area that it gets through, zones that fill the
contribution of the area. -/
theorem run_addAreas (kernelPhysicalEnd : Nat) (areas : List MemoryArea)
    (before : ZoneState B E) :
    ∃ added : List (List (Zone B)),
      (Program.run (zoneHandler construct) (addAreas kernelPhysicalEnd areas) before).2.zones =
        before.zones ++ added.flatten ∧
      List.Forall₂ (Fills construct)
        ((reachedAreas kernelPhysicalEnd areas).map (contribution kernelPhysicalEnd)) added := by
  induction areas generalizing before with
  | nil => exact ⟨[], by simp [addAreas], List.Forall₂.nil⟩
  | cons area rest ih =>
      rw [addAreas, Program.run_forEach_cons, reachedAreas]
      by_cases overflows : startOverflows kernelPhysicalEnd area
      · rw [run_addArea_overflow construct kernelPhysicalEnd area overflows]
        exact ⟨[], by simp, by simp [overflows]⟩
      · obtain ⟨after, pushed, returned, zones, fills⟩ :=
          run_addArea construct kernelPhysicalEnd area overflows before
        obtain ⟨added, restZones, restFills⟩ := ih after
        rw [returned, Outcome.andThen_ok]
        refine ⟨pushed :: added, ?_, ?_⟩
        · rw [addAreas] at restZones
          rw [restZones, zones, List.flatten_cons, List.append_assoc]
        · rw [List.takeWhile_cons_of_pos (by simpa using overflows)]
          exact List.Forall₂.cons fills restFills

variable {construct} {targets : List (Set Nat)} {added : List (List (Zone B))}

theorem exists_target_of_fills (fills : List.Forall₂ (Fills construct) targets added)
    {zone : Zone B} (member : zone ∈ added.flatten) :
    ∃ target ∈ targets, zone.bytes ⊆ target := by
  induction fills with
  | nil => cases member
  | cons filled rest ih =>
      rw [List.flatten_cons, List.mem_append] at member
      cases member with
      | inl here => exact ⟨_, List.mem_cons_self, filled.inside zone here⟩
      | inr there =>
          obtain ⟨target, inTargets, inside⟩ := ih there
          exact ⟨target, List.mem_cons_of_mem _ inTargets, inside⟩

theorem exists_zone_of_fills (fills : List.Forall₂ (Fills construct) targets added)
    (succeeds : ¬ ConstructionFails construct) {target : Set Nat}
    (member : target ∈ targets) {byte : Nat} (inside : byte ∈ target) :
    ∃ zone ∈ added.flatten, byte ∈ zone.bytes := by
  induction fills with
  | nil => cases member
  | cons filled rest ih =>
      simp only [List.flatten_cons, List.mem_append]
      cases List.mem_cons.mp member with
      | inl equal =>
          obtain ⟨zone, here, holds⟩ := filled.whole succeeds byte (equal ▸ inside)
          exact ⟨zone, Or.inl here, holds⟩
      | inr inRest =>
          obtain ⟨zone, there, holds⟩ := ih inRest
          exact ⟨zone, Or.inr there, holds⟩

/-- Fillings of disjoint sets are disjoint. -/
theorem pairwise_flatten_of_fills (fills : List.Forall₂ (Fills construct) targets added)
    (apart : targets.Pairwise Disjoint) :
    added.flatten.Pairwise fun left right => Disjoint left.bytes right.bytes := by
  induction fills with
  | nil => exact List.Pairwise.nil
  | cons filled rest ih =>
      rw [List.pairwise_cons] at apart
      rw [List.flatten_cons, List.pairwise_append]
      refine ⟨filled.apart, ih apart.2, ?_⟩
      intro left inLeft right inRight
      obtain ⟨target, inTargets, inside⟩ := exists_target_of_fills rest inRight
      exact (apart.1 target inTargets).mono (filled.inside left inLeft) inside

/-- Only disjoint sets have disjoint fillings, where no construction fails. -/
theorem pairwise_targets_of_fills (fills : List.Forall₂ (Fills construct) targets added)
    (succeeds : ¬ ConstructionFails construct)
    (apart : added.flatten.Pairwise fun left right => Disjoint left.bytes right.bytes) :
    targets.Pairwise Disjoint := by
  induction fills with
  | nil => exact List.Pairwise.nil
  | cons filled rest ih =>
      rw [List.flatten_cons, List.pairwise_append] at apart
      refine List.Pairwise.cons ?_ (ih apart.2.1)
      intro target member
      rw [Set.disjoint_left]
      intro byte inFirst inTarget
      obtain ⟨left, inLeft, leftHolds⟩ := filled.whole succeeds byte inFirst
      obtain ⟨right, inRight, rightHolds⟩ := exists_zone_of_fills rest succeeds member inTarget
      exact Set.disjoint_left.mp (apart.2.2 left inLeft right inRight) leftHolds rightHolds

end Ending

/-! ## Usable memory -/

/-- The addresses of the available areas. -/
def availableMemory (areas : List MemoryArea) : Set Nat :=
  {byte | ∃ area ∈ areas, area.typ = .available ∧ byte ∈ area.bytes}

/-- The zones are disjoint, and consist of available memory above the kernel. -/
structure Usable (kernelPhysicalEnd : Nat) (areas : List MemoryArea) {B : Type}
    (zones : List (Zone B)) : Prop where
  apart : zones.Pairwise fun left right => Disjoint left.bytes right.bytes
  available : ∀ zone ∈ zones, zone.bytes ⊆ availableMemory areas
  aboveKernel : ∀ zone ∈ zones, ∀ byte ∈ zone.bytes, kernelPhysicalEnd ≤ byte

/-- What the areas that start above 4 GiB contribute, once their bounds are cast to
`usize`, is available memory and overlaps no other contribution. -/
structure HighAreasHarmless (kernelPhysicalEnd : Nat) (areas : List MemoryArea) : Prop where
  available : ∀ area ∈ reachedAreas kernelPhysicalEnd areas, 0x100000000 ≤ area.base →
    contribution kernelPhysicalEnd area ⊆ availableMemory areas
  apart : (reachedAreas kernelPhysicalEnd areas).Pairwise fun left right =>
    0x100000000 ≤ left.base ∨ 0x100000000 ≤ right.base →
      Disjoint (contribution kernelPhysicalEnd left) (contribution kernelPhysicalEnd right)

variable {kernelPhysicalEnd : Nat} {areas : List MemoryArea} {area : MemoryArea} {byte : Nat}

theorem contribution_aboveKernel (member : byte ∈ contribution kernelPhysicalEnd area) :
    kernelPhysicalEnd ≤ byte := by
  rw [contribution] at member
  split at member
  next available =>
    have lower := member.1
    rw [contributionStart] at lower
    omega
  next other => exact member.elim

/-- An area that starts below 4 GiB contributes only addresses of its own. -/
theorem contribution_subset_of_low (low : area.base < 0x100000000)
    (member : byte ∈ contribution kernelPhysicalEnd area) :
    area.typ = .available ∧ byte ∈ area.bytes := by
  rw [contribution] at member
  split at member
  next available =>
    have lower := member.1
    have upper := member.2
    rw [contributionStart, MemoryArea.startAddress] at lower
    rw [contributionStop] at upper
    have start : area.base % 0x100000000 = area.base := Nat.mod_eq_of_lt low
    have stop := Nat.mod_le area.endAddress 0x100000000
    refine ⟨available, ?_, ?_⟩
    · rw [MemoryArea.startAddress]
      omega
    · omega
  next other => exact member.elim

/-- The available areas of the memory map do not overlap. -/
def AvailableDisjoint (areas : List MemoryArea) : Prop :=
  areas.Pairwise fun left right =>
    left.typ = .available → right.typ = .available → Disjoint left.bytes right.bytes

/-- The areas below 4 GiB contribute disjoint ranges because they are disjoint. -/
theorem contributions_apart (disjoint : AvailableDisjoint areas)
    (harmless : HighAreasHarmless kernelPhysicalEnd areas) :
    ((reachedAreas kernelPhysicalEnd areas).map (contribution kernelPhysicalEnd)).Pairwise
      Disjoint := by
  have reached := disjoint.sublist (List.takeWhile_prefix
    (fun area => ¬ startOverflows kernelPhysicalEnd area) : reachedAreas _ _ <+: _).sublist
  rw [List.pairwise_map]
  apply (reached.and harmless.apart).imp
  intro left right both
  by_cases high : 0x100000000 ≤ left.base ∨ 0x100000000 ≤ right.base
  · exact both.2 high
  · rw [not_or, Nat.not_le, Nat.not_le] at high
    rw [Set.disjoint_left]
    intro byte inLeft inRight
    have leftOwn := contribution_subset_of_low high.1 inLeft
    have rightOwn := contribution_subset_of_low high.2 inRight
    exact Set.disjoint_left.mp (both.1 leftOwn.1 rightOwn.1) leftOwn.2 rightOwn.2

/-- Harmless high areas leave the allocator with usable memory only. -/
theorem usable_of_harmless {B E : Type} (construct : E → Nat → Nat → Option B × E)
    (environment : E) (disjoint : AvailableDisjoint areas)
    (harmless : HighAreasHarmless kernelPhysicalEnd areas) :
    Usable kernelPhysicalEnd areas (Program.run (zoneHandler construct)
      (addAreas kernelPhysicalEnd areas) ⟨[], environment⟩).2.zones := by
  obtain ⟨added, zones, fills⟩ :=
    run_addAreas construct kernelPhysicalEnd areas ⟨[], environment⟩
  rw [zones, List.nil_append]
  have origin : ∀ zone ∈ added.flatten, ∃ area ∈ reachedAreas kernelPhysicalEnd areas,
      zone.bytes ⊆ contribution kernelPhysicalEnd area := by
    intro zone member
    obtain ⟨target, inTargets, inside⟩ := exists_target_of_fills fills member
    obtain ⟨area, reached, equal⟩ := List.mem_map.mp inTargets
    exact ⟨area, reached, equal ▸ inside⟩
  constructor
  · exact pairwise_flatten_of_fills fills (contributions_apart disjoint harmless)
  · intro zone member byte holds
    obtain ⟨area, reached, inside⟩ := origin zone member
    by_cases high : 0x100000000 ≤ area.base
    · exact harmless.available area reached high (inside holds)
    · have own := contribution_subset_of_low (Nat.not_le.mp high) (inside holds)
      exact ⟨area, List.takeWhile_subset _ reached, own⟩
  · intro zone member byte holds
    obtain ⟨area, reached, inside⟩ := origin zone member
    exact contribution_aboveKernel (inside holds)

/-- A constructor of buddies that never fails. -/
def alwaysConstructs : Unit → Nat → Nat → Option Unit × Unit := fun _ _ _ => (some (), ())

/-- Usable zones, when every construction succeeds, show that the high areas are
harmless. -/
theorem harmless_of_usable
    (usable : Usable kernelPhysicalEnd areas (Program.run (zoneHandler alwaysConstructs)
      (addAreas kernelPhysicalEnd areas) ⟨[], ()⟩).2.zones) :
    HighAreasHarmless kernelPhysicalEnd areas := by
  obtain ⟨added, zones, fills⟩ :=
    run_addAreas alwaysConstructs kernelPhysicalEnd areas ⟨[], ()⟩
  rw [zones, List.nil_append] at usable
  have succeeds : ¬ ConstructionFails alwaysConstructs := by
    rintro ⟨environment, start, blocks, failed⟩
    cases failed
  constructor
  · intro area reached high byte inside
    obtain ⟨zone, member, holds⟩ := exists_zone_of_fills fills succeeds
      (List.mem_map_of_mem reached) inside
    exact usable.available zone member holds
  · have apart := pairwise_targets_of_fills fills succeeds usable.apart
    rw [List.pairwise_map] at apart
    apply apart.imp
    intro left right disjoint _
    exact disjoint

/-- The zones are usable memory, whichever constructions fail, exactly when the areas
that start above 4 GiB are harmless. -/
theorem addAreas_usable_iff (kernelPhysicalEnd : Nat) (areas : List MemoryArea)
    (disjoint : AvailableDisjoint areas) :
    (∀ (B E : Type) (construct : E → Nat → Nat → Option B × E) (environment : E),
      Usable kernelPhysicalEnd areas (Program.run (zoneHandler construct)
        (addAreas kernelPhysicalEnd areas) ⟨[], environment⟩).2.zones) ↔
      HighAreasHarmless kernelPhysicalEnd areas := by
  constructor
  · intro usable
    exact harmless_of_usable (usable Unit Unit alwaysConstructs ())
  · intro harmless B E construct environment
    exact usable_of_harmless construct environment disjoint harmless

/-- 1023 MiB of memory from 1 MiB on. -/
def lowMemory : MemoryArea := ⟨0x100000, 0x3ff00000, .available, by decide⟩

/-- 1 GiB of memory from 4 GiB on. -/
def highMemory : MemoryArea := ⟨0x100000000, 0x40000000, .available, by decide⟩

theorem addAreas_usable_low_memory :
    AvailableDisjoint [lowMemory] ∧
      ∀ (B E : Type) (construct : E → Nat → Nat → Option B × E) (environment : E),
        Usable 0x200000 [lowMemory] (Program.run (zoneHandler construct)
          (addAreas 0x200000 [lowMemory]) ⟨[], environment⟩).2.zones := by
  have disjoint : AvailableDisjoint [lowMemory] := List.pairwise_singleton _ _
  refine ⟨disjoint, (addAreas_usable_iff 0x200000 [lowMemory] disjoint).mpr ⟨?_, ?_⟩⟩
  · intro area reached high
    have same := List.mem_singleton.mp (List.takeWhile_subset _ reached)
    rw [same] at high
    exact absurd high (by decide)
  · have single : reachedAreas 0x200000 [lowMemory] = [lowMemory] := by decide
    rw [single]
    exact List.pairwise_singleton _ _

/-- A machine with memory above 4 GiB: the cast moves that memory onto the memory from
1 MiB on, which the allocator then gets twice. -/
theorem addAreas_adds_low_memory_twice :
    AvailableDisjoint [lowMemory, highMemory] ∧
      ¬ Usable 0x200000 [lowMemory, highMemory] (Program.run (zoneHandler alwaysConstructs)
        (addAreas 0x200000 [lowMemory, highMemory]) ⟨[], ()⟩).2.zones := by
  constructor
  · rw [AvailableDisjoint, List.pairwise_pair]
    intro _ _
    exact Set.Ico_disjoint_Ico_same.mono_left (Set.Ico_subset_Ico_right (by decide))
  · intro usable
    have apart := (harmless_of_usable usable).apart
    have both : reachedAreas 0x200000 [lowMemory, highMemory] = [lowMemory, highMemory] := by
      decide
    rw [both, List.pairwise_pair] at apart
    have inLow : 0x200000 ∈ contribution 0x200000 lowMemory := by
      rw [contribution, if_pos (by decide)]
      constructor <;> decide
    have inHigh : 0x200000 ∈ contribution 0x200000 highMemory := by
      rw [contribution, if_pos (by decide)]
      constructor <;> decide
    exact Set.disjoint_left.mp (apart (Or.inr (by decide))) inLow inHigh

end X86

end SatanKernel
