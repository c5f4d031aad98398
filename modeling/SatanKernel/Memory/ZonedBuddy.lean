import SatanKernel.Lib.Tiling
import SatanKernel.Memory.Basic

/-!
# The zoned buddy allocator

`memory/page_allocator/zoned_buddy.rs`: the zones of the allocator and how
`add_zone` splits a range of memory into them.

Each zone has a buddy allocator of its own.  The third-party `BuddyAlloc` is a
parameter: `B` is the type of its instances and `construct` is `BuddyAlloc::new`,
which may fail and may depend on an environment that it changes, such as the heap.
-/

namespace SatanKernel

open Lib

/-- `core::alloc::AllocError`. -/
inductive AllocError where
  | allocError
  deriving DecidableEq, Repr

/-- A zone of contiguous memory with its buddy allocator. -/
structure Zone (B : Type) where
  start : Nat
  size : Nat
  allocated : Nat
  buddy : B
  deriving DecidableEq, Repr

/-- The addresses of a zone. -/
def Zone.bytes {B : Type} (zone : Zone B) : Set Nat := extent Zone.start Zone.size zone

/-- What `add_zone` does outside of its own arithmetic: construct a buddy for a number
of blocks, and push a zone onto the vector. -/
inductive ZoneOp (B : Type) where
  | newBuddy (start blocks : Nat)
  | push (zone : Zone B)

/-- The operations on the zones and their answers. -/
def zoneSig (B : Type) : Signature where
  Op := ZoneOp B
  Answer
    | .newBuddy _ _ => Option B
    | .push _ => Unit

abbrev ZoneM (B ε : Type) := Program (zoneSig B) ε

section AddZone

variable {B ε : Type}

/-- `BuddyAlloc::new(start, blocks, &Global)`. -/
def newBuddy (start blocks : Nat) : ZoneM B ε (Option B) :=
  @Program.perform (zoneSig B) ε (.newBuddy start blocks)

/-- `self.zones.write().push(zone)`. -/
def pushZone (zone : Zone B) : ZoneM B ε Unit :=
  @Program.perform (zoneSig B) ε (.push zone)

/-- `debug_assert!`, in the debug profile. -/
def debugAssert (condition : Prop) [Decidable condition] : ZoneM B ε Unit :=
  if condition then .ret () else .panic

/-- Bits of a size that is not a power of two are smaller than it. -/
theorem bit_lt_of_not_power {size bit : Nat} (notPower : ¬ size.isPowerOfTwo)
    (set : size &&& 1 <<< bit ≠ 0) : 1 <<< bit < size := by
  rw [Nat.one_shiftLeft] at set ⊢
  have atMost : 2 ^ bit ≤ size := Nat.ge_two_pow_of_testBit ((and_two_pow_ne_zero size bit).mp set)
  have different : size ≠ 2 ^ bit := fun equal => notPower ⟨bit, equal⟩
  omega

/-- Add a zone for each bit of `size`, starting with the smallest. -/
def addZone (blockSize start size : Nat) : ZoneM B AllocError Unit := do
  debugAssert (start % blockSize = 0)
  debugAssert (size % blockSize = 0)
  if _ : ¬ size.isPowerOfTwo then
    let _ ← Program.foldEach (List.range usizeBits)
      (fun start bit => do
        if _ : size &&& 1 <<< bit ≠ 0 then
          addZone blockSize start (1 <<< bit)
          checkedAdd start (1 <<< bit)
        else pure start)
      start
  else
    match ← newBuddy start (size / blockSize) with
    | none => .throw .allocError
    | some buddy => pushZone { start, size, allocated := 0, buddy }
termination_by size
decreasing_by exact bit_lt_of_not_power ‹_› ‹_›

end AddZone

/-- The zones of an allocator and the environment of the buddy constructor. -/
structure ZoneState (B E : Type) where
  zones : List (Zone B)
  environment : E

section Specification

variable {B E ε : Type} (construct : E → Nat → Nat → Option B × E)

/-- The effect of the operations on the zones. -/
def zoneHandler : Handler (zoneSig B) (ZoneState B E)
  | .newBuddy start blocks, state =>
      let (answer, environment) := construct state.environment start blocks
      some (answer, { state with environment })
  | .push zone, state => some ((), { state with zones := state.zones ++ [zone] })

/-- A zone as `add_zone` makes it: a power of two in size, aligned to blocks, with a new
buddy of its own. -/
structure Zone.Regular (blockSize : Nat) (zone : Zone B) : Prop where
  power : zone.size.isPowerOfTwo
  startAligned : zone.start % blockSize = 0
  sizeAligned : zone.size % blockSize = 0
  unused : zone.allocated = 0
  built : ∃ environment, (construct environment zone.start (zone.size / blockSize)).1 =
    some zone.buddy

/-- Between the two states, zones laid end to end from `start` to `stop` were pushed. -/
def Appends (blockSize : Nat) (before after : ZoneState B E) (start stop : Nat) : Prop :=
  ∃ added, after.zones = before.zones ++ added ∧
    Tiles Zone.start Zone.size start added stop ∧
    ∀ zone ∈ added, zone.Regular construct blockSize

namespace Appends

variable {blockSize start middle stop : Nat} {before between after : ZoneState B E}

theorem refl (state : ZoneState B E) (start : Nat) :
    Appends construct blockSize state state start start :=
  ⟨[], by simp, by simp, by simp⟩

theorem trans (first : Appends construct blockSize before between start middle)
    (second : Appends construct blockSize between after middle stop) :
    Appends construct blockSize before after start stop := by
  obtain ⟨left, leftZones, leftTiles, leftRegular⟩ := first
  obtain ⟨right, rightZones, rightTiles, rightRegular⟩ := second
  refine ⟨left ++ right, ?_, leftTiles.append rightTiles, ?_⟩
  · rw [rightZones, leftZones, List.append_assoc]
  · intro zone member
    cases List.mem_append.mp member with
    | inl inLeft => exact leftRegular zone inLeft
    | inr inRight => exact rightRegular zone inRight

end Appends

/-- Some construction of a buddy fails. -/
def ConstructionFails : Prop :=
  ∃ environment start blocks, (construct environment start blocks).1 = none

/-- How `add_zone` ends: it has covered its range, or a proper prefix of the range and
the construction of the next buddy failed. -/
inductive AddZoneEnding (blockSize : Nat) (before : ZoneState B E) (start size : Nat) :
    Outcome AllocError Unit × ZoneState B E → Prop where
  | covered (after : ZoneState B E)
      (appends : Appends construct blockSize before after start (start + size)) :
      AddZoneEnding blockSize before start size (.ok (), after)
  | failed (after : ZoneState B E) (covered : Nat) (less : covered < size)
      (appends : Appends construct blockSize before after start (start + covered))
      (fails : ConstructionFails construct) :
      AddZoneEnding blockSize before start size (.err .allocError, after)

theorem run_debugAssert_of {condition : Prop} [Decidable condition]
    (holds : condition) (state : ZoneState B E) :
    Program.run (ε := ε) (zoneHandler construct) (debugAssert condition) state =
      (.ok (), state) := by
  rw [debugAssert, if_pos holds, Program.run_ret]

theorem run_newBuddy (start blocks : Nat) (state : ZoneState B E) :
    Program.run (ε := ε) (zoneHandler construct) (newBuddy start blocks) state =
      (.ok (construct state.environment start blocks).1,
        ⟨state.zones, (construct state.environment start blocks).2⟩) := rfl

theorem run_pushZone (zone : Zone B) (state : ZoneState B E) :
    Program.run (ε := ε) (zoneHandler construct) (pushZone zone) state =
      (.ok (), ⟨state.zones ++ [zone], state.environment⟩) := rfl

variable {k start size : Nat}

/-- A power of two becomes one zone. -/
theorem addZone_power (startAligned : start % 2 ^ k = 0) (sizeAligned : size % 2 ^ k = 0)
    (power : size.isPowerOfTwo) (before : ZoneState B E) :
    AddZoneEnding construct (2 ^ k) before start size
      (Program.run (zoneHandler construct) (addZone (2 ^ k) start size) before) := by
  rw [addZone, Program.run_bind, run_debugAssert_of construct startAligned,
    Outcome.andThen_ok, Program.run_bind, run_debugAssert_of construct sizeAligned,
    Outcome.andThen_ok, dif_neg (not_not_intro power), Program.run_bind]
  rw [run_newBuddy, Outcome.andThen_ok]
  cases constructed : (construct before.environment start (size / 2 ^ k)).1 with
  | none =>
      rw [Program.run_throw]
      apply AddZoneEnding.failed _ 0 (Nat.pos_of_isPowerOfTwo power)
      · exact ⟨[], by simp, by simp, by simp⟩
      · exact ⟨before.environment, start, size / 2 ^ k, constructed⟩
  | some buddy =>
      rw [run_pushZone]
      apply AddZoneEnding.covered
      refine ⟨[⟨start, size, 0, buddy⟩], rfl, by simp, ?_⟩
      intro zone member
      rw [List.mem_singleton.mp member]
      exact ⟨power, startAligned, sizeAligned, rfl, before.environment, constructed⟩

/-- The body of the loop over the bits of a size. -/
def addBit (blockSize size start bit : Nat) : ZoneM B AllocError Nat :=
  if size &&& 1 <<< bit ≠ 0 then do
    addZone blockSize start (1 <<< bit)
    checkedAdd start (1 <<< bit)
  else pure start

/-- How the loop over the first `bits` bits of a size ends. -/
inductive BitsEnding (blockSize : Nat) (before : ZoneState B E) (start size bits : Nat) :
    Outcome AllocError Nat × ZoneState B E → Prop where
  | covered (after : ZoneState B E)
      (appends : Appends construct blockSize before after start (start + size % 2 ^ bits)) :
      BitsEnding blockSize before start size bits (.ok (start + size % 2 ^ bits), after)
  | failed (after : ZoneState B E) (covered : Nat) (less : covered < size)
      (appends : Appends construct blockSize before after start (start + covered))
      (fails : ConstructionFails construct) :
      BitsEnding blockSize before start size bits (.err .allocError, after)

/-- One more bit.  The zones so far end at the sum of the lower bits, and a set bit is
at least the block size, so the next zone starts aligned. -/
theorem addBit_ending (startAligned : start % 2 ^ k = 0)
    (sizeAligned : size % 2 ^ k = 0) (fits : start + size < 2 ^ usizeBits)
    (before between : ZoneState B E) (bit : Nat)
    (appends : Appends construct (2 ^ k) before between start (start + size % 2 ^ bit)) :
    BitsEnding construct (2 ^ k) before start size (bit + 1)
      (Program.run (zoneHandler construct)
        (addBit (2 ^ k) size (start + size % 2 ^ bit) bit) between) := by
  have grown := mod_two_pow_succ size bit
  have atMost := Nat.mod_le size (2 ^ (bit + 1))
  rw [addBit, Nat.one_shiftLeft]
  split
  next set =>
    have setBit := (and_two_pow_ne_zero size bit).mp set
    rw [if_pos setBit] at grown
    have large : k ≤ bit := by
      by_contra low
      rw [testBit_of_aligned sizeAligned (Nat.not_le.mp low)] at setBit
      exact Bool.false_ne_true setBit
    have divides : 2 ^ k ∣ 2 ^ bit := Nat.pow_dvd_pow 2 large
    have zoneAligned : 2 ^ bit % 2 ^ k = 0 := Nat.mod_eq_zero_of_dvd divides
    have lowAligned : size % 2 ^ bit % 2 ^ k = 0 := by
      rw [Nat.mod_mod_of_dvd size divides, sizeAligned]
    have nextAligned : (start + size % 2 ^ bit) % 2 ^ k = 0 := by
      rw [Nat.add_mod, startAligned, lowAligned, Nat.zero_mod]
    have positive := Nat.two_pow_pos bit
    have ending := addZone_power construct nextAligned zoneAligned ⟨bit, rfl⟩ between
    rw [Program.run_bind]
    generalize Program.run (zoneHandler construct)
      (addZone (2 ^ k) (start + size % 2 ^ bit) (2 ^ bit)) between = finished at ending ⊢
    cases ending with
    | covered after pushed =>
        have sum : start + size % 2 ^ bit + 2 ^ bit = start + size % 2 ^ (bit + 1) := by
          omega
        rw [sum] at pushed
        rw [Outcome.andThen_ok, run_checkedAdd, sum, if_pos (by omega)]
        exact BitsEnding.covered after (appends.trans construct pushed)
    | failed after covered less pushed fails =>
        rw [Outcome.andThen_err]
        apply BitsEnding.failed after (size % 2 ^ bit + covered) (by omega) _ fails
        rw [← Nat.add_assoc]
        exact appends.trans construct pushed
  next clear =>
    have clearBit : ¬ size.testBit bit = true := by
      rwa [← and_two_pow_ne_zero]
    simp only [if_neg clearBit, Nat.add_zero] at grown
    rw [Program.run_pure, ← grown]
    exact BitsEnding.covered between (grown ▸ appends)

theorem addBits_ending (startAligned : start % 2 ^ k = 0)
    (sizeAligned : size % 2 ^ k = 0) (fits : start + size < 2 ^ usizeBits)
    (before : ZoneState B E) (bits : Nat) :
    BitsEnding construct (2 ^ k) before start size bits
      (Program.run (zoneHandler construct)
        (Program.foldEach (List.range bits) (addBit (2 ^ k) size) start) before) := by
  induction bits with
  | zero =>
      have none : start = start + size % 2 ^ 0 := by simp [Nat.mod_one]
      rw [List.range_zero, Program.run_foldEach_nil]
      nth_rewrite 2 [none]
      exact BitsEnding.covered before (none ▸ Appends.refl construct before start)
  | succ bits ih =>
      rw [List.range_succ, Program.run_foldEach_append]
      generalize Program.run (zoneHandler construct)
        (Program.foldEach (List.range bits) (addBit (2 ^ k) size) start) before =
          finished at ih ⊢
      cases ih with
      | covered between appends =>
          have next := addBit_ending construct startAligned sizeAligned fits before
            between bits appends
          rw [Outcome.andThen_ok, Program.run_foldEach_cons]
          generalize Program.run (zoneHandler construct)
            (addBit (2 ^ k) size (start + size % 2 ^ bits) bits) between =
              finished at next ⊢
          cases next with
          | covered after appends => exact BitsEnding.covered after appends
          | failed after covered less appends fails =>
              exact BitsEnding.failed after covered less appends fails
      | failed after covered less appends fails =>
          exact BitsEnding.failed after covered less appends fails

/-- `add_zone` trips no assertion and overflows nowhere.  The zones it pushes tile the
range if it succeeds, and a proper prefix of the range if a construction fails. -/
theorem addZone_ending (startAligned : start % 2 ^ k = 0)
    (sizeAligned : size % 2 ^ k = 0) (fits : start + size < 2 ^ usizeBits)
    (before : ZoneState B E) :
    AddZoneEnding construct (2 ^ k) before start size
      (Program.run (zoneHandler construct) (addZone (2 ^ k) start size) before) := by
  by_cases power : size.isPowerOfTwo
  · exact addZone_power construct startAligned sizeAligned power before
  · have ending := addBits_ending construct startAligned sizeAligned fits before usizeBits
    have whole : size % 2 ^ usizeBits = size := Nat.mod_eq_of_lt (by omega)
    rw [addZone, Program.run_bind, run_debugAssert_of construct startAligned,
      Outcome.andThen_ok, Program.run_bind, run_debugAssert_of construct sizeAligned,
      Outcome.andThen_ok, dif_pos power, Program.run_bind]
    simp only [dite_eq_ite]
    change AddZoneEnding construct (2 ^ k) before start size (Outcome.andThen
      (Program.run (zoneHandler construct)
        (Program.foldEach (List.range usizeBits) (addBit (2 ^ k) size) start) before) _)
    generalize Program.run (zoneHandler construct)
      (Program.foldEach (List.range usizeBits) (addBit (2 ^ k) size) start) before =
        finished at ending ⊢
    cases ending with
    | covered after appends => exact AddZoneEnding.covered after (whole ▸ appends)
    | failed after covered less appends fails =>
        exact AddZoneEnding.failed after covered less appends fails

end Specification

end SatanKernel
