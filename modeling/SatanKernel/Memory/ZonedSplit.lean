import SatanKernel.Memory.ZonedAlloc

/-!
# The split of a range into zones

`add_zone` makes a zone of each bit of the size, from the smallest to the largest: the
zone of a bit starts behind the zones of the bits below it.  Here the split is a list,
and a call of `add_zone` pushes the zones of the list one after the other.
-/

namespace SatanKernel

open Lib
open Lib.Program (run)

/-- The zone of a bit of the size. -/
def piece (start size bit : Nat) : Option Bounds :=
  if size.testBit bit then some ⟨start + size % 2 ^ bit, 2 ^ bit⟩ else none

/-- The zones of the first `bits` bits. -/
def piecesBelow (start size bits : Nat) : List Bounds :=
  (List.range bits).filterMap (piece start size)

/-- The zones that a range is split into. -/
def pieces (start size : Nat) : List Bounds := piecesBelow start size usizeBits

theorem piecesBelow_succ (start size bits : Nat) :
    piecesBelow start size (bits + 1) =
      piecesBelow start size bits ++ (piece start size bits).toList := by
  rw [piecesBelow, piecesBelow, List.range_succ, List.filterMap_append]
  rfl

/-- A power of two is not split. -/
theorem piecesBelow_power (start bit bits : Nat) :
    piecesBelow start (2 ^ bit) bits = if bit < bits then [⟨start, 2 ^ bit⟩] else [] := by
  induction bits with
  | zero => rfl
  | succ bits ih =>
      rw [piecesBelow_succ, ih, piece, Nat.testBit_two_pow]
      by_cases equal : bit = bits
      · subst equal
        simp
      · have sameSide : bit < bits + 1 ↔ bit < bits := by omega
        simp [equal, sameSide]

/-- A zone of the split is the zone of one of the bits. -/
theorem mem_piecesBelow {start size bits : Nat} {bounds : Bounds} :
    bounds ∈ piecesBelow start size bits ↔
      ∃ bit < bits, size.testBit bit = true ∧ bounds = ⟨start + size % 2 ^ bit, 2 ^ bit⟩ := by
  rw [piecesBelow, List.mem_filterMap]
  constructor
  · intro found
    obtain ⟨bit, inRange, isPiece⟩ := found
    rw [piece] at isPiece
    split at isPiece
    next set => exact ⟨bit, List.mem_range.mp inRange, set, (Option.some.inj isPiece).symm⟩
    next => cases isPiece
  · intro found
    obtain ⟨bit, inRange, set, equal⟩ := found
    exact ⟨bit, List.mem_range.mpr inRange, by rw [piece, if_pos set, equal]⟩

section Push

variable {B E : Type} (construct : E → Nat → Nat → Option B × E) (blockSize : Nat)

/-- Construct the buddies of the zones and push the zones, up to the first failure. -/
def pushPieces : List Bounds → ZoneState B E → Outcome AllocError Unit × ZoneState B E
  | [], state => (.ok (), state)
  | bounds :: rest, state =>
      match construct state.environment bounds.start (bounds.size / blockSize) with
      | (none, environment) => (.err .allocError, { state with environment })
      | (some buddy, environment) => pushPieces rest
          ⟨state.zones ++ [⟨bounds.start, bounds.size, 0, buddy⟩], environment⟩

theorem pushPieces_append (first second : List Bounds) (state : ZoneState B E) :
    pushPieces construct blockSize (first ++ second) state =
      Outcome.andThen (pushPieces construct blockSize first state) fun _ after =>
        pushPieces construct blockSize second after := by
  induction first generalizing state with
  | nil => rfl
  | cons bounds rest ih =>
      rw [List.cons_append, pushPieces, pushPieces]
      split
      next => rfl
      next => exact ih _

/-- Everything that is pushed is one of the zones of the list, with a new buddy. -/
theorem mem_pushPieces {list : List Bounds} {state : ZoneState B E} {zone : Zone B}
    (member : zone ∈ (pushPieces construct blockSize list state).2.zones) :
    zone ∈ state.zones ∨ zone.bounds ∈ list ∧ ∃ environment,
      (construct environment zone.start (zone.size / blockSize)).1 = some zone.buddy := by
  induction list generalizing state with
  | nil => exact Or.inl member
  | cons bounds rest ih =>
      rw [pushPieces] at member
      split at member
      next => exact Or.inl member
      next made environment constructed =>
        cases ih member with
        | inl before =>
            cases List.mem_append.mp before with
            | inl old => exact Or.inl old
            | inr new =>
                rw [List.mem_singleton.mp new]
                exact Or.inr ⟨List.mem_cons_self, state.environment, by rw [constructed]⟩
        | inr later => exact Or.inr ⟨List.mem_cons_of_mem _ later.1, later.2⟩

variable {k start size : Nat}

theorem run_addZone_power (startAligned : start % 2 ^ k = 0) (sizeAligned : size % 2 ^ k = 0)
    (power : size.isPowerOfTwo) (state : ZoneState B E) :
    run (zoneHandler construct) (addZone (2 ^ k) start size) state =
      pushPieces construct (2 ^ k) [⟨start, size⟩] state := by
  rw [addZone, Program.run_bind, run_debugAssert_of construct startAligned,
    Outcome.andThen_ok, Program.run_bind, run_debugAssert_of construct sizeAligned,
    Outcome.andThen_ok, dif_neg (not_not_intro power), Program.run_bind, run_newBuddy,
    Outcome.andThen_ok, pushPieces]
  rcases construct state.environment start (size / 2 ^ k) with ⟨_ | made, environment⟩
  · rfl
  · rfl

/-- One bit.  A bit that is set is at least the block size, so its zone starts aligned. -/
theorem run_addBit (startAligned : start % 2 ^ k = 0) (sizeAligned : size % 2 ^ k = 0)
    (fits : start + size < 2 ^ usizeBits) (bit : Nat) (state : ZoneState B E) :
    run (zoneHandler construct) (addBit (2 ^ k) size (start + size % 2 ^ bit) bit) state =
      Outcome.andThen (pushPieces construct (2 ^ k) (piece start size bit).toList state)
        fun _ after => (.ok (start + size % 2 ^ (bit + 1)), after) := by
  have grown := mod_two_pow_succ size bit
  have atMost := Nat.mod_le size (2 ^ (bit + 1))
  rw [addBit, piece, Nat.one_shiftLeft]
  by_cases set : size.testBit bit = true
  · have large : k ≤ bit := by
      by_contra low
      rw [testBit_of_aligned sizeAligned (Nat.not_le.mp low)] at set
      exact Bool.false_ne_true set
    have divides : 2 ^ k ∣ 2 ^ bit := Nat.pow_dvd_pow 2 large
    have nextAligned : (start + size % 2 ^ bit) % 2 ^ k = 0 := by
      rw [Nat.add_mod, startAligned, Nat.mod_mod_of_dvd size divides, sizeAligned, Nat.zero_mod]
    rw [if_pos set] at grown
    have sum : start + size % 2 ^ bit + 2 ^ bit = start + size % 2 ^ (bit + 1) := by omega
    rw [if_pos ((and_two_pow_ne_zero size bit).mpr set), if_pos set, Option.toList_some,
      Program.run_bind, run_addZone_power construct nextAligned (Nat.mod_eq_zero_of_dvd divides)
        ⟨bit, rfl⟩]
    rcases pushPieces construct (2 ^ k) [⟨start + size % 2 ^ bit, 2 ^ bit⟩] state with
      ⟨_ | error | _, after⟩
    · rw [Outcome.andThen_ok, Outcome.andThen_ok, run_checkedAdd, sum, if_pos (by omega)]
    · rfl
    · rfl
  · rw [if_neg set, Nat.add_zero] at grown
    rw [if_neg (fun masked => set ((and_two_pow_ne_zero size bit).mp masked)), if_neg set,
      Program.run_pure, Option.toList_none, grown]
    rfl

/-- The loop over the bits. -/
theorem run_addBits (startAligned : start % 2 ^ k = 0) (sizeAligned : size % 2 ^ k = 0)
    (fits : start + size < 2 ^ usizeBits) (bits : Nat) (state : ZoneState B E) :
    run (zoneHandler construct)
        (Program.foldEach (List.range bits) (addBit (2 ^ k) size) start) state =
      Outcome.andThen (pushPieces construct (2 ^ k) (piecesBelow start size bits) state)
        fun _ after => (.ok (start + size % 2 ^ bits), after) := by
  induction bits with
  | zero =>
      rw [List.range_zero, Program.run_foldEach_nil, Nat.pow_zero, Nat.mod_one]
      rfl
  | succ bits ih =>
      rw [List.range_succ, Program.run_foldEach_append, ih, piecesBelow_succ, pushPieces_append]
      rcases pushPieces construct (2 ^ k) (piecesBelow start size bits) state with
        ⟨_ | error | _, between⟩
      · rw [Outcome.andThen_ok, Outcome.andThen_ok, Outcome.andThen_ok, Program.run_foldEach_cons,
          run_addBit construct startAligned sizeAligned fits]
        rcases pushPieces construct (2 ^ k) (piece start size bits).toList between with
          ⟨_ | error | _, after⟩
        · rfl
        · rfl
        · rfl
      · rfl
      · rfl

/-- `add_zone` pushes the zones of the split. -/
theorem run_addZone (startAligned : start % 2 ^ k = 0) (sizeAligned : size % 2 ^ k = 0)
    (fits : start + size < 2 ^ usizeBits) (state : ZoneState B E) :
    run (zoneHandler construct) (addZone (2 ^ k) start size) state =
      pushPieces construct (2 ^ k) (pieces start size) state := by
  by_cases power : size.isPowerOfTwo
  · rw [run_addZone_power construct startAligned sizeAligned power]
    obtain ⟨bit, equal⟩ := power
    have bounded : bit < usizeBits := by
      rw [← Nat.pow_lt_pow_iff_right (Nat.one_lt_two), ← equal]
      omega
    rw [pieces, equal, piecesBelow_power, if_pos bounded]
  · have whole : size % 2 ^ usizeBits = size := Nat.mod_eq_of_lt (by omega)
    have loop := run_addBits construct startAligned sizeAligned fits usizeBits state
    rw [addZone, Program.run_bind, run_debugAssert_of construct startAligned,
      Outcome.andThen_ok, Program.run_bind, run_debugAssert_of construct sizeAligned,
      Outcome.andThen_ok, dif_pos power, Program.run_bind]
    simp only [dite_eq_ite]
    change Outcome.andThen (run (zoneHandler construct)
      (Program.foldEach (List.range usizeBits) (addBit (2 ^ k) size) start) state) _ = _
    rw [loop, ← pieces]
    rcases pushPieces construct (2 ^ k) (pieces start size) state with ⟨_ | error | _, after⟩
    · rfl
    · rfl
    · rfl

end Push

/-! ## The range and the total -/

/-- Adding up sizes with overflow checks overflows exactly when the sum does. -/
theorem foldEach_checkedAdd (zones : List Bounds) {acc : Nat} (small : acc < 2 ^ usizeBits) :
    (Program.foldEach zones (fun acc zone => checkedAdd acc zone.size) acc : BuddyM Nat) =
      if acc + (zones.map Bounds.size).sum < 2 ^ usizeBits then
        .ret (acc + (zones.map Bounds.size).sum)
      else .panic := by
  induction zones generalizing acc with
  | nil => exact (if_pos small).symm
  | cons zone rest ih =>
      rw [Program.foldEach, List.map_cons, List.sum_cons, ← Nat.add_assoc, checkedAdd]
      by_cases fits : acc + zone.size < 2 ^ usizeBits
      · rw [if_pos fits, Program.ret_bind, ih fits]
      · rw [if_neg fits, Program.panic_bind, if_neg (by omega)]

theorem totalMemory_eq (zones : List Bounds) :
    ZonedBuddy.totalMemory zones =
      if (zones.map Bounds.size).sum < 2 ^ usizeBits then .ret (zones.map Bounds.size).sum
      else .panic := by
  have summed := foldEach_checkedAdd zones (Nat.two_pow_pos usizeBits)
  rw [Nat.zero_add] at summed
  exact summed

/-- What `total_memory` returns grows by the size of the zones that are appended. -/
theorem totalMemory_append {B : Type} {zones added : List (Zone B)} {start size : Nat}
    (tiles : Tiles Zone.start Zone.size start added (start + size)) :
    ZonedBuddy.totalMemory ((zones ++ added).map Zone.bounds) = (do
      let total ← ZonedBuddy.totalMemory (zones.map Zone.bounds)
      checkedAdd total size) := by
  have sum : (added.map Zone.size).sum = size := by
    have whole := tiles.sum_size
    omega
  have appended : (((zones ++ added).map Zone.bounds).map Bounds.size).sum =
      ((zones.map Zone.bounds).map Bounds.size).sum + size := by
    have sizes : (added.map Zone.bounds).map Bounds.size = added.map Zone.size := by
      rw [List.map_map]
      rfl
    rw [List.map_append, List.map_append, List.sum_append, sizes, sum]
  rw [totalMemory_eq, totalMemory_eq, appended]
  by_cases fits : ((zones.map Zone.bounds).map Bounds.size).sum < 2 ^ usizeBits
  · rw [if_pos fits, Program.ret_bind, checkedAdd]
  · rw [if_neg fits, Program.panic_bind, if_neg (by omega)]

/-- `add_zone` returns, with or without an error.  Where it returns no error, the zones that it
has appended tile the range; otherwise they tile a proper prefix. -/
theorem addZone_tiles_range {B E : Type} (construct : E → Nat → Nat → Option B × E)
    {k start size : Nat} (startAligned : start % 2 ^ k = 0) (sizeAligned : size % 2 ^ k = 0)
    (fits : start + size < 2 ^ usizeBits) (before : ZoneState B E) :
    (∃ after, run (zoneHandler construct) (addZone (2 ^ k) start size) before = (.ok (), after) ∧
      Appends construct (2 ^ k) before after start (start + size) ∧
      ZonedBuddy.totalMemory (after.zones.map Zone.bounds) = (do
        let total ← ZonedBuddy.totalMemory (before.zones.map Zone.bounds)
        checkedAdd total size)) ∨
    ∃ after covered, run (zoneHandler construct) (addZone (2 ^ k) start size) before =
        (.err .allocError, after) ∧ covered < size ∧
      Appends construct (2 ^ k) before after start (start + covered) := by
  have ending := addZone_ending construct startAligned sizeAligned fits before
  generalize run (zoneHandler construct) (addZone (2 ^ k) start size) before = result at ending
  cases ending with
  | covered after appends =>
      obtain ⟨added, zones, tiles, regular⟩ := appends
      refine Or.inl ⟨after, rfl, ⟨added, zones, tiles, regular⟩, ?_⟩
      rw [zones]
      exact totalMemory_append tiles
  | failed after covered less appends _ =>
      exact Or.inr ⟨after, covered, rfl, less, appends⟩

/-- A construction that fails from the second one on. -/
theorem addZone_tiles_range_partly :
    let construct : Nat → Nat → Nat → Option Unit × Nat := fun count _ _ =>
      (if count = 0 then some () else none, count + 1)
    ∃ after, run (zoneHandler construct) (addZone (2 ^ 12) 0x1000 0x3000) ⟨[], 0⟩ =
        (.err .allocError, after) ∧
      ∃ covered < 0x3000, Appends construct (2 ^ 12) ⟨[], 0⟩ after 0x1000 (0x1000 + covered) := by
  intro construct
  have tiled := addZone_tiles_range construct (show 0x1000 % 2 ^ 12 = 0 by decide)
    (show 0x3000 % 2 ^ 12 = 0 by decide) (by decide) ⟨[], 0⟩
  have split : run (zoneHandler construct) (addZone (2 ^ 12) 0x1000 0x3000) ⟨[], 0⟩ =
      (.err .allocError, ⟨[⟨0x1000, 0x1000, 0, ()⟩], 2⟩) := by
    rw [run_addZone construct (by decide) (by decide) (by decide)]
    rfl
  rw [split] at tiled ⊢
  cases tiled with
  | inl whole =>
      obtain ⟨after, returned, -⟩ := whole
      cases returned
  | inr part =>
      obtain ⟨after, covered, failed, less, appends⟩ := part
      exact ⟨after, failed, covered, less, appends⟩

end SatanKernel
