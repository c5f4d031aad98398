import SatanKernel.Memory.ZonedRuns

/-!
# Alignment of allocated pages

A buddy places a block at a multiple of the block's size from the start of its zone.  The
address of a page is then a multiple of the page's size if the zone starts at one.  Since
`add_zone` starts with the zones of the smallest bits, the large zones of a range are
aligned to its end and not to its start.
-/

namespace SatanKernel

open Lib
open Lib.Program (run)

/-! ## Where large zones start -/

/-- A zone of the split starts where the range ends, up to multiples of the zone's size. -/
theorem piece_start_mod {start size bit exponent : Nat} (large : exponent ≤ bit) :
    (start + size % 2 ^ bit) % 2 ^ exponent = (start + size) % 2 ^ exponent := by
  rw [Nat.add_mod, Nat.mod_mod_of_dvd size (Nat.pow_dvd_pow 2 large), ← Nat.add_mod]

/-- A range has a zone for every size up to its own. -/
theorem exists_piece {start size exponent : Nat} (large : 2 ^ exponent ≤ size)
    (fits : size < 2 ^ usizeBits) :
    ∃ bit, exponent ≤ bit ∧ ⟨start + size % 2 ^ bit, 2 ^ bit⟩ ∈ pieces start size := by
  obtain ⟨bit, above, set⟩ := Nat.exists_ge_and_testBit_of_ge_two_pow large
  have below : bit < usizeBits := by
    rw [← Nat.pow_lt_pow_iff_right (Nat.one_lt_two)]
    exact (Nat.ge_two_pow_of_testBit set).trans_lt fits
  exact ⟨bit, above, mem_piecesBelow.mpr ⟨bit, below, set, rfl⟩⟩

/-! ## What the operations leave alone -/

section Frame

variable {B : Type} {blockSize : Nat} {buddy : BuddyAlloc B}

/-- The bounds of a zone and the range of its buddy. -/
def Zone.extents (spec : BuddySpec blockSize buddy) (zone : Zone B) : Bounds × Nat × Nat :=
  (zone.bounds, spec.range zone.buddy)

theorem onZone_extents {α : Type} (spec : BuddySpec blockSize buddy)
    {update : Zone B → α × Zone B}
    (keeps : ∀ zone, (update zone).2.extents spec = zone.extents spec)
    {zones after : List (Zone B)} {index : Nat} {answer : α}
    (handled : onZone zones index update = some (answer, after)) :
    after.map (Zone.extents spec) = zones.map (Zone.extents spec) := by
  rw [onZone, Option.map_eq_some_iff] at handled
  obtain ⟨zone, found, equal⟩ := handled
  rw [Prod.mk.injEq] at equal
  obtain ⟨inside, here⟩ := List.getElem?_eq_some_iff.mp found
  have unchanged : zone.extents spec =
      (zones.map (Zone.extents spec)).get ⟨index, by simpa using inside⟩ := by
    simp [here]
  rw [← equal.2, List.map_set, keeps, unchanged]
  exact List.set_getElem_self _

/-- No operation changes the bounds of a zone or the range of its buddy. -/
theorem buddyHandler_extents (spec : BuddySpec blockSize buddy) (op : BuddyOp)
    (zones : List (Zone B)) (answer : BuddyOp.Answer op) (after : List (Zone B))
    (handled : buddyHandler buddy op zones = some (answer, after)) :
    after.map (Zone.extents spec) = zones.map (Zone.extents spec) := by
  cases op with
  | buddyAlloc index blocks =>
      apply onZone_extents spec _ handled
      intro zone
      exact congrArg (Prod.mk zone.bounds) (spec.alloc_range zone.buddy blocks)
  | buddyFree index addr blocks =>
      apply onZone_extents spec _ handled
      intro zone
      exact congrArg (Prod.mk zone.bounds) (spec.free_range zone.buddy addr blocks)
  | fetchAdd index amount | fetchSub index amount =>
      apply onZone_extents spec _ handled
      intro zone
      rfl
  | load index =>
      apply onZone_extents spec _ handled
      intro zone
      rfl

end Frame

/-! ## The zones after a history -/

section Zones

variable {B E : Type} {construct : E → Nat → Nat → Option B × E} {buddy : BuddyAlloc B} {k : Nat}
  {spec : BuddySpec (2 ^ k) buddy} {ranges : List Bounds} {outstanding : List Block}

/-- The zone is one of the zones that the ranges are split into, and its buddy manages it. -/
def Zone.OfSplit (spec : BuddySpec (2 ^ k) buddy) (ranges : List Bounds) (zone : Zone B) :
    Prop :=
  (∃ range ∈ ranges, zone.bounds ∈ pieces range.start range.size) ∧
    spec.range zone.buddy = (zone.bounds.start, zone.bounds.size / 2 ^ k)

theorem ofSplit_of_extents {zones after : List (Zone B)}
    (before : ∀ zone ∈ zones, zone.OfSplit spec ranges)
    (same : after.map (Zone.extents spec) = zones.map (Zone.extents spec)) :
    ∀ zone ∈ after, zone.OfSplit spec ranges := by
  intro zone member
  have inMap := List.mem_map_of_mem (f := Zone.extents spec) member
  rw [same] at inMap
  obtain ⟨old, oldMember, equal⟩ := List.mem_map.mp inMap
  have split := before old oldMember
  rw [Zone.extents, Zone.extents, Prod.mk.injEq] at equal
  rw [Zone.OfSplit, ← equal.1, ← equal.2]
  exact split

/-- All zones are of the split, after every history. -/
theorem Reached.ofSplit (constructs : Constructs construct spec) {state : ZoneState B E}
    (reached : Reached construct buddy (2 ^ k) ranges outstanding state) :
    ∀ zone ∈ state.zones, zone.OfSplit spec ranges := by
  have unchanged := fun {α : Type} (program : BuddyM α) (zones : List (Zone B)) =>
    Program.run_unchanged (buddyHandler buddy) (fun zones => zones.map (Zone.extents spec))
      (buddyHandler_extents spec) program zones
  induction reached with
  | new environment =>
      intro zone member
      cases member
  | @addZone ranges outstanding state before start size startAligned sizeAligned fits ih =>
      intro zone member
      rw [run_addZone construct startAligned sizeAligned fits] at member
      cases mem_pushPieces construct (2 ^ k) member with
      | inl old =>
          obtain ⟨⟨range, rangeMember, isPiece⟩, managed⟩ := ih zone old
          exact ⟨⟨range, List.mem_cons_of_mem _ rangeMember, isPiece⟩, managed⟩
      | inr new =>
          obtain ⟨environment, made⟩ := new.2
          exact ⟨⟨⟨start, size⟩, List.mem_cons_self, new.1⟩,
            (constructs environment _ _ _ made).1⟩
  | @allocNone ranges outstanding state before size zones whole returned ih =>
      have same := unchanged
        (ZonedBuddy.alloc (2 ^ k) (state.zones.map Zone.bounds) size) state.zones
      rw [returned] at same
      exact ofSplit_of_extents ih same
  | @allocSome ranges outstanding state before size index addr zones whole returned granted ih =>
      have same := unchanged
        (ZonedBuddy.alloc (2 ^ k) (state.zones.map Zone.bounds) size) state.zones
      rw [returned] at same
      exact ofSplit_of_extents ih same
  | @free ranges outstanding state before block zones isOutstanding returned ih =>
      have same := unchanged
        (ZonedBuddy.free (2 ^ k) (state.zones.map Zone.bounds) block.addr block.size) state.zones
      rw [returned] at same
      exact ofSplit_of_extents ih same

end Zones

/-! ## Answers of the zones -/

section Answers

variable {B : Type} {buddy : BuddyAlloc B} {blockSize size : Nat}

/-- An address comes from the buddy of some zone. -/
theorem askZones_some {zones : List (Zone B)} {index addr : Nat}
    (granted : (askZones buddy blockSize size zones).1 = some (index, addr)) :
    ∃ zone ∈ zones, (buddy.alloc zone.buddy (size / blockSize)).1 = some addr := by
  induction zones generalizing index with
  | nil => cases granted
  | cons zone rest ih =>
      rcases answered : buddy.alloc zone.buddy (size / blockSize) with ⟨_ | other, after⟩
      · rw [askZones_cons_none rest answered, Option.map_eq_some_iff] at granted
        obtain ⟨found, foundEq, equal⟩ := granted
        rw [Prod.mk.injEq] at equal
        rw [← Prod.eta found, equal.2] at foundEq
        obtain ⟨granting, member, answer⟩ := ih foundEq
        exact ⟨granting, List.mem_cons_of_mem _ member, answer⟩
      · rw [askZones_cons_some rest answered, Option.some.injEq, Prod.mk.injEq] at granted
        exact ⟨zone, List.mem_cons_self, by rw [answered, granted.2]⟩

/-- Without an address, all buddies have refused. -/
theorem askZones_none {zones : List (Zone B)}
    (refused : (askZones buddy blockSize size zones).1 = none) :
    ∀ zone ∈ zones, (buddy.alloc zone.buddy (size / blockSize)).1 = none := by
  induction zones with
  | nil => exact fun zone member => by cases member
  | cons head rest ih =>
      intro zone member
      rcases answered : buddy.alloc head.buddy (size / blockSize) with ⟨_ | other, after⟩
      · rw [askZones_cons_none rest answered, Option.map_eq_none_iff] at refused
        cases List.mem_cons.mp member with
        | inl equal => rw [equal, answered]
        | inr inRest => exact ih refused zone inRest
      · rw [askZones_cons_some rest answered] at refused
        cases refused

end Answers

/-! ## Natural alignment -/

/-- What is assumed of the places of blocks: a power of two of blocks starts at a multiple
of its size from the start of the range. -/
def PlacesBlocks {B : Type} {blockSize : Nat} {buddy : BuddyAlloc B}
    (spec : BuddySpec blockSize buddy) : Prop :=
  ∀ state count addr, count.isPowerOfTwo → (buddy.alloc state count).1 = some addr →
    ∃ place, addr = (spec.range state).1 + place * count * blockSize

/-- After every history that has added the ranges, with whatever buddies, `alloc` returns
multiples of the size that is asked for. -/
def NaturallyAligned (k : Nat) (ranges : List Bounds) (size : Nat) : Prop :=
  ∀ (B E : Type) (construct : E → Nat → Nat → Option B × E) (buddy : BuddyAlloc B)
    (spec : BuddySpec (2 ^ k) buddy), Constructs construct spec → PlacesBlocks spec →
    ∀ outstanding (state : ZoneState B E),
      Reached construct buddy (2 ^ k) ranges outstanding state →
      ∀ addr zones, run (buddyHandler buddy)
          (ZonedBuddy.alloc (2 ^ k) (state.zones.map Zone.bounds) size) state.zones =
        (.ok (some addr), zones) → addr % size = 0

theorem WholeBlocks.exists_exponent {k size : Nat} (whole : WholeBlocks (2 ^ k) size) :
    ∃ exponent, size = 2 ^ exponent := by
  obtain ⟨blocks, equal⟩ := whole.power
  refine ⟨blocks + k, ?_⟩
  rw [← whole.blocks_mul, equal, Nat.pow_add]

section Aligned

variable {k size : Nat} {ranges : List Bounds}

/-- If the large ranges end at multiples of the size, so do all addresses. -/
theorem naturallyAligned_of_ends (whole : WholeBlocks (2 ^ k) size)
    (ends : ∀ range ∈ ranges, size ≤ range.size → (range.start + range.size) % size = 0) :
    NaturallyAligned k ranges size := by
  intro B E construct buddy spec constructs places outstanding state reached addr zones returned
  rw [run_alloc, Prod.mk.injEq, Outcome.ok.injEq, Option.map_eq_some_iff] at returned
  obtain ⟨⟨⟨index, found⟩, granted, equal⟩, _⟩ := returned
  cases equal
  obtain ⟨zone, member, answer⟩ := askZones_some granted
  obtain ⟨⟨range, rangeMember, isPiece⟩, managed⟩ := reached.ofSplit constructs zone member
  obtain ⟨bit, _, set, bounds⟩ := mem_piecesBelow.mp isPiece
  obtain ⟨place, addrEq⟩ := places _ _ _ whole.power answer
  obtain ⟨exponent, sizeEq⟩ := whole.exists_exponent
  have inside := spec.alloc_inside whole.power (Prod.ext answer rfl)
  rw [managed, bounds] at addrEq inside
  have large : exponent ≤ bit := by
    rw [blockBytes, blockBytes, whole.blocks_mul, Set.Ico_subset_Ico_iff
      (Nat.lt_add_of_pos_right whole.positive)] at inside
    have zoneSize := Nat.div_mul_le_self (2 ^ bit) (2 ^ k)
    rw [← Nat.pow_le_pow_iff_right (Nat.one_lt_two), ← sizeEq]
    dsimp only at inside
    omega
  have atLeast : size ≤ range.size := by
    rw [sizeEq]
    exact (Nat.pow_le_pow_right (by decide) large).trans (Nat.ge_two_pow_of_testBit set)
  have aligned := ends range rangeMember atLeast
  rw [addrEq, Nat.mul_assoc, whole.blocks_mul, Nat.add_mul_mod_self_right]
  rw [sizeEq] at aligned ⊢
  rw [piece_start_mod large, aligned]

/-! ## A history that reaches a zone -/

/-- With buddies that can always be made, `add_zone` pushes all zones of the split. -/
theorem pushPieces_firstFit (list : List Bounds) (state : ZoneState FirstFit Unit) :
    (pushPieces FirstFit.construct (2 ^ k) list state).2.zones = state.zones ++
      list.map fun bounds =>
        ⟨bounds.start, bounds.size, 0, ⟨bounds.start, bounds.size / 2 ^ k, []⟩⟩ := by
  induction list generalizing state with
  | nil => simp [pushPieces]
  | cons bounds rest ih =>
      rw [pushPieces, FirstFit.construct]
      dsimp only
      rw [ih, List.map_cons, List.append_assoc, List.singleton_append]

/-- The ranges can be added one after the other. -/
theorem exists_reached (buddy : BuddyAlloc FirstFit)
    (usable : ∀ range ∈ ranges, range.start % 2 ^ k = 0 ∧ range.size % 2 ^ k = 0 ∧
      range.start + range.size < 2 ^ usizeBits) :
    ∃ state, Reached FirstFit.construct buddy (2 ^ k) ranges [] state ∧
      ∀ range ∈ ranges, ∀ bounds ∈ pieces range.start range.size,
        ⟨bounds.start, bounds.size, 0, ⟨bounds.start, bounds.size / 2 ^ k, []⟩⟩ ∈
          state.zones := by
  induction ranges with
  | nil => exact ⟨_, Reached.new (), fun range member => by cases member⟩
  | cons range rest ih =>
      obtain ⟨state, reached, present⟩ := ih fun other member =>
        usable other (List.mem_cons_of_mem _ member)
      obtain ⟨startAligned, sizeAligned, fits⟩ := usable range List.mem_cons_self
      refine ⟨_, Reached.addZone reached startAligned sizeAligned fits, ?_⟩
      intro other member bounds isPiece
      rw [run_addZone FirstFit.construct startAligned sizeAligned fits, pushPieces_firstFit]
      cases List.mem_cons.mp member with
      | inl equal =>
          apply List.mem_append_right
          rw [equal] at isPiece
          exact List.mem_map_of_mem (f := fun bounds : Bounds => (⟨bounds.start, bounds.size, 0,
            ⟨bounds.start, bounds.size / 2 ^ k, []⟩⟩ : Zone FirstFit)) isPiece
      | inr inRest => exact List.mem_append_left _ (present other inRest bounds isPiece)

/-- A new buddy that serves the start of its range grants a request that fits. -/
theorem FirstFit.alloc_ne_none {blockSize start count blocks : Nat} {serves : Nat → Bool}
    (served : serves start = true) (positive : 0 < blocks) (fits : blocks ≤ count) :
    ((FirstFit.buddy blockSize serves).alloc ⟨start, count, []⟩ blocks).1 ≠ none := by
  intro refused
  rw [FirstFit.buddy] at refused
  dsimp only at refused
  split at refused
  next => cases refused
  next notFound =>
    have rejected := List.find?_eq_none.mp notFound 0
      (List.mem_range.mpr (Nat.div_pos fits positive))
    apply rejected
    rw [FirstFit.address, Nat.zero_mul, Nat.zero_mul, Nat.add_zero, served, Bool.true_and,
      decide_eq_true_eq]
    intro block member
    cases member

theorem FirstFit.placesBlocks (blockSize : Nat) (serves : Nat → Bool) :
    PlacesBlocks (FirstFit.spec blockSize serves) := by
  intro state count addr _ granted
  obtain ⟨place, _, addrEq, _⟩ := FirstFit.exists_place (Prod.ext granted rfl)
  exact ⟨place, addrEq⟩

end Aligned

/-- Allocated pages are naturally aligned exactly if every range that is large enough for
such a page ends at a multiple of the page's size. -/
theorem naturallyAligned_iff {k size : Nat} {ranges : List Bounds}
    (whole : WholeBlocks (2 ^ k) size)
    (usable : ∀ range ∈ ranges, range.start % 2 ^ k = 0 ∧ range.size % 2 ^ k = 0 ∧
      range.start + range.size < 2 ^ usizeBits) :
    NaturallyAligned k ranges size ↔
      ∀ range ∈ ranges, size ≤ range.size → (range.start + range.size) % size = 0 := by
  constructor
  · intro aligned range member large
    by_contra misaligned
    let serves : Nat → Bool := fun addr => decide (addr % size ≠ 0)
    obtain ⟨state, reached, present⟩ := exists_reached (FirstFit.buddy (2 ^ k) serves) usable
    obtain ⟨exponent, sizeEq⟩ := whole.exists_exponent
    obtain ⟨_, _, fits⟩ := usable range member
    obtain ⟨bit, above, isPiece⟩ := exists_piece (sizeEq ▸ large) (show range.size < _ by omega)
    have startServed : serves (range.start + range.size % 2 ^ bit) = true := by
      apply decide_eq_true
      rw [sizeEq] at misaligned ⊢
      rwa [piece_start_mod above]
    have blocksFit : size / 2 ^ k ≤ 2 ^ bit / 2 ^ k := by
      apply Nat.div_le_div_right
      rw [sizeEq]
      exact Nat.pow_le_pow_right (by decide) above
    cases answer : (askZones (FirstFit.buddy (2 ^ k) serves) (2 ^ k) size state.zones).1 with
    | none =>
        exact FirstFit.alloc_ne_none startServed (Nat.pos_of_isPowerOfTwo whole.power) blocksFit
          (askZones_none answer _ (present range member _ isPiece))
    | some found =>
        have returned := run_alloc (FirstFit.buddy (2 ^ k) serves) (2 ^ k) size state.zones
        rw [answer, Option.map_some] at returned
        have multiple := aligned FirstFit Unit FirstFit.construct _ (FirstFit.spec (2 ^ k) serves)
          (FirstFit.constructs _ _) (FirstFit.placesBlocks _ _) [] state reached _ _ returned
        obtain ⟨zone, _, granted⟩ := askZones_some answer
        obtain ⟨_, _, _, served, _⟩ := FirstFit.exists_place (Prod.ext granted rfl)
        exact of_decide_eq_true served multiple
  · exact naturallyAligned_of_ends whole

/-- A range that ends at a multiple of 4 MiB, and one that does not. -/
theorem naturallyAligned_iff_large_page :
    NaturallyAligned 12 [⟨0x1000, 0x7ff000⟩] 0x400000 ∧
    ¬NaturallyAligned 12 [⟨0x1000, 0x401000⟩] 0x400000 := by
  have whole : WholeBlocks (2 ^ 12) 0x400000 := ⟨rfl, 10, rfl⟩
  constructor
  · apply (naturallyAligned_iff whole (by decide)).mpr
    decide
  · intro aligned
    have ends := (naturallyAligned_iff whole (by decide)).mp aligned
    revert ends
    decide

/-- The only place for a 4 MiB page in `0x1000..0x402000` that the split leaves is
`0x2000`. -/
theorem large_page_misaligned : ∃ state zones,
    Constructs FirstFit.construct (FirstFit.spec (2 ^ 12) fun _ => true) ∧
    PlacesBlocks (FirstFit.spec (2 ^ 12) fun _ => true) ∧
    Reached FirstFit.construct (FirstFit.buddy (2 ^ 12) fun _ => true) (2 ^ 12)
      [⟨0x1000, 0x401000⟩] [] state ∧
    run (buddyHandler (FirstFit.buddy (2 ^ 12) fun _ => true))
        (ZonedBuddy.alloc (2 ^ 12) (state.zones.map Zone.bounds) 0x400000) state.zones =
      (.ok (some 0x2000), zones) ∧
    0x2000 % 0x400000 ≠ 0 := by
  have added : Reached FirstFit.construct (FirstFit.buddy (2 ^ 12) fun _ => true) (2 ^ 12)
      [⟨0x1000, 0x401000⟩] []
      (run (zoneHandler FirstFit.construct) (addZone (2 ^ 12) 0x1000 0x401000) ⟨[], ()⟩).2 :=
    Reached.addZone (Reached.new ()) rfl rfl (by decide)
  rw [run_addZone FirstFit.construct rfl rfl (by decide)] at added
  exact ⟨_, _, FirstFit.constructs _ _, FirstFit.placesBlocks _ _, added, rfl, by decide⟩

end SatanKernel
