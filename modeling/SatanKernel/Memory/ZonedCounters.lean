import Mathlib.Algebra.Order.BigOperators.Group.List
import Mathlib.Algebra.Order.Group.Nat
import SatanKernel.Memory.ZonedConcurrent

/-!
# The counters of the zones

`free` gives a block back to the buddy first and lowers the counter of the zone after
that.  In between another call can take the block again and raise the counter, so that the
counter includes the block twice.  With enough calls at that point a counter exceeds the
size of its zone, and wraps around.

When no call is in progress, the counters are exact in any case.
-/

namespace SatanKernel

open Lib
open Lib.Program (run)

/-! ## Sums over the zones -/

/-- A loop that adds up values with overflow checks. -/
theorem run_foldEach_sum {sig : Signature} {ε β σ : Type} (handler : Handler sig σ)
    (items : List β) (body : Nat → β → Program sig ε Nat) (value : β → Nat) (state : σ)
    (adds : ∀ item ∈ items, ∀ acc, acc + value item < 2 ^ usizeBits →
      run handler (body acc item) state = (.ok (acc + value item), state))
    (acc : Nat) (fits : acc + (items.map value).sum < 2 ^ usizeBits) :
    run handler (Program.foldEach items body acc) state =
      (.ok (acc + (items.map value).sum), state) := by
  induction items generalizing acc with
  | nil => rfl
  | cons item rest ih =>
      rw [List.map_cons, List.sum_cons, ← Nat.add_assoc] at fits ⊢
      rw [Program.run_foldEach_cons, adds item List.mem_cons_self acc (by omega),
        Outcome.andThen_ok]
      exact ih (fun other member => adds other (List.mem_cons_of_mem _ member)) _ fits

section Sums

variable {B : Type} {blockSize : Nat} {buddy : BuddyAlloc B} {ranges : List Bounds}
  {zones : List (Zone B)}

/-- Disjoint zones of the address space have less than `2 ^ usizeBits` bytes in all. -/
theorem Layout.sum_size_lt {zones : List Bounds} (layout : Layout blockSize ranges zones) :
    (zones.map Bounds.size).sum < 2 ^ usizeBits := by
  have bound := sum_size_le 0 (2 ^ usizeBits - 1) layout.apart
    fun zone member => Set.Ico_subset_Ico (Nat.zero_le _)
      (Nat.le_sub_one_of_lt (layout.fits zone member))
  have positive := Nat.two_pow_pos usizeBits
  omega

/-- `total_memory` returns the sum of the sizes. -/
theorem run_totalMemory (layout : Layout blockSize ranges (zones.map Zone.bounds)) :
    run (buddyHandler buddy) (ZonedBuddy.totalMemory (zones.map Zone.bounds)) zones =
      (.ok (zones.map Zone.size).sum, zones) := by
  have fits := layout.sum_size_lt
  rw [List.map_map] at fits
  have summed := run_foldEach_sum (ε := Empty) (buddyHandler buddy) (zones.map Zone.bounds)
    (fun acc zone => checkedAdd acc zone.size) Bounds.size zones
    (fun item _ acc small => by rw [run_checkedAdd, if_pos small]) 0
    (by rw [Nat.zero_add, List.map_map]; exact fits)
  rw [Nat.zero_add, List.map_map] at summed
  exact summed

/-- `allocated_memory` returns the sum of the counters. -/
theorem run_allocatedMemory (fits : (zones.map Zone.allocated).sum < 2 ^ usizeBits) :
    run (buddyHandler buddy) (ZonedBuddy.allocatedMemory (zones.map Zone.bounds)) zones =
      (.ok (zones.map Zone.allocated).sum, zones) := by
  have values : (List.range zones.length).map (fun index =>
      (zones[index]?.map Zone.allocated).getD 0) = zones.map Zone.allocated := by
    apply List.ext_getElem
    · simp
    · intro index inRange inside
      rw [List.length_map] at inside
      simp [List.getElem?_eq_getElem inside]
  have summed := run_foldEach_sum (ε := Empty) (buddyHandler buddy) (List.range zones.length)
    (fun acc zone => do
      let value ← ZonedBuddy.load zone
      checkedAdd acc value)
    (fun index => (zones[index]?.map Zone.allocated).getD 0) zones
    (by
      intro index inRange acc small
      have found := List.getElem?_eq_getElem (List.mem_range.mp inRange)
      rw [found, Option.map_some, Option.getD_some] at small ⊢
      rw [Program.run_bind, ZonedBuddy.load, Program.run_call_some _ (onZone_of_get found _),
        Program.run_ret, Outcome.andThen_ok, List.set_getElem_self, run_checkedAdd, if_pos small])
    0 (by rw [values, Nat.zero_add]; exact fits)
  rw [values, Nat.zero_add] at summed
  rw [ZonedBuddy.allocatedMemory, List.length_map]
  exact summed

/-- Disjoint blocks of a zone are together at most as large as the zone. -/
theorem sizeAt_le {blocks : List Block} {index : Nat} {bounds : Bounds}
    (apart : blocks.Pairwise fun left right => Disjoint left.bytes right.bytes)
    (inside : ∀ block ∈ blocks, block.zone = index →
      ZonedBuddy.Holds block.addr block.size bounds) :
    sizeAt index blocks ≤ bounds.size := by
  have bound := sum_size_le bounds.start (bounds.start + bounds.size)
    (apart.filter (·.zone = index)) fun block member => Block.bytes_subset
      (inside block (List.mem_filter.mp member).1 (of_decide_eq_true (List.mem_filter.mp member).2))
  rwa [Nat.add_sub_cancel_left] at bound

theorem sizeAt_append (index : Nat) (blocks others : List Block) :
    sizeAt index (blocks ++ others) = sizeAt index blocks + sizeAt index others := by
  rw [sizeAt, List.filter_append, List.map_append, List.sum_append, sizeAt, sizeAt]

/-- Every block is counted for one zone. -/
theorem sum_sizeAt {blocks : List Block} {count : Nat}
    (inside : ∀ block ∈ blocks, block.zone < count) :
    ((List.range count).map fun index => sizeAt index blocks).sum =
      (blocks.map Block.size).sum := by
  induction blocks with
  | nil => simp [sizeAt]
  | cons block rest ih =>
      have split : ∀ index, sizeAt index (block :: rest) =
          (if index = block.zone then block.size else 0) + sizeAt index rest := by
        intro index
        by_cases here : index = block.zone
        · rw [if_pos here, here, sizeAt_cons_self]
        · rw [if_neg here, sizeAt_cons_of_ne (Ne.symm here), Nat.zero_add]
      have once : ((List.range count).map fun index =>
          if index = block.zone then block.size else 0).sum = block.size := by
        have member := List.mem_range.mpr (inside block List.mem_cons_self)
        rw [List.sum_map_eq_nsmul_single block.zone _ fun other different _ => if_neg different,
          List.count_eq_one_of_mem List.nodup_range member, if_pos rfl, one_nsmul]
      simp only [split]
      rw [List.sum_map_add, once,
        ih fun other member => inside other (List.mem_cons_of_mem _ member), List.map_cons,
        List.sum_cons]

end Sums

/-- A `fetch_add` that is performed does not overflow. -/
def Allocator.AddFits {B : Type} (allocator : Allocator B) (event : Event) : Prop :=
  ∀ index call position amount zone, event = .step index →
    allocator.calls[index]? = some call → call.pending = some (.fetchAdd position amount) →
    allocator.zones[position]? = some zone → zone.allocated + amount < 2 ^ usizeBits

/-- A buddy does not hand out memory of a block that a call of `free` has given back to it
but not yet subtracted from the counter. -/
def Allocator.NotReused {B : Type} (buddy : BuddyAlloc B) (blockSize : Nat)
    (allocator : Allocator B) (event : Event) : Prop :=
  ∀ index call position blocks zone addr, event = .step index →
    allocator.calls[index]? = some call → call.pending = some (.buddyAlloc position blocks) →
    allocator.zones[position]? = some zone →
    (buddy.alloc zone.buddy blocks).1 = some addr →
    ∀ freedAddr freedSize program freedZone,
      .free freedAddr freedSize program ∈ allocator.calls →
      program.pending = some (.fetchSub freedZone freedSize) →
      Disjoint (blockBytes blockSize (addr, blocks))
        (Set.Ico freedAddr (freedAddr + freedSize))

/-- One zone, that is as large as the blocks that are taken from it. -/
def oneBlockZone (size : Nat) : List (Zone FirstFit) :=
  [⟨0x1000, size, 0, ⟨0x1000, size / 0x1000, []⟩⟩]

theorem oneBlockZone_new {size : Nat} (fits : 0x1000 + size < 2 ^ usizeBits)
    (aligned : size % 0x1000 = 0) :
    NewZones (FirstFit.spec 0x1000 fun _ => true) (oneBlockZone size) where
  fits := by
    intro zone member
    rw [List.mem_singleton.mp member]
    exact fits
  aligned := by
    intro zone member
    rw [List.mem_singleton.mp member]
    exact aligned
  apart := List.pairwise_singleton _ _
  unused := by
    intro zone member
    rw [List.mem_singleton.mp member]
  range := by
    intro zone member
    rw [List.mem_singleton.mp member]
    rfl
  empty := by
    intro zone member
    rw [List.mem_singleton.mp member]
    rfl

/-- The block is taken again between the two operations of its `free`. -/
def retakeEvents (size : Nat) : List Event :=
  [.alloc size, .step 0, .step 0, .finish 0, .free 0, .step 0, .alloc size, .step 1, .step 1]

/-! ## Quiet states -/

section Ledgers

variable {B : Type} {blockSize : Nat} {buddy : BuddyAlloc B} {spec : BuddySpec blockSize buddy}
  {ranges : List Bounds} {ledger after : Ledger B} {event : Event}

namespace Ledger

/-- Blocks on record fit into the zone that they are from. -/
theorem Sound.sizeAt_le (sound : Sound spec ranges ledger) {index : Nat} {zone : Zone B}
    (found : ledger.zones[index]? = some zone) :
    sizeAt index (gather Stage.recorded ledger.stages ledger.held) ≤ zone.size := by
  change _ ≤ zone.bounds.size
  apply SatanKernel.sizeAt_le sound.books.apart
  intro block member here
  obtain ⟨bounds, position, holds⟩ := sound.books.inside block member
  rw [List.getElem?_map, here, found] at position
  cases position
  exact holds

theorem Sound.size_lt (sound : Sound spec ranges ledger) {index : Nat} {zone : Zone B}
    (found : ledger.zones[index]? = some zone) : zone.size < 2 ^ usizeBits := by
  have fits := sound.layout.fits zone.bounds
    (List.mem_map_of_mem (List.mem_of_getElem? found))
  change zone.start + zone.size < 2 ^ usizeBits at fits
  omega

/-- With no call in progress, the counters add up to the blocks that are held. -/
theorem Sound.quiet (sound : Sound spec ranges ledger) (quiet : ledger.stages = []) :
    run (buddyHandler buddy) (ZonedBuddy.allocatedMemory (ledger.zones.map Zone.bounds))
        ledger.zones =
      (.ok (ledger.held.map Block.size).sum, ledger.zones) := by
  have recorded : gather Stage.recorded ledger.stages ledger.held = ledger.held := by
    rw [quiet]
    rfl
  have counted : gather Stage.counted ledger.stages ledger.held = ledger.held := by
    rw [quiet]
    rfl
  have books := sound.books
  rw [recorded] at books
  have located : ∀ block ∈ ledger.held, block.zone < ledger.zones.length := by
    intro block member
    obtain ⟨bounds, position, _⟩ := books.inside block member
    obtain ⟨inside, _⟩ := List.getElem?_eq_some_iff.mp position
    rwa [List.length_map] at inside
  have exact : ledger.zones.map Zone.allocated =
      (List.range ledger.zones.length).map fun index => sizeAt index ledger.held := by
    apply List.ext_getElem
    · simp
    · intro index inside inRange
      rw [List.length_map] at inside
      have found := List.getElem?_eq_getElem inside
      have counter := sound.counters index _ found
      have bound := sound.sizeAt_le found
      rw [recorded] at bound
      rw [counted, Nat.mod_eq_of_lt (bound.trans_lt (sound.size_lt found))] at counter
      rw [List.getElem_map, List.getElem_map, List.getElem_range, counter]
  have total : (ledger.zones.map Zone.allocated).sum = (ledger.held.map Block.size).sum := by
    rw [exact, sum_sizeAt located]
  have fits : (ledger.held.map Block.size).sum ≤ 2 ^ usizeBits - 1 := by
    apply sum_size_le 0 _ books.apart
    intro block member
    obtain ⟨bounds, position, holds⟩ := books.inside block member
    have zoneFits := sound.layout.fits bounds (List.mem_of_getElem? position)
    exact (Block.bytes_subset holds).trans
      (Set.Ico_subset_Ico (Nat.zero_le _) (Nat.le_sub_one_of_lt zoneFits))
  have positive := Nat.two_pow_pos usizeBits
  rw [run_allocatedMemory (by omega), total]

/-! ## Counters that do not wrap around -/

/-- No counter has wrapped around. -/
def Small (ledger : Ledger B) : Prop :=
  ∀ index, sizeAt index (gather Stage.counted ledger.stages ledger.held) < 2 ^ usizeBits

/-- The counter of a zone, if it has not wrapped around. -/
theorem Sound.allocated_eq (sound : Sound spec ranges ledger) (small : Small ledger)
    {index : Nat} {zone : Zone B} (found : ledger.zones[index]? = some zone) :
    zone.allocated = sizeAt index (gather Stage.counted ledger.stages ledger.held) := by
  rw [sound.counters index zone found, Nat.mod_eq_of_lt (small index)]

/-- A call that goes on without more blocks in the counters. -/
theorem Small.change (small : Small ledger) {index : Nat} {current next : Stage}
    (stage : ledger.stages[index]? = some current)
    (fewer : next.counted = current.counted ∨ next.counted = []) (zones : List (Zone B)) :
    Small { ledger with zones, stages := ledger.stages.set index next } := by
  intro position
  have before := sizeAt_perm position (gather_found Stage.counted stage ledger.held)
  have later := sizeAt_perm position (gather_set Stage.counted stage next ledger.held)
  have bound := small position
  cases fewer with
  | inl same =>
      rw [same, ← before] at later
      exact later.trans_lt bound
  | inr nothing =>
      rw [nothing, List.nil_append] at later
      rw [sizeAt_append] at before
      exact later.trans_lt (by omega)

/-- A call begins or returns with the same blocks in the counters. -/
theorem Small.reorder (small : Small ledger)
    (same : (gather Stage.counted after.stages after.held).Perm
      (gather Stage.counted ledger.stages ledger.held)) : Small after := by
  intro position
  rw [sizeAt_perm position same]
  exact small position

/-- An event keeps the counters from wrapping around, if an addition fits. -/
theorem Small.step (sound : Sound spec ranges ledger) (small : Small ledger)
    (fits : (ledger.allocator blockSize).AddFits event)
    (step : Step buddy blockSize ledger event after) : Small after := by
  cases step with
  | alloc whole => exact small.reorder (.of_eq (gather_append _ _ _ rfl))
  | free isHeld => exact small.reorder (gather_begin _ isHeld rfl)
  | refuse stage found answered =>
      apply small.change stage
      exact Or.inl rfl
  | grant stage found answered =>
      apply small.change stage
      exact Or.inl rfl
  | @add index block zone stage found =>
      intro position
      have before := sizeAt_perm position (gather_found Stage.counted stage ledger.held)
      rw [sizeAt_perm position (gather_set Stage.counted stage (.granted block) ledger.held)]
      change sizeAt position (block :: gather Stage.counted _ _) < _
      by_cases here : block.zone = position
      · have call : (ledger.allocator blockSize).calls[index]? =
            some ((Stage.adding block).call blockSize) := by
          change (ledger.stages.map _)[index]? = _
          rw [List.getElem?_map, stage, Option.map_some]
        have sum := fits index _ block.zone block.size zone rfl call rfl found
        rw [sound.allocated_eq small found, here, before] at sum
        rw [← here, sizeAt_cons_self, Nat.add_comm, here]
        exact sum
      · rw [sizeAt_cons_of_ne here]
        exact before ▸ small position
  | giveBack stage found =>
      apply small.change stage
      exact Or.inl rfl
  | subtract stage found =>
      apply small.change stage
      exact Or.inr rfl
  | idle found ended => exact small
  | returnNone stage => exact small.reorder (gather_erase _ stage rfl _)
  | returnSome stage => exact small.reorder (gather_return _ stage rfl _)
  | returnFreed stage => exact small.reorder (gather_erase _ stage rfl _)

/-- A call at `fetch_sub` finds the size of its block in the counter. -/
theorem Sound.subtract_le (sound : Sound spec ranges ledger) (small : Small ledger)
    {stage : Stage} (member : stage ∈ ledger.stages) {index amount : Nat}
    (pending : (stage.call blockSize).pending = some (.fetchSub index amount)) :
    ∃ zone, ledger.zones[index]? = some zone ∧ amount ≤ zone.allocated := by
  cases stage with
  | searching size zones =>
      cases zones with
      | nil => cases pending
      | cons position rest =>
          rw [Stage.call, ZonedBuddy.firstSome_cons] at pending
          cases pending
  | adding block | freeing block => cases pending
  | granted block | freed block => cases pending
  | subtracting block =>
      cases pending
      obtain ⟨bounds, position, _⟩ := sound.placed _ member
      rw [List.getElem?_map, Option.map_eq_some_iff] at position
      obtain ⟨zone, found, _⟩ := position
      obtain ⟨place, stageFound⟩ := List.mem_iff_getElem?.mp member
      refine ⟨zone, found, ?_⟩
      rw [sound.allocated_eq small found,
        sizeAt_perm block.zone (gather_found Stage.counted stageFound ledger.held)]
      change _ ≤ sizeAt block.zone (block :: gather Stage.counted _ _)
      rw [sizeAt_cons_self]
      exact Nat.le_add_right _ _

end Ledger

/-- The counters are exact whenever no call is in progress, and no `fetch_sub` takes a
counter below zero in a run in which no `fetch_add` overflows. -/
theorem counters_exact {zones : List (Zone B)} (new : NewZones spec zones)
    {events : List Event} {result : Allocator B}
    (ran : (Allocator.mk zones [] []).run buddy blockSize events = some result) :
    ((Allocator.mk zones [] []).Meets buddy blockSize Allocator.AddFits events →
      ∀ call ∈ result.calls, ∀ index amount, call.pending = some (.fetchSub index amount) →
        ∃ zone, result.zones[index]? = some zone ∧ amount ≤ zone.allocated) ∧
    (result.calls = [] →
      run (buddyHandler buddy) (ZonedBuddy.allocatedMemory (result.zones.map Zone.bounds))
          result.zones =
        (.ok (result.held.map Prod.snd).sum, result.zones)) := by
  have begin : Allocator.mk zones [] [] = (Ledger.mk zones [] []).allocator blockSize := rfl
  rw [begin] at ran ⊢
  constructor
  · intro meets call member index amount pending
    have none : (Ledger.mk zones [] []).Small := fun _ => Nat.two_pow_pos usizeBits
    obtain ⟨after, equal, sound, small⟩ := Ledger.run_invariant Allocator.AddFits Ledger.Small
      (fun ledger event after sound small fits step => small.step sound fits step)
      new.sound none meets ran
    subst equal
    obtain ⟨stage, stageMember, callEq⟩ := List.mem_map.mp member
    rw [← callEq] at pending
    exact sound.subtract_le small stageMember pending
  · intro quiet
    obtain ⟨after, equal, sound⟩ := Ledger.run_sound new.sound ran
    subst equal
    have total := sound.quiet (List.map_eq_nil_iff.mp quiet)
    have sizes : (after.allocator blockSize).held.map Prod.snd = after.held.map Block.size := by
      change (after.held.map _).map Prod.snd = _
      rw [List.map_map]
      rfl
    rw [sizes]
    exact total

/-- A block of one page is given back, and the counter still includes it. -/
theorem counters_exact_given_back :
    ∃ result, (Allocator.mk (oneBlockZone 0x1000) [] []).run
        (FirstFit.buddy 0x1000 fun _ => true) 0x1000
        [.alloc 0x1000, .step 0, .step 0, .finish 0, .free 0, .step 0] = some result ∧
      ∀ call ∈ result.calls, ∀ index amount, call.pending = some (.fetchSub index amount) →
        ∃ zone, result.zones[index]? = some zone ∧ amount ≤ zone.allocated := by
  have new : NewZones (FirstFit.spec 0x1000 fun _ => true) (oneBlockZone 0x1000) :=
    oneBlockZone_new (by decide) rfl
  obtain ⟨result, ran⟩ : ∃ result, (Allocator.mk (oneBlockZone 0x1000) [] []).run
      (FirstFit.buddy 0x1000 fun _ => true) 0x1000
      [.alloc 0x1000, .step 0, .step 0, .finish 0, .free 0, .step 0] = some result := ⟨_, rfl⟩
  refine ⟨result, ran, (counters_exact new ran).1 ?_⟩
  have noStep : ∀ (allocator : Allocator FirstFit) (event : Event),
      (∀ index, event ≠ .step index) → allocator.AddFits event :=
    fun _ _ notStep index _ _ _ _ isStep => (notStep index isStep).elim
  refine Allocator.meets_cons (noStep _ _ (by simp)) rfl ?_
  refine Allocator.meets_cons ?_ rfl ?_
  · intro index call position amount zone isStep found pending
    cases isStep
    cases found
    cases pending
  refine Allocator.meets_cons ?_ rfl ?_
  · intro index call position amount zone isStep found pending zoneFound
    cases isStep
    cases found
    cases pending
    cases zoneFound
    decide
  refine Allocator.meets_cons (noStep _ _ (by simp)) rfl ?_
  refine Allocator.meets_cons (noStep _ _ (by simp)) rfl ?_
  refine Allocator.meets_cons ?_ rfl trivial
  intro index call position amount zone isStep found pending
  cases isStep
  cases found
  cases pending

/-- The counter of a zone of 2 GiB wraps around, and is less than what the pending
`fetch_sub` takes from it. -/
theorem counter_wraps_around :
    NewZones (FirstFit.spec 0x1000 fun _ => true) (oneBlockZone 0x80000000) ∧
    ∃ result, (Allocator.mk (oneBlockZone 0x80000000) [] []).run
        (FirstFit.buddy 0x1000 fun _ => true) 0x1000 (retakeEvents 0x80000000) = some result ∧
      (∃ call ∈ result.calls, call.pending = some (.fetchSub 0 0x80000000)) ∧
      result.zones.map Zone.allocated = [0] :=
  ⟨oneBlockZone_new (by decide) rfl, _, rfl, ⟨_, List.mem_cons_self, rfl⟩, rfl⟩

/-! ## Counters that stay within their zones -/

namespace Ledger

/-- The blocks that are on record or counted do not overlap. -/
def Spread (ledger : Ledger B) : Prop :=
  (gather Stage.either ledger.stages ledger.held).Pairwise fun left right =>
    Disjoint left.bytes right.bytes

theorem pairwise_of_perm {blocks others : List Block}
    (apart : blocks.Pairwise fun left right => Disjoint left.bytes right.bytes)
    (same : blocks.Perm others) :
    others.Pairwise fun left right => Disjoint left.bytes right.bytes := by
  apply (same.pairwise_iff _).mp apart
  intro left right disjoint
  exact disjoint.symm

/-- A block that is counted but not on record belongs to a call at `fetch_sub`. -/
theorem mem_recorded_or_subtracting {block : Block}
    (member : block ∈ gather Stage.either ledger.stages ledger.held) :
    block ∈ gather Stage.recorded ledger.stages ledger.held ∨
      Stage.subtracting block ∈ ledger.stages := by
  cases List.mem_append.mp member with
  | inr isHeld => exact Or.inl (List.mem_append_right _ isHeld)
  | inl ofCall =>
      obtain ⟨stage, stageMember, blockMember⟩ := List.mem_flatMap.mp ofCall
      have onRecord : block ∈ stage.recorded →
          block ∈ gather Stage.recorded ledger.stages ledger.held := fun here =>
        List.mem_append_left _ (List.mem_flatMap.mpr ⟨stage, stageMember, here⟩)
      cases stage with
      | searching size zones => cases blockMember
      | adding other | granted other | freeing other => exact Or.inl (onRecord blockMember)
      | subtracting other =>
          rw [List.mem_singleton.mp blockMember]
          exact Or.inr stageMember
      | freed other => cases blockMember

theorem Sound.either_inside (sound : Sound spec ranges ledger) {block : Block}
    (member : block ∈ gather Stage.either ledger.stages ledger.held) :
    ∃ bounds, (ledger.zones.map Zone.bounds)[block.zone]? = some bounds ∧
      ZonedBuddy.Holds block.addr block.size bounds := by
  cases mem_recorded_or_subtracting member with
  | inl onRecord => exact sound.books.inside block onRecord
  | inr subtracting => exact sound.placed _ subtracting

theorem sizeAt_counted_le (index : Nat) (stages : List Stage) (held : List Block) :
    sizeAt index (gather Stage.counted stages held) ≤
      sizeAt index (gather Stage.either stages held) := by
  induction stages with
  | nil => exact Nat.le_refl _
  | cons stage rest ih =>
      rw [gather, gather, List.flatMap_cons, List.flatMap_cons, List.append_assoc,
        List.append_assoc, sizeAt_append index stage.counted, sizeAt_append index stage.either]
      apply Nat.add_le_add _ ih
      cases stage with
      | searching size zones => exact Nat.le_refl _
      | adding block => exact Nat.zero_le _
      | granted block | freeing block | subtracting block | freed block => exact Nat.le_refl _

/-- Counters are within their zones as long as the blocks do not overlap. -/
theorem Sound.allocated_le (sound : Sound spec ranges ledger) (spread : Spread ledger)
    {zone : Zone B} (member : zone ∈ ledger.zones) : zone.allocated ≤ zone.size := by
  obtain ⟨index, found⟩ := List.mem_iff_getElem?.mp member
  have inside : sizeAt index (gather Stage.either ledger.stages ledger.held) ≤
      zone.bounds.size := by
    apply SatanKernel.sizeAt_le spread
    intro block blockMember here
    obtain ⟨bounds, position, holds⟩ := sound.either_inside blockMember
    rw [List.getElem?_map, here, found] at position
    cases position
    exact holds
  calc
    zone.allocated = sizeAt index (gather Stage.counted ledger.stages ledger.held) %
        2 ^ usizeBits := sound.counters index zone found
    _ ≤ sizeAt index (gather Stage.counted ledger.stages ledger.held) := Nat.mod_le _ _
    _ ≤ sizeAt index (gather Stage.either ledger.stages ledger.held) :=
        sizeAt_counted_le index _ _
    _ ≤ zone.size := inside

/-- A call that goes on without a new block. -/
theorem Spread.change (spread : Spread ledger) {index : Nat} {current next : Stage}
    (stage : ledger.stages[index]? = some current)
    (fewer : next.either = current.either ∨ next.either = []) (zones : List (Zone B)) :
    Spread { ledger with zones, stages := ledger.stages.set index next } := by
  have before := pairwise_of_perm spread (gather_found Stage.either stage ledger.held)
  apply pairwise_of_perm _ (gather_set Stage.either stage next ledger.held).symm
  cases fewer with
  | inl same => exact same ▸ before
  | inr nothing =>
      rw [nothing, List.nil_append]
      exact (List.pairwise_append.mp before).2.1

/-- A new block does not overlap with the blocks on record, and if it is not of memory
whose `fetch_sub` is still to come, with none of the others. -/
theorem Spread.grant (sound : Sound spec ranges ledger) (spread : Spread ledger)
    {index size position addr : Nat} {rest : List Nat} {zone : Zone B} {made : B}
    (stage : ledger.stages[index]? = some (.searching size (position :: rest)))
    (found : ledger.zones[position]? = some zone)
    (answered : buddy.alloc zone.buddy (size / blockSize) = (some addr, made))
    (fresh : (ledger.allocator blockSize).NotReused buddy blockSize (.step index)) :
    Spread { ledger with
      zones := ledger.zones.set position { zone with buddy := made }
      stages := ledger.stages.set index (.adding ⟨position, addr, size⟩) } := by
  have searching := sound.placed _ (List.mem_of_getElem? stage)
  have before := pairwise_of_perm spread (gather_found Stage.either stage ledger.held)
  have books := sound.books.handOut sound.layout found searching.1 answered
  have newApart := (List.pairwise_cons.mp books.apart).1
  have bytes : blockBytes blockSize (addr, size / blockSize) =
      Block.bytes ⟨position, addr, size⟩ :=
    @Block.blockBytes_entry _ ⟨position, addr, size⟩ searching.1
  have call : (ledger.allocator blockSize).calls[index]? =
      some ((Stage.searching size (position :: rest)).call blockSize) := by
    change (ledger.stages.map _)[index]? = _
    rw [List.getElem?_map, stage, Option.map_some]
  have pending : ((Stage.searching size (position :: rest)).call blockSize).pending =
      some (.buddyAlloc position (size / blockSize)) := by
    rw [Stage.call, ZonedBuddy.firstSome_cons]
    rfl
  have granted : (buddy.alloc zone.buddy (size / blockSize)).1 = some addr := by
    rw [answered]
  apply pairwise_of_perm _ (gather_set Stage.either stage (.adding ⟨position, addr, size⟩)
    ledger.held).symm
  apply List.Pairwise.cons _ before
  intro block member
  have inGather := (gather_found Stage.either stage ledger.held).mem_iff.mpr member
  cases mem_recorded_or_subtracting inGather with
  | inl onRecord => exact newApart block onRecord
  | inr subtracting =>
      have callMember := List.mem_map_of_mem (f := Stage.call blockSize) subtracting
      have apart := fresh index _ position _ zone addr rfl call pending found granted
        block.addr block.size _ block.zone callMember rfl
      rw [bytes] at apart
      exact apart

/-- An event keeps the blocks apart, if it does not hand out memory whose `fetch_sub` is
still to come. -/
theorem Spread.step (sound : Sound spec ranges ledger) (spread : Spread ledger)
    (fresh : (ledger.allocator blockSize).NotReused buddy blockSize event)
    (step : Step buddy blockSize ledger event after) : Spread after := by
  cases step with
  | alloc whole =>
      rw [Spread, gather_append _ _ _ rfl]
      exact spread
  | free isHeld => exact pairwise_of_perm spread (gather_begin Stage.either isHeld rfl).symm
  | refuse stage found answered =>
      apply spread.change stage
      exact Or.inl rfl
  | grant stage found answered => exact spread.grant sound stage found answered fresh
  | add stage found =>
      apply spread.change stage
      exact Or.inl rfl
  | giveBack stage found =>
      apply spread.change stage
      exact Or.inl rfl
  | subtract stage found =>
      apply spread.change stage
      exact Or.inr rfl
  | idle found ended => exact spread
  | returnNone stage =>
      exact pairwise_of_perm spread (gather_erase Stage.either stage rfl ledger.held).symm
  | returnSome stage =>
      exact pairwise_of_perm spread (gather_return Stage.either stage rfl ledger.held).symm
  | returnFreed stage =>
      exact pairwise_of_perm spread (gather_erase Stage.either stage rfl ledger.held).symm

end Ledger

/-- In a run in which no buddy hands out memory that a call of `free` has given back and
not subtracted yet, the counters never add up to more than `total_memory` returns. -/
theorem allocated_le_total {zones : List (Zone B)} (new : NewZones spec zones)
    {events : List Event} {result : Allocator B}
    (ran : (Allocator.mk zones [] []).run buddy blockSize events = some result)
    (meets : (Allocator.mk zones [] []).Meets buddy blockSize
      (fun allocator event => allocator.NotReused buddy blockSize event) events) :
    ∃ total, run (buddyHandler buddy) (ZonedBuddy.totalMemory (result.zones.map Zone.bounds))
        result.zones = (.ok total, result.zones) ∧
      (result.zones.map Zone.allocated).sum ≤ total := by
  have begin : Allocator.mk zones [] [] = (Ledger.mk zones [] []).allocator blockSize := rfl
  rw [begin] at ran meets
  have none : (Ledger.mk zones [] []).Spread := List.Pairwise.nil
  obtain ⟨after, equal, sound, spread⟩ := Ledger.run_invariant _ Ledger.Spread
    (fun ledger event after sound spread fresh step => spread.step sound fresh step)
    new.sound none meets ran
  subst equal
  refine ⟨_, run_totalMemory sound.layout, ?_⟩
  apply List.sum_le_sum
  intro zone member
  exact sound.allocated_le spread member

/-- The only block of a zone is taken. -/
theorem allocated_le_total_taken :
    ∃ result, (Allocator.mk (oneBlockZone 0x1000) [] []).run
        (FirstFit.buddy 0x1000 fun _ => true) 0x1000
        [.alloc 0x1000, .step 0, .step 0] = some result ∧
      ∃ total, run (buddyHandler (FirstFit.buddy 0x1000 fun _ => true))
          (ZonedBuddy.totalMemory (result.zones.map Zone.bounds)) result.zones =
          (.ok total, result.zones) ∧
        (result.zones.map Zone.allocated).sum ≤ total := by
  have new : NewZones (FirstFit.spec 0x1000 fun _ => true) (oneBlockZone 0x1000) :=
    oneBlockZone_new (by decide) rfl
  obtain ⟨result, ran⟩ : ∃ result, (Allocator.mk (oneBlockZone 0x1000) [] []).run
      (FirstFit.buddy 0x1000 fun _ => true) 0x1000 [.alloc 0x1000, .step 0, .step 0] =
        some result := ⟨_, rfl⟩
  refine ⟨result, ran, allocated_le_total new ran ?_⟩
  refine Allocator.meets_cons ?_ rfl ?_
  · intro index call position blocks zone addr isStep
    cases isStep
  refine Allocator.meets_cons ?_ rfl ?_
  · intro index call position blocks zone addr isStep found pending zoneFound granted
      freedAddr freedSize program freedZone member
    cases List.mem_singleton.mp member
  refine Allocator.meets_cons ?_ rfl trivial
  intro index call position blocks zone addr isStep found pending
  cases isStep
  cases found
  cases pending

/-- The only block of a zone is counted twice. -/
theorem counter_exceeds_total :
    NewZones (FirstFit.spec 0x1000 fun _ => true) (oneBlockZone 0x1000) ∧
    ∃ result, (Allocator.mk (oneBlockZone 0x1000) [] []).run
        (FirstFit.buddy 0x1000 fun _ => true) 0x1000 (retakeEvents 0x1000) = some result ∧
      run (buddyHandler (FirstFit.buddy 0x1000 fun _ => true))
          (ZonedBuddy.totalMemory (result.zones.map Zone.bounds)) result.zones =
        (.ok 0x1000, result.zones) ∧
      (result.zones.map Zone.allocated).sum = 0x2000 :=
  ⟨oneBlockZone_new (by decide) rfl, _, rfl, rfl, rfl⟩

end Ledgers

end SatanKernel
