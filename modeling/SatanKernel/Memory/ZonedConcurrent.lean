import Mathlib.Algebra.BigOperators.Group.List.Basic
import Mathlib.Data.List.Perm.Basic
import SatanKernel.Lib.Interleaving
import SatanKernel.Memory.ZonedRuns

/-!
# Concurrent calls of the zoned allocator

Any number of calls of `alloc` and `free` are in progress at the same time, and one of
them at a time performs an atomic operation on a buddy or on a counter.  A call of `free`
begins with a block that an earlier call of `alloc` has returned.

The programs of the calls are followed by a ledger, in which each call is at one of a
few stages and each block has the zone that it is from.
-/

namespace SatanKernel

open Lib

/-- A call in progress: its arguments and what is left of it to do. -/
inductive Call where
  | alloc (size : Nat) (program : BuddyM (Option Nat))
  | free (addr size : Nat) (program : BuddyM Unit)

/-- The operation that a call performs next. -/
def Call.pending : Call → Option BuddyOp
  | .alloc _ program => program.pending
  | .free _ _ program => program.pending

/-- Perform the pending operation. -/
def Call.step {σ : Type} (handler : Handler buddySig σ) : Call → σ → Call × σ
  | .alloc size program, state =>
      (.alloc size (program.step handler state).1, (program.step handler state).2)
  | .free addr size program, state =>
      (.free addr size (program.step handler state).1, (program.step handler state).2)

/-- What happens next: a call begins, performs its pending operation or returns. -/
inductive Event where
  | alloc (size : Nat)
  | free (block : Nat)
  | step (call : Nat)
  | finish (call : Nat)
  deriving DecidableEq, Repr

/-- The zones, the calls in progress, and the address and size of each block that was
returned and not passed to `free` since. -/
structure Allocator (B : Type) where
  zones : List (Zone B)
  calls : List Call
  held : List (Nat × Nat)

instance (blockSize size : Nat) : Decidable (WholeBlocks blockSize size) :=
  decidable_of_iff (size % blockSize = 0 ∧ (size / blockSize).isPowerOfTwo)
    ⟨fun both => ⟨both.1, both.2⟩, fun whole => ⟨whole.aligned, whole.power⟩⟩

namespace Allocator

variable {B : Type} (buddy : BuddyAlloc B) (blockSize : Nat)

/-- A call returns. -/
def finish (allocator : Allocator B) (index : Nat) : Call → Option (Allocator B)
  | .alloc size (.ret (some addr)) => some { allocator with
      calls := allocator.calls.eraseIdx index
      held := (addr, size) :: allocator.held }
  | .alloc _ (.ret none) => some { allocator with calls := allocator.calls.eraseIdx index }
  | .free _ _ (.ret ()) => some { allocator with calls := allocator.calls.eraseIdx index }
  | _ => none

/-- The effect of an event, if it can happen. -/
def next (allocator : Allocator B) : Event → Option (Allocator B)
  | .alloc size =>
      if WholeBlocks blockSize size then
        some { allocator with
          calls := allocator.calls ++ [.alloc size
            (ZonedBuddy.alloc blockSize (allocator.zones.map Zone.bounds) size)] }
      else none
  | .free block => allocator.held[block]?.map fun (addr, size) => { allocator with
      calls := allocator.calls ++ [.free addr size
        (ZonedBuddy.free blockSize (allocator.zones.map Zone.bounds) addr size)]
      held := allocator.held.eraseIdx block }
  | .step index => allocator.calls[index]?.map fun call => { allocator with
      zones := (call.step (buddyHandler buddy) allocator.zones).2
      calls := allocator.calls.set index (call.step (buddyHandler buddy) allocator.zones).1 }
  | .finish index => allocator.calls[index]?.bind (allocator.finish index)

/-- The effect of a sequence of events. -/
def run (allocator : Allocator B) : List Event → Option (Allocator B)
  | [] => some allocator
  | event :: rest => (allocator.next buddy blockSize event).bind fun after => run after rest

/-- Every event of a run meets a condition in the state before it. -/
def Meets (condition : Allocator B → Event → Prop) (allocator : Allocator B) :
    List Event → Prop
  | [] => True
  | event :: rest => condition allocator event ∧
      ∀ after, allocator.next buddy blockSize event = some after → Meets condition after rest

variable {buddy blockSize} in
theorem meets_cons {condition : Allocator B → Event → Prop} {allocator after : Allocator B}
    {event : Event} {rest : List Event} (here : condition allocator event)
    (happens : allocator.next buddy blockSize event = some after)
    (later : after.Meets buddy blockSize condition rest) :
    allocator.Meets buddy blockSize condition (event :: rest) := by
  refine ⟨here, ?_⟩
  intro other otherwise
  rw [happens] at otherwise
  cases otherwise
  exact later

end Allocator

/-! ## The ledger -/

/-- The stages of a call.  `adding` and `granted` are before and after `fetch_add`, and
`freeing`, `subtracting` and `freed` are before, between and after the two operations
of `free`. -/
inductive Stage where
  | searching (size : Nat) (zones : List Nat)
  | adding (block : Block)
  | granted (block : Block)
  | freeing (block : Block)
  | subtracting (block : Block)
  | freed (block : Block)

namespace Stage

/-- What is left to do at a stage. -/
def call (blockSize : Nat) : Stage → Call
  | .searching size zones =>
      .alloc size (Program.firstSome zones (ZonedBuddy.allocIn blockSize size))
  | .adding block =>
      .alloc block.size (.call (.fetchAdd block.zone block.size) fun _ => .ret (some block.addr))
  | .granted block => .alloc block.size (.ret (some block.addr))
  | .freeing block => .free block.addr block.size
      (.call (.buddyFree block.zone block.addr (block.size / blockSize)) fun _ =>
        .call (.fetchSub block.zone block.size) fun _ => .ret ())
  | .subtracting block => .free block.addr block.size
      (.call (.fetchSub block.zone block.size) fun _ => .ret ())
  | .freed block => .free block.addr block.size (.ret ())

/-- The block that the buddy of its zone has on record for the call. -/
def recorded : Stage → List Block
  | .adding block => [block]
  | .granted block => [block]
  | .freeing block => [block]
  | _ => []

/-- The block that the counter of its zone includes. -/
def counted : Stage → List Block
  | .granted block => [block]
  | .freeing block => [block]
  | .subtracting block => [block]
  | _ => []

/-- The block that is on record or counted. -/
def either : Stage → List Block
  | .adding block => [block]
  | .granted block => [block]
  | .freeing block => [block]
  | .subtracting block => [block]
  | _ => []

/-- The zones that a call still has to do with exist. -/
def Placed (blockSize : Nat) (bounds : List Bounds) : Stage → Prop
  | .searching size zones =>
      WholeBlocks blockSize size ∧ ∀ zone ∈ zones, zone < bounds.length
  | .subtracting block => ∃ zone, bounds[block.zone]? = some zone ∧
      ZonedBuddy.Holds block.addr block.size zone
  | _ => True

end Stage

/-- The blocks of the calls in progress and the blocks that are held. -/
def gather (blocks : Stage → List Block) (stages : List Stage) (held : List Block) :
    List Block :=
  stages.flatMap blocks ++ held

section Gather

variable (blocks : Stage → List Block) {stages : List Stage} {index : Nat} {stage : Stage}

/-- A call without blocks begins. -/
theorem gather_append (stages : List Stage) (held : List Block) (nothing : blocks stage = []) :
    gather blocks (stages ++ [stage]) held = gather blocks stages held := by
  rw [gather, gather, List.flatMap_append, List.flatMap_singleton, nothing, List.append_nil]

theorem gather_found (found : stages[index]? = some stage) (held : List Block) :
    (gather blocks stages held).Perm
      (blocks stage ++ gather blocks (stages.eraseIdx index) held) := by
  obtain ⟨inside, equal⟩ := List.getElem?_eq_some_iff.mp found
  have first := (List.getElem_cons_eraseIdx_perm inside).symm.flatMap_right blocks
  rw [equal, List.flatMap_cons] at first
  rw [gather, gather, ← List.append_assoc]
  exact first.append_right held

theorem gather_set (found : stages[index]? = some stage) (after : Stage) (held : List Block) :
    (gather blocks (stages.set index after) held).Perm
      (blocks after ++ gather blocks (stages.eraseIdx index) held) := by
  obtain ⟨inside, _⟩ := List.getElem?_eq_some_iff.mp found
  have first := (List.set_perm_cons_eraseIdx inside after).flatMap_right blocks
  rw [List.flatMap_cons] at first
  rw [gather, gather, ← List.append_assoc]
  exact first.append_right held

/-- A call without blocks returns. -/
theorem gather_erase (found : stages[index]? = some stage) (nothing : blocks stage = [])
    (held : List Block) :
    (gather blocks (stages.eraseIdx index) held).Perm (gather blocks stages held) := by
  have perm := gather_found blocks found held
  rw [nothing, List.nil_append] at perm
  exact perm.symm

/-- A held block becomes the block of a new call. -/
theorem gather_begin {held : List Block} {position : Nat} {block : Block}
    (isHeld : held[position]? = some block) (one : blocks stage = [block]) :
    (gather blocks (stages ++ [stage]) (held.eraseIdx position)).Perm
      (gather blocks stages held) := by
  obtain ⟨inside, equal⟩ := List.getElem?_eq_some_iff.mp isHeld
  have heldPerm := List.getElem_cons_eraseIdx_perm inside
  rw [equal] at heldPerm
  rw [gather, List.flatMap_append, List.flatMap_singleton, one, List.append_assoc]
  exact heldPerm.append_left _

/-- The block of a call becomes a held block. -/
theorem gather_return (found : stages[index]? = some stage) {block : Block}
    (one : blocks stage = [block]) (held : List Block) :
    (gather blocks (stages.eraseIdx index) (block :: held)).Perm
      (gather blocks stages held) := by
  have perm := gather_found blocks found held
  rw [one, gather] at perm
  rw [gather, gather]
  exact List.perm_middle.trans perm.symm

end Gather

/-- The sum of the sizes of the blocks of a zone. -/
def sizeAt (index : Nat) (blocks : List Block) : Nat :=
  ((blocks.filter (·.zone = index)).map Block.size).sum

theorem sizeAt_perm (index : Nat) {blocks others : List Block} (same : blocks.Perm others) :
    sizeAt index blocks = sizeAt index others :=
  ((same.filter _).map _).sum_eq

theorem sizeAt_cons_self (block : Block) (rest : List Block) :
    sizeAt block.zone (block :: rest) = block.size + sizeAt block.zone rest := by
  rw [sizeAt, List.filter_cons_of_pos (by simp), List.map_cons, List.sum_cons, sizeAt]

theorem sizeAt_cons_of_ne {index : Nat} {block : Block} (elsewhere : block.zone ≠ index)
    (rest : List Block) : sizeAt index (block :: rest) = sizeAt index rest := by
  rw [sizeAt, List.filter_cons_of_neg (by simpa using elsewhere), sizeAt]

section Counters

variable {B : Type}

/-- The counters include the sizes of the blocks, up to wrapping around. -/
def Counters (zones : List (Zone B)) (blocks : List Block) : Prop :=
  ∀ index zone, zones[index]? = some zone →
    zone.allocated = sizeAt index blocks % 2 ^ usizeBits

variable {zones : List (Zone B)} {blocks others : List Block} {index : Nat} {zone : Zone B}

theorem Counters.perm (counters : Counters zones blocks) (same : blocks.Perm others) :
    Counters zones others := by
  intro index zone found
  rw [counters index zone found, sizeAt_perm index same]

/-- A zone changes, and with it the blocks that are counted for it. -/
theorem Counters.set (counters : Counters zones blocks) {after : Zone B}
    (here : after.allocated = sizeAt index others % 2 ^ usizeBits)
    (elsewhere : ∀ other, other ≠ index → sizeAt other others = sizeAt other blocks) :
    Counters (zones.set index after) others := by
  intro other current position
  rw [List.getElem?_set] at position
  split at position
  next equal =>
    subst equal
    split at position
    next => cases position; exact here
    next => cases position
  next different =>
    rw [counters other current position, elsewhere other (Ne.symm different)]

theorem Counters.set_same (counters : Counters zones blocks) (found : zones[index]? = some zone)
    (after : Zone B) (same : after.allocated = zone.allocated) :
    Counters (zones.set index after) blocks :=
  counters.set (same.trans (counters index zone found)) fun _ _ => rfl

/-- `fetch_add`. -/
theorem Counters.add {block : Block} (counters : Counters zones blocks)
    (found : zones[block.zone]? = some zone) :
    Counters (zones.set block.zone
        { zone with allocated := (zone.allocated + block.size) % 2 ^ usizeBits })
      (block :: blocks) := by
  apply counters.set
  · rw [sizeAt_cons_self, counters block.zone zone found, Nat.mod_add_mod, Nat.add_comm]
  · intro other different
    exact sizeAt_cons_of_ne (Ne.symm different) blocks

/-- `fetch_sub`. -/
theorem Counters.subtract {block : Block} (counters : Counters zones (block :: blocks))
    (found : zones[block.zone]? = some zone) (fits : block.size < 2 ^ usizeBits) :
    Counters (zones.set block.zone { zone with
        allocated := (zone.allocated + (2 ^ usizeBits - block.size)) % 2 ^ usizeBits })
      blocks := by
  apply counters.set
  · have sum : block.size + sizeAt block.zone blocks + (2 ^ usizeBits - block.size) =
        sizeAt block.zone blocks + 2 ^ usizeBits := by omega
    rw [counters block.zone zone found, Nat.mod_add_mod, sizeAt_cons_self, sum,
      Nat.add_mod_right]
  · intro other different
    exact (sizeAt_cons_of_ne (Ne.symm different) blocks).symm

end Counters

/-- The zones with the stages of the calls and the blocks that are held. -/
structure Ledger (B : Type) where
  zones : List (Zone B)
  stages : List Stage
  held : List Block

namespace Ledger

variable {B : Type} (buddy : BuddyAlloc B) (blockSize : Nat)

/-- The allocator that the ledger is about. -/
def allocator (ledger : Ledger B) : Allocator B where
  zones := ledger.zones
  calls := ledger.stages.map (Stage.call blockSize)
  held := ledger.held.map fun block => (block.addr, block.size)

/-- The events in terms of the ledger. -/
inductive Step (ledger : Ledger B) : Event → Ledger B → Prop where
  | alloc {size : Nat} (whole : WholeBlocks blockSize size) :
      Step ledger (.alloc size) { ledger with
        stages := ledger.stages ++ [.searching size (List.range ledger.zones.length)] }
  | free {index : Nat} {block : Block} (isHeld : ledger.held[index]? = some block) :
      Step ledger (.free index) { ledger with
        stages := ledger.stages ++ [.freeing block]
        held := ledger.held.eraseIdx index }
  | refuse {index size position : Nat} {rest : List Nat} {zone : Zone B} {after : B}
      (stage : ledger.stages[index]? = some (.searching size (position :: rest)))
      (found : ledger.zones[position]? = some zone)
      (answered : buddy.alloc zone.buddy (size / blockSize) = (none, after)) :
      Step ledger (.step index) { ledger with
        zones := ledger.zones.set position { zone with buddy := after }
        stages := ledger.stages.set index (.searching size rest) }
  | grant {index size position addr : Nat} {rest : List Nat} {zone : Zone B} {after : B}
      (stage : ledger.stages[index]? = some (.searching size (position :: rest)))
      (found : ledger.zones[position]? = some zone)
      (answered : buddy.alloc zone.buddy (size / blockSize) = (some addr, after)) :
      Step ledger (.step index) { ledger with
        zones := ledger.zones.set position { zone with buddy := after }
        stages := ledger.stages.set index (.adding ⟨position, addr, size⟩) }
  | add {index : Nat} {block : Block} {zone : Zone B}
      (stage : ledger.stages[index]? = some (.adding block))
      (found : ledger.zones[block.zone]? = some zone) :
      Step ledger (.step index) { ledger with
        zones := ledger.zones.set block.zone
          { zone with allocated := (zone.allocated + block.size) % 2 ^ usizeBits }
        stages := ledger.stages.set index (.granted block) }
  | giveBack {index : Nat} {block : Block} {zone : Zone B}
      (stage : ledger.stages[index]? = some (.freeing block))
      (found : ledger.zones[block.zone]? = some zone) :
      Step ledger (.step index) { ledger with
        zones := ledger.zones.set block.zone
          { zone with buddy := buddy.free zone.buddy block.addr (block.size / blockSize) }
        stages := ledger.stages.set index (.subtracting block) }
  | subtract {index : Nat} {block : Block} {zone : Zone B}
      (stage : ledger.stages[index]? = some (.subtracting block))
      (found : ledger.zones[block.zone]? = some zone) :
      Step ledger (.step index) { ledger with
        zones := ledger.zones.set block.zone { zone with
          allocated := (zone.allocated + (2 ^ usizeBits - block.size)) % 2 ^ usizeBits }
        stages := ledger.stages.set index (.freed block) }
  | idle {index : Nat} {stage : Stage} (found : ledger.stages[index]? = some stage)
      (ended : (stage.call blockSize).pending = none) : Step ledger (.step index) ledger
  | returnNone {index size : Nat} (stage : ledger.stages[index]? = some (.searching size [])) :
      Step ledger (.finish index) { ledger with stages := ledger.stages.eraseIdx index }
  | returnSome {index : Nat} {block : Block}
      (stage : ledger.stages[index]? = some (.granted block)) :
      Step ledger (.finish index) { ledger with
        stages := ledger.stages.eraseIdx index
        held := block :: ledger.held }
  | returnFreed {index : Nat} {block : Block}
      (stage : ledger.stages[index]? = some (.freed block)) :
      Step ledger (.finish index) { ledger with stages := ledger.stages.eraseIdx index }

variable {buddy blockSize} {spec : BuddySpec blockSize buddy} {ranges : List Bounds}
  {ledger : Ledger B} {event : Event} {after : Ledger B}

/-- The buddies and the counters agree with the ledger. -/
structure Sound (spec : BuddySpec blockSize buddy) (ranges : List Bounds)
    (ledger : Ledger B) : Prop where
  layout : Layout blockSize ranges (ledger.zones.map Zone.bounds)
  books : Books spec ledger.zones (gather Stage.recorded ledger.stages ledger.held)
  counters : Counters ledger.zones (gather Stage.counted ledger.stages ledger.held)
  placed : ∀ stage ∈ ledger.stages, stage.Placed blockSize (ledger.zones.map Zone.bounds)

/-- A call at the given stage goes on to another one. -/
theorem placed_set {stages : List Stage} {zones : List Bounds} {index : Nat} {next : Stage}
    (placed : ∀ stage ∈ stages, stage.Placed blockSize zones)
    (nextPlaced : next.Placed blockSize zones) :
    ∀ stage ∈ stages.set index next, stage.Placed blockSize zones := by
  intro stage member
  cases List.mem_or_eq_of_mem_set member with
  | inl old => exact placed stage old
  | inr equal => exact equal ▸ nextPlaced

theorem placed_append {stages : List Stage} {zones : List Bounds} {next : Stage}
    (placed : ∀ stage ∈ stages, stage.Placed blockSize zones)
    (nextPlaced : next.Placed blockSize zones) :
    ∀ stage ∈ stages ++ [next], stage.Placed blockSize zones := by
  intro stage member
  cases List.mem_append.mp member with
  | inl old => exact placed stage old
  | inr new => exact List.mem_singleton.mp new ▸ nextPlaced

theorem placed_eraseIdx {stages : List Stage} {zones : List Bounds} {index : Nat}
    (placed : ∀ stage ∈ stages, stage.Placed blockSize zones) :
    ∀ stage ∈ stages.eraseIdx index, stage.Placed blockSize zones :=
  fun stage member => placed stage (List.mem_of_mem_eraseIdx member)

/-- A call begins or returns and no block is added or lost. -/
theorem Sound.reorder (sound : Sound spec ranges ledger) {stages : List Stage}
    {held : List Block}
    (recorded : (gather Stage.recorded stages held).Perm
      (gather Stage.recorded ledger.stages ledger.held))
    (counted : (gather Stage.counted stages held).Perm
      (gather Stage.counted ledger.stages ledger.held))
    (placed : ∀ stage ∈ stages, stage.Placed blockSize (ledger.zones.map Zone.bounds)) :
    Sound spec ranges { ledger with stages, held } where
  layout := sound.layout
  books := sound.books.perm recorded.symm
  counters := sound.counters.perm counted.symm
  placed := placed

/-- A call changes a zone and goes on to its next stage. -/
theorem Sound.change (sound : Sound spec ranges ledger) {index position : Nat}
    {current : Stage} (stage : ledger.stages[index]? = some current) {zone : Zone B}
    (found : ledger.zones[position]? = some zone) (next : Stage) (changed : Zone B)
    (bounds : changed.bounds = zone.bounds)
    (books : ∀ others, Books spec ledger.zones (current.recorded ++ others) →
      Books spec (ledger.zones.set position changed) (next.recorded ++ others))
    (counters : ∀ others, Counters ledger.zones (current.counted ++ others) →
      Counters (ledger.zones.set position changed) (next.counted ++ others))
    (placed : next.Placed blockSize (ledger.zones.map Zone.bounds)) :
    Sound spec ranges { ledger with
      zones := ledger.zones.set position changed
      stages := ledger.stages.set index next } := by
  have same := bounds_set found bounds
  constructor
  · rw [same]
    exact sound.layout
  · have reordered := sound.books.perm (gather_found _ stage _)
    exact (books _ reordered).perm (gather_set _ stage next _).symm
  · have reordered := sound.counters.perm (gather_found _ stage _)
    exact (counters _ reordered).perm (gather_set _ stage next _).symm
  · rw [same]
    exact placed_set sound.placed placed

/-- Every event keeps the agreement. -/
theorem Sound.step (sound : Sound spec ranges ledger)
    (step : Step buddy blockSize ledger event after) : Sound spec ranges after := by
  cases step with
  | @alloc size whole =>
      apply sound.reorder
      · exact .of_eq (gather_append _ _ _ rfl)
      · exact .of_eq (gather_append _ _ _ rfl)
      · apply placed_append sound.placed
        refine ⟨whole, ?_⟩
        intro zone member
        rw [List.length_map]
        exact List.mem_range.mp member
  | free isHeld =>
      exact sound.reorder (gather_begin _ isHeld rfl) (gather_begin _ isHeld rfl)
        (placed_append sound.placed trivial)
  | @refuse index size position rest zone made stage found answered =>
      have range := spec.alloc_range zone.buddy (size / blockSize)
      rw [answered] at range
      have searching := sound.placed _ (List.mem_of_getElem? stage)
      apply sound.change stage found
      · rfl
      · intro others books
        exact books.set_same found _ rfl range (spec.alloc_none answered)
      · intro others counters
        exact counters.set_same found { zone with buddy := made } rfl
      · exact ⟨searching.1, fun zone member => searching.2 zone (List.mem_cons_of_mem _ member)⟩
  | @grant index size position addr rest zone made stage found answered =>
      have searching := sound.placed _ (List.mem_of_getElem? stage)
      apply sound.change stage found
      · rfl
      · intro others books
        exact books.handOut sound.layout found searching.1 answered
      · intro others counters
        exact counters.set_same found { zone with buddy := made } rfl
      · trivial
  | @add index block zone stage found =>
      apply sound.change stage found
      · rfl
      · intro others books
        exact books.set_same found _ rfl rfl rfl
      · intro others counters
        exact counters.add found
      · trivial
  | @giveBack index block zone stage found =>
      have onRecord : block ∈ gather Stage.recorded ledger.stages ledger.held :=
        (gather_found _ stage _).mem_iff.mpr List.mem_cons_self
      apply sound.change stage found
      · rfl
      · intro others books
        have given := books.giveBack List.mem_cons_self found { zone with
          buddy := buddy.free zone.buddy block.addr (block.size / blockSize) } rfl rfl
        rw [Stage.recorded, List.singleton_append, List.erase_cons_head] at given
        exact given
      · intro others counters
        exact counters.set_same found { zone with
          buddy := buddy.free zone.buddy block.addr (block.size / blockSize) } rfl
      · exact sound.books.inside block onRecord
  | @subtract index block zone stage found =>
      obtain ⟨bounds, position, holds⟩ := sound.placed _ (List.mem_of_getElem? stage)
      have fits := sound.layout.fits bounds (List.mem_of_getElem? position)
      have small : block.size < 2 ^ usizeBits := by
        have := holds.2
        omega
      apply sound.change stage found
      · rfl
      · intro others books
        exact books.set_same found _ rfl rfl rfl
      · intro others counters
        exact counters.subtract found small
      · trivial
  | idle found ended => exact sound
  | returnNone stage =>
      exact sound.reorder (gather_erase _ stage rfl _) (gather_erase _ stage rfl _)
        (placed_eraseIdx sound.placed)
  | returnSome stage =>
      exact sound.reorder (gather_return _ stage rfl _) (gather_return _ stage rfl _)
        (placed_eraseIdx sound.placed)
  | returnFreed stage =>
      exact sound.reorder (gather_erase _ stage rfl _) (gather_erase _ stage rfl _)
        (placed_eraseIdx sound.placed)

/-! ## Programs and stages -/

/-- A block of the ledger is inside of the zone that it is from, and `free` finds it. -/
theorem Sound.free_call (sound : Sound spec ranges ledger) {block : Block}
    (onRecord : block ∈ gather Stage.recorded ledger.stages ledger.held) :
    Call.free block.addr block.size
        (ZonedBuddy.free blockSize (ledger.zones.map Zone.bounds) block.addr block.size) =
      (Stage.freeing block).call blockSize := by
  obtain ⟨bounds, position, holds⟩ := sound.books.inside block onRecord
  rw [ZonedBuddy.free_eq (sound.books.whole block onRecord).positive position holds
    sound.layout.fits sound.layout.apart]
  rfl

/-- The zone of a block on record. -/
theorem Sound.exists_zone (sound : Sound spec ranges ledger) {index : Nat} {stage : Stage}
    {block : Block} (found : ledger.stages[index]? = some stage)
    (onRecord : block ∈ stage.recorded) : ∃ zone, ledger.zones[block.zone]? = some zone := by
  have member : block ∈ gather Stage.recorded ledger.stages ledger.held :=
    List.mem_append_left _ (List.mem_flatMap.mpr ⟨stage, List.mem_of_getElem? found, onRecord⟩)
  obtain ⟨bounds, position, _⟩ := sound.books.inside block member
  rw [List.getElem?_map, Option.map_eq_some_iff] at position
  obtain ⟨zone, zoneFound, _⟩ := position
  exact ⟨zone, zoneFound⟩

theorem step_free {zones : List (Zone B)} {block : Block} {zone : Zone B}
    (found : zones[block.zone]? = some zone) :
    ((Stage.freeing block).call blockSize).step (buddyHandler buddy) zones =
      ((Stage.subtracting block).call blockSize, zones.set block.zone
        { zone with buddy := buddy.free zone.buddy block.addr (block.size / blockSize) }) := by
  rw [Stage.call, Call.step, Program.step_call_some (onZone_of_get found _)]
  rfl

theorem step_subtract {zones : List (Zone B)} {block : Block} {zone : Zone B}
    (found : zones[block.zone]? = some zone) :
    ((Stage.subtracting block).call blockSize).step (buddyHandler buddy) zones =
      ((Stage.freed block).call blockSize, zones.set block.zone { zone with
        allocated := (zone.allocated + (2 ^ usizeBits - block.size)) % 2 ^ usizeBits }) := by
  rw [Stage.call, Call.step, Program.step_call_some (onZone_of_get found _)]
  rfl

theorem step_add {zones : List (Zone B)} {block : Block} {zone : Zone B}
    (found : zones[block.zone]? = some zone) :
    ((Stage.adding block).call blockSize).step (buddyHandler buddy) zones =
      ((Stage.granted block).call blockSize, zones.set block.zone
        { zone with allocated := (zone.allocated + block.size) % 2 ^ usizeBits }) := by
  rw [Stage.call, Call.step, Program.step_call_some (onZone_of_get found _)]
  rfl

theorem step_search {zones : List (Zone B)} {size position : Nat} {rest : List Nat}
    {zone : Zone B} (found : zones[position]? = some zone) :
    ((Stage.searching size (position :: rest)).call blockSize).step (buddyHandler buddy) zones =
      (match (buddy.alloc zone.buddy (size / blockSize)).1 with
        | some addr => (Stage.adding ⟨position, addr, size⟩).call blockSize
        | none => (Stage.searching size rest).call blockSize,
        zones.set position { zone with
          buddy := (buddy.alloc zone.buddy (size / blockSize)).2 }) := by
  rw [Stage.call, ZonedBuddy.firstSome_cons, Call.step,
    Program.step_call_some (onZone_of_get found _)]
  cases (buddy.alloc zone.buddy (size / blockSize)).1 with
  | none => rfl
  | some addr => rfl

/-- A call that has ended does nothing. -/
theorem step_idle {index : Nat} {stage : Stage} (found : ledger.stages[index]? = some stage)
    (ended : (stage.call blockSize).pending = none) :
    Step buddy blockSize ledger (.step index)
      { ledger with stages := ledger.stages.set index stage } := by
  obtain ⟨inside, equal⟩ := List.getElem?_eq_some_iff.mp found
  rw [← equal, List.set_getElem_self]
  exact Step.idle found ended

/-- A call performs an operation and goes on to its next stage. -/
theorem Sound.performs (sound : Sound spec ranges ledger) {index : Nat} {stage : Stage}
    (found : ledger.stages[index]? = some stage) :
    ∃ next zones, (stage.call blockSize).step (buddyHandler buddy) ledger.zones =
        (next.call blockSize, zones) ∧
      Step buddy blockSize ledger (.step index)
        { ledger with zones, stages := ledger.stages.set index next } := by
  cases stage with
  | searching size zones =>
      cases zones with
      | nil => exact ⟨_, _, rfl, step_idle found rfl⟩
      | cons position rest =>
          have placed := sound.placed _ (List.mem_of_getElem? found)
          have inside := placed.2 position List.mem_cons_self
          rw [List.length_map] at inside
          have zoneFound := List.getElem?_eq_getElem inside
          have performed : ((Stage.searching size (position :: rest)).call blockSize).step
              (buddyHandler buddy) ledger.zones = _ := step_search zoneFound
          rcases answered : buddy.alloc ledger.zones[position].buddy (size / blockSize) with
            ⟨_ | addr, made⟩
          · rw [answered] at performed
            exact ⟨_, _, performed, Step.refuse found zoneFound answered⟩
          · rw [answered] at performed
            exact ⟨_, _, performed, Step.grant found zoneFound answered⟩
  | adding block =>
      obtain ⟨zone, zoneFound⟩ := sound.exists_zone found List.mem_cons_self
      exact ⟨_, _, step_add zoneFound, Step.add found zoneFound⟩
  | granted block => exact ⟨_, _, rfl, step_idle found rfl⟩
  | freeing block =>
      obtain ⟨zone, zoneFound⟩ := sound.exists_zone found List.mem_cons_self
      exact ⟨_, _, step_free zoneFound, Step.giveBack found zoneFound⟩
  | subtracting block =>
      obtain ⟨bounds, position, _⟩ := sound.placed _ (List.mem_of_getElem? found)
      rw [List.getElem?_map, Option.map_eq_some_iff] at position
      obtain ⟨zone, zoneFound, _⟩ := position
      exact ⟨_, _, step_subtract zoneFound, Step.subtract found zoneFound⟩
  | freed block => exact ⟨_, _, rfl, step_idle found rfl⟩

/-- A call returns. -/
theorem finishes {index : Nat} {stage : Stage} (found : ledger.stages[index]? = some stage)
    {result : Allocator B}
    (finished : (ledger.allocator blockSize).finish index (stage.call blockSize) = some result) :
    ∃ after, Step buddy blockSize ledger (.finish index) after ∧
      after.allocator blockSize = result := by
  have erased := List.eraseIdx_map (Stage.call blockSize) ledger.stages index
  cases stage with
  | searching size zones =>
      cases zones with
      | nil =>
          cases finished
          exact ⟨_, Step.returnNone found, by rw [allocator, ← erased]; rfl⟩
      | cons position rest =>
          rw [Stage.call, ZonedBuddy.firstSome_cons] at finished
          cases finished
  | granted block =>
      cases finished
      exact ⟨_, Step.returnSome found, by rw [allocator, ← erased]; rfl⟩
  | freed block =>
      cases finished
      exact ⟨_, Step.returnFreed found, by rw [allocator, ← erased]; rfl⟩
  | adding block | freeing block | subtracting block => cases finished

/-- What the allocator does, the ledger follows. -/
theorem Sound.follows (sound : Sound spec ranges ledger) {result : Allocator B}
    (happens : (ledger.allocator blockSize).next buddy blockSize event = some result) :
    ∃ after, Step buddy blockSize ledger event after ∧ after.allocator blockSize = result := by
  cases event with
  | alloc size =>
      rw [Allocator.next] at happens
      split at happens
      next whole =>
        cases happens
        refine ⟨_, Step.alloc whole, ?_⟩
        rw [allocator, List.map_append, List.map_singleton, Stage.call, ZonedBuddy.alloc,
          List.length_map]
        rfl
      next => cases happens
  | free position =>
      rw [Allocator.next, Option.map_eq_some_iff] at happens
      obtain ⟨pair, isHeld, resultEq⟩ := happens
      change (ledger.held.map _)[position]? = some pair at isHeld
      rw [List.getElem?_map, Option.map_eq_some_iff] at isHeld
      obtain ⟨block, blockHeld, pairEq⟩ := isHeld
      subst pairEq
      have call := sound.free_call (List.mem_append_right _ (List.mem_of_getElem? blockHeld))
      refine ⟨_, Step.free blockHeld, ?_⟩
      rw [← resultEq, allocator, List.map_append, List.map_singleton, ← call, ← List.eraseIdx_map]
      rfl
  | step index =>
      rw [Allocator.next, Option.map_eq_some_iff] at happens
      obtain ⟨call, callFound, resultEq⟩ := happens
      change (ledger.stages.map _)[index]? = some call at callFound
      rw [List.getElem?_map, Option.map_eq_some_iff] at callFound
      obtain ⟨stage, found, callEq⟩ := callFound
      subst callEq
      obtain ⟨next, zones, performed, step⟩ := sound.performs found
      change (stage.call blockSize).step (buddyHandler buddy) (ledger.allocator blockSize).zones = _
        at performed
      refine ⟨_, step, ?_⟩
      rw [← resultEq, performed, allocator, List.map_set]
      rfl
  | finish index =>
      rw [Allocator.next, Option.bind_eq_some_iff] at happens
      obtain ⟨call, callFound, finished⟩ := happens
      change (ledger.stages.map _)[index]? = some call at callFound
      rw [List.getElem?_map, Option.map_eq_some_iff] at callFound
      obtain ⟨stage, found, callEq⟩ := callFound
      subst callEq
      exact finishes found finished

/-! ## Runs -/

/-- What every event keeps under a condition holds after a run that meets the condition. -/
theorem run_invariant (condition : Allocator B → Event → Prop) (invariant : Ledger B → Prop)
    (keeps : ∀ ledger event after, Sound spec ranges ledger → invariant ledger →
      condition (ledger.allocator blockSize) event → Step buddy blockSize ledger event after →
      invariant after)
    (sound : Sound spec ranges ledger) (holds : invariant ledger) {events : List Event}
    (meets : (ledger.allocator blockSize).Meets buddy blockSize condition events)
    {result : Allocator B}
    (ran : (ledger.allocator blockSize).run buddy blockSize events = some result) :
    ∃ after, after.allocator blockSize = result ∧ Sound spec ranges after ∧ invariant after := by
  induction events generalizing ledger with
  | nil =>
      cases ran
      exact ⟨ledger, rfl, sound, holds⟩
  | cons event rest ih =>
      rw [Allocator.run, Option.bind_eq_some_iff] at ran
      obtain ⟨between, happens, continued⟩ := ran
      obtain ⟨after, step, equal⟩ := sound.follows happens
      have meetsRest := meets.2 between happens
      subst equal
      exact ih (sound.step step) (keeps ledger event after sound holds meets.1 step) meetsRest
        continued

/-- The ledger agrees with the allocator after every run. -/
theorem run_sound (sound : Sound spec ranges ledger) {events : List Event}
    {result : Allocator B}
    (ran : (ledger.allocator blockSize).run buddy blockSize events = some result) :
    ∃ after, after.allocator blockSize = result ∧ Sound spec ranges after := by
  have meets : ∀ events (allocator : Allocator B),
      allocator.Meets buddy blockSize (fun _ _ => True) events := by
    intro events
    induction events with
    | nil => exact fun _ => trivial
    | cons event rest ih =>
        intro allocator
        exact ⟨trivial, fun after _ => ih after⟩
  obtain ⟨after, equal, agrees, _⟩ := run_invariant (fun _ _ => True) (fun _ => True)
    (fun _ _ _ _ _ _ _ => trivial) sound trivial (meets events _) ran
  exact ⟨after, equal, agrees⟩

end Ledger

/-- Zones as `add_zone` makes them, from which nothing has been taken. -/
structure NewZones {B : Type} {blockSize : Nat} {buddy : BuddyAlloc B}
    (spec : BuddySpec blockSize buddy) (zones : List (Zone B)) : Prop where
  fits : ∀ zone ∈ zones, zone.start + zone.size < 2 ^ usizeBits
  aligned : ∀ zone ∈ zones, zone.size % blockSize = 0
  apart : zones.Pairwise fun left right => Disjoint left.bytes right.bytes
  unused : ∀ zone ∈ zones, zone.allocated = 0
  range : ∀ zone ∈ zones, spec.range zone.buddy = (zone.start, zone.size / blockSize)
  empty : ∀ zone ∈ zones, spec.blocks zone.buddy = 0

section Begin

variable {B : Type} {blockSize : Nat} {buddy : BuddyAlloc B} {spec : BuddySpec blockSize buddy}
  {zones : List (Zone B)}

theorem NewZones.layout (new : NewZones spec zones) :
    Layout blockSize (zones.map Zone.bounds) (zones.map Zone.bounds) where
  fits := by
    intro bounds member
    obtain ⟨zone, zoneMember, equal⟩ := List.mem_map.mp member
    exact equal ▸ new.fits zone zoneMember
  aligned := by
    intro bounds member
    obtain ⟨zone, zoneMember, equal⟩ := List.mem_map.mp member
    exact equal ▸ new.aligned zone zoneMember
  covered := fun bounds member => ⟨bounds, member, subset_rfl⟩
  apart := List.pairwise_map.mpr new.apart

/-- With no calls in progress and nothing held. -/
theorem NewZones.sound (new : NewZones spec zones) :
    Ledger.Sound spec (zones.map Zone.bounds) ⟨zones, [], []⟩ where
  layout := new.layout
  books :=
    { range := new.range
      whole := by simp [gather]
      inside := by simp [gather]
      apart := List.Pairwise.nil
      recorded := fun _ zone found => new.empty zone (List.mem_of_getElem? found) }
  counters := fun _ zone found => new.unused zone (List.mem_of_getElem? found)
  placed := by simp

end Begin

end SatanKernel
