import SatanKernel.Memory.ZonedAlloc

/-!
# A buddy that meets the assumptions

An allocator that looks for the first place for a request among the multiples of the
request's size, as a binary buddy places its blocks.  It shows that what is assumed of
`BuddyAlloc` can be met, and serves as its stand-in in examples.
-/

namespace SatanKernel

/-- A range of blocks with what has been handed out of it. -/
structure FirstFit where
  start : Nat
  count : Nat
  blocks : List (Nat × Nat)
  deriving DecidableEq, Repr

namespace FirstFit

variable (blockSize : Nat) (serves : Nat → Bool)

/-- The address of the `place`-th run of `count` blocks. -/
def address (state : FirstFit) (count place : Nat) : Nat :=
  state.start + place * count * blockSize

/-- No block that is handed out overlaps with the place. -/
def Vacant (state : FirstFit) (count place : Nat) : Prop :=
  ∀ block ∈ state.blocks, block.1 + block.2 * blockSize ≤ state.address blockSize count place ∨
    state.address blockSize count place + count * blockSize ≤ block.1

instance (state : FirstFit) (count place : Nat) :
    Decidable (state.Vacant blockSize count place) :=
  inferInstanceAs (Decidable (∀ block ∈ state.blocks, _))

/-- The first vacant place at an address that is served. -/
def search (state : FirstFit) (count : Nat) : Option Nat :=
  (List.range (state.count / count)).find? fun place =>
    serves (state.address blockSize count place) && decide (state.Vacant blockSize count place)

/-- The allocator, restricted to the addresses that it serves. -/
def buddy : BuddyAlloc FirstFit where
  alloc state count :=
    match state.search blockSize serves count with
    | some place =>
        (some (state.address blockSize count place),
          { state with blocks := (state.address blockSize count place, count) :: state.blocks })
    | none => (none, state)
  free state addr count := { state with blocks := state.blocks.erase (addr, count) }

/-- `BuddyAlloc::new`, with enough memory for the buddy's own data. -/
def construct (environment : Unit) (start count : Nat) : Option FirstFit × Unit :=
  (some ⟨start, count, []⟩, environment)

variable {blockSize serves} {state after : FirstFit} {count addr : Nat}

/-- A request that is granted was granted at a vacant place. -/
theorem exists_place
    (granted : (buddy blockSize serves).alloc state count = (some addr, after)) :
    ∃ place < state.count / count, addr = state.address blockSize count place ∧
      serves addr = true ∧ state.Vacant blockSize count place ∧
      after = { state with blocks := (addr, count) :: state.blocks } := by
  rw [buddy] at granted
  dsimp only at granted
  split at granted
  next place found =>
    rw [Prod.mk.injEq, Option.some.injEq] at granted
    obtain ⟨addrEq, afterEq⟩ := granted
    subst addrEq afterEq
    have inRange := List.mem_of_find?_eq_some found
    have accepted := List.find?_some found
    rw [Bool.and_eq_true, decide_eq_true_eq] at accepted
    exact ⟨place, List.mem_range.mp inRange, rfl, accepted.1, accepted.2, rfl⟩
  next => cases granted

theorem after_eq_of_none
    (refused : (buddy blockSize serves).alloc state count = (none, after)) : after = state := by
  rw [buddy] at refused
  dsimp only at refused
  split at refused
  next => cases refused
  next => cases refused; rfl

/-- The allocator meets the assumptions. -/
def spec (blockSize : Nat) (serves : Nat → Bool) :
    BuddySpec blockSize (buddy blockSize serves) where
  range := fun state => (state.start, state.count)
  blocks := fun state => state.blocks
  alloc_range := by
    intro state count
    rcases answered : (buddy blockSize serves).alloc state count with ⟨_ | addr, after⟩
    · rw [after_eq_of_none answered]
    · obtain ⟨_, _, _, _, _, afterEq⟩ := exists_place answered
      rw [afterEq]
  free_range := by
    intro state addr count
    rfl
  alloc_none := by
    intro state count after refused
    rw [after_eq_of_none refused]
  alloc_some := by
    intro state count addr after granted
    obtain ⟨_, _, _, _, _, afterEq⟩ := exists_place granted
    rw [afterEq]
    rfl
  alloc_inside := by
    intro state count addr after _ granted
    obtain ⟨place, inRange, addrEq, _⟩ := exists_place granted
    have places : (place + 1) * count ≤ state.count :=
      (Nat.mul_le_mul_right count inRange).trans (Nat.div_mul_le_self _ _)
    have bytes := Nat.mul_le_mul_right blockSize places
    rw [Nat.succ_mul, Nat.add_mul] at bytes
    apply Set.Ico_subset_Ico
    · rw [addrEq, address]
      exact Nat.le_add_right _ _
    · rw [addrEq, address, Nat.add_assoc]
      exact Nat.add_le_add_left bytes _
  alloc_apart := by
    intro state count addr after _ granted block member
    obtain ⟨place, _, addrEq, _, vacant, _⟩ := exists_place granted
    rw [blockBytes, blockBytes, Set.Ico_disjoint_Ico, le_max_iff, min_le_iff, min_le_iff]
    rw [addrEq]
    cases vacant block member with
    | inl before => exact Or.inl (Or.inr before)
    | inr behind => exact Or.inr (Or.inl behind)
  free_blocks := by
    intro state addr count _
    rw [Multiset.coe_erase, lawful_beq_subsingleton instBEqOfDecidableEq instBEqProd]
    rfl

end FirstFit

end SatanKernel
