import Mathlib.Algebra.GroupWithZero.Nat
import Mathlib.Order.CompletePartialOrder
import Mathlib.Order.Interval.Finset.Nat
import Mathlib.Order.Interval.Set.Disjoint
import Mathlib.Tactic.Common

/-!
# Tilings of an interval

A list of pieces, each with a first position and a size, tiles an interval when the
pieces are laid end to end from its start to its end.  Pieces of a tiling are disjoint
and together cover exactly the interval.
-/

namespace Lib

variable {β : Type} (first size : β → Nat)

/-- The positions of a piece. -/
def extent (piece : β) : Set Nat := Set.Ico (first piece) (first piece + size piece)

/-- The pieces lie end to end from `start` to `stop`. -/
def Tiles (start : Nat) (pieces : List β) (stop : Nat) : Prop :=
  match pieces with
  | [] => start = stop
  | piece :: rest => first piece = start ∧ Tiles (start + size piece) rest stop

variable {first size}

@[simp] theorem tiles_nil {start stop : Nat} :
    Tiles first size start [] stop ↔ start = stop := by
  rw [Tiles]

@[simp] theorem tiles_cons {start stop : Nat} {piece : β} {rest : List β} :
    Tiles first size start (piece :: rest) stop ↔
      first piece = start ∧ Tiles first size (start + size piece) rest stop := by
  rw [Tiles]

/-- Two adjacent tilings form one. -/
theorem Tiles.append {start middle stop : Nat} {left right : List β}
    (leftTiles : Tiles first size start left middle)
    (rightTiles : Tiles first size middle right stop) :
    Tiles first size start (left ++ right) stop := by
  induction left generalizing start with
  | nil =>
      rw [tiles_nil] at leftTiles
      rwa [leftTiles, List.nil_append]
  | cons piece rest ih =>
      rw [tiles_cons] at leftTiles
      rw [List.cons_append, tiles_cons]
      exact ⟨leftTiles.1, ih leftTiles.2⟩

theorem Tiles.le {start stop : Nat} {pieces : List β}
    (tiles : Tiles first size start pieces stop) : start ≤ stop := by
  induction pieces generalizing start with
  | nil => exact (tiles_nil.mp tiles).le
  | cons piece rest ih =>
      have rest := ih (tiles_cons.mp tiles).2
      omega

/-- The sizes add up to the size of the interval. -/
theorem Tiles.sum_size {start stop : Nat} {pieces : List β}
    (tiles : Tiles first size start pieces stop) : start + (pieces.map size).sum = stop := by
  induction pieces generalizing start with
  | nil => exact tiles_nil.mp tiles
  | cons piece rest ih =>
      rw [List.map_cons, List.sum_cons, ← Nat.add_assoc]
      exact ih (tiles_cons.mp tiles).2

/-- Every piece lies inside of the tiled interval. -/
theorem Tiles.extent_subset {start stop : Nat} {pieces : List β}
    (tiles : Tiles first size start pieces stop) {piece : β} (member : piece ∈ pieces) :
    extent first size piece ⊆ Set.Ico start stop := by
  induction pieces generalizing start with
  | nil => cases member
  | cons head rest ih =>
      rw [tiles_cons] at tiles
      have reach := tiles.2.le
      cases List.mem_cons.mp member with
      | inl equal =>
          rw [equal, extent, tiles.1]
          exact Set.Ico_subset_Ico_right reach
      | inr inRest =>
          exact (ih tiles.2 inRest).trans (Set.Ico_subset_Ico_left (by omega))

/-- Distinct pieces are disjoint. -/
theorem Tiles.pairwise_disjoint {start stop : Nat} {pieces : List β}
    (tiles : Tiles first size start pieces stop) :
    pieces.Pairwise fun left right =>
      Disjoint (extent first size left) (extent first size right) := by
  induction pieces generalizing start with
  | nil => exact List.Pairwise.nil
  | cons head rest ih =>
      rw [tiles_cons] at tiles
      apply List.Pairwise.cons _ (ih tiles.2)
      intro other member
      apply Disjoint.mono_right (tiles.2.extent_subset member)
      rw [extent, tiles.1]
      exact Set.Ico_disjoint_Ico_same

/-- The pieces cover the tiled interval. -/
theorem Tiles.exists_mem {start stop position : Nat} {pieces : List β}
    (tiles : Tiles first size start pieces stop)
    (inside : position ∈ Set.Ico start stop) :
    ∃ piece ∈ pieces, position ∈ extent first size piece := by
  induction pieces generalizing start with
  | nil =>
      rw [tiles_nil.mp tiles, Set.Ico_self] at inside
      exact inside.elim
  | cons head rest ih =>
      rw [tiles_cons] at tiles
      by_cases here : position < start + size head
      · exact ⟨head, by simp, by rw [extent, tiles.1]; exact ⟨inside.1, here⟩⟩
      · obtain ⟨piece, member, covered⟩ := ih tiles.2 ⟨Nat.not_lt.mp here, inside.2⟩
        exact ⟨piece, List.mem_cons_of_mem _ member, covered⟩

/-! ## Disjoint pieces -/

/-- As many positions as the sizes add up to are covered by disjoint pieces. -/
theorem exists_card_eq_sum {pieces : List β}
    (disjoint : pieces.Pairwise fun left right =>
      Disjoint (extent first size left) (extent first size right)) :
    ∃ positions : Finset Nat, positions.card = (pieces.map size).sum ∧
      ∀ position, position ∈ positions ↔
        ∃ piece ∈ pieces, position ∈ extent first size piece := by
  induction pieces with
  | nil => exact ⟨∅, by simp, by simp⟩
  | cons piece rest ih =>
      obtain ⟨apart, restDisjoint⟩ := List.pairwise_cons.mp disjoint
      obtain ⟨positions, cardinality, covered⟩ := ih restDisjoint
      have fresh : Disjoint (Finset.Ico (first piece) (first piece + size piece)) positions := by
        rw [Finset.disjoint_left]
        intro position inside member
        obtain ⟨other, otherMember, alsoInside⟩ := (covered position).mp member
        exact Set.disjoint_left.mp (apart other otherMember) (Finset.mem_Ico.mp inside)
          alsoInside
      refine ⟨Finset.Ico (first piece) (first piece + size piece) ∪ positions, ?_, ?_⟩
      · rw [Finset.card_union_of_disjoint fresh, Nat.card_Ico, cardinality, List.map_cons,
          List.sum_cons, Nat.add_sub_cancel_left]
      · intro position
        rw [Finset.mem_union, covered, Finset.mem_Ico, List.exists_mem_cons_iff]
        rfl

/-- Disjoint pieces of an interval are together at most as large as the interval. -/
theorem sum_size_le {pieces : List β} (start stop : Nat)
    (disjoint : pieces.Pairwise fun left right =>
      Disjoint (extent first size left) (extent first size right))
    (inside : ∀ piece ∈ pieces, extent first size piece ⊆ Set.Ico start stop) :
    (pieces.map size).sum ≤ stop - start := by
  obtain ⟨positions, cardinality, covered⟩ := exists_card_eq_sum disjoint
  rw [← cardinality, ← Nat.card_Ico]
  apply Finset.card_le_card
  intro position member
  obtain ⟨piece, pieceMember, here⟩ := (covered position).mp member
  exact Finset.mem_Ico.mpr (inside piece pieceMember here)

end Lib
