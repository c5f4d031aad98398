import Mathlib.Algebra.Group.Nat.Defs
import Mathlib.Tactic.Common

/-!
# Memory of bytes

Memory that is addressed by bytes and accessed in little-endian words of 32 bits, at
any address.  `fillWords` stores an arithmetic progression into consecutive words.
-/

namespace Lib

/-- The byte at each address. -/
abbrev Bytes := Nat → BitVec 8

namespace Bytes

/-- The word at an address. -/
def loadWord (bytes : Bytes) (address : Nat) : Nat :=
  (bytes address).toNat + 0x100 * (bytes (address + 1)).toNat +
    0x10000 * (bytes (address + 2)).toNat + 0x1000000 * (bytes (address + 3)).toNat

/-- Overwrite the word at an address. -/
def storeWord (bytes : Bytes) (address value : Nat) : Bytes := fun position =>
  if address ≤ position ∧ position < address + 4 then
    BitVec.ofNat 8 (value / 0x100 ^ (position - address))
  else bytes position

variable (bytes : Bytes)

theorem storeWord_inside (address value : Nat) {offset : Nat} (inside : offset < 4) :
    bytes.storeWord address value (address + offset) =
      BitVec.ofNat 8 (value / 0x100 ^ offset) := by
  have range : address ≤ address + offset ∧ address + offset < address + 4 := by omega
  rw [storeWord, if_pos range, Nat.add_sub_cancel_left]

/-- What was stored is loaded. -/
theorem loadWord_storeWord_self (address : Nat) {value : Nat} (fits : value < 2 ^ 32) :
    (bytes.storeWord address value).loadWord address = value := by
  have first := storeWord_inside bytes address value (show 0 < 4 by decide)
  rw [Nat.add_zero] at first
  rw [loadWord, first, storeWord_inside bytes address value (show 1 < 4 by decide),
    storeWord_inside bytes address value (show 2 < 4 by decide),
    storeWord_inside bytes address value (show 3 < 4 by decide)]
  simp only [BitVec.toNat_ofNat]
  omega

/-- Words that do not overlap are independent. -/
theorem loadWord_storeWord_of_disjoint {address other : Nat} (value : Nat)
    (disjoint : other + 4 ≤ address ∨ address + 4 ≤ other) :
    (bytes.storeWord address value).loadWord other = bytes.loadWord other := by
  have outside : ∀ offset < 4,
      bytes.storeWord address value (other + offset) = bytes (other + offset) := by
    intro offset small
    apply if_neg
    omega
  have first := outside 0 (by decide)
  rw [Nat.add_zero] at first
  rw [loadWord, first, outside 1 (by decide), outside 2 (by decide), outside 3 (by decide),
    loadWord]

/-- Store `first ||| mark`, `(first + stride) ||| mark` and so on into `count` words. -/
def fillWords (bytes : Bytes) (address first stride mark : Nat) : Nat → Bytes
  | 0 => bytes
  | count + 1 =>
      (bytes.storeWord address (first ||| mark)).fillWords (address + 4) (first + stride)
        stride mark count

theorem loadWord_fillWords_of_disjoint (bytes : Bytes) {address other : Nat}
    (first stride mark count : Nat)
    (disjoint : other + 4 ≤ address ∨ address + 4 * count ≤ other) :
    (bytes.fillWords address first stride mark count).loadWord other = bytes.loadWord other := by
  induction count generalizing bytes address first with
  | zero => rfl
  | succ count ih =>
      rw [fillWords, ih _ _ (by omega), loadWord_storeWord_of_disjoint _ _ (by omega)]

theorem loadWord_fillWords {address first stride mark count index : Nat}
    (inside : index < count) (fits : (first + stride * index) ||| mark < 2 ^ 32) :
    (bytes.fillWords address first stride mark count).loadWord (address + 4 * index) =
      (first + stride * index) ||| mark := by
  induction count generalizing bytes address first index with
  | zero => omega
  | succ count ih =>
      rw [fillWords]
      cases index with
      | zero =>
          simp only [Nat.mul_zero, Nat.add_zero] at fits ⊢
          rw [loadWord_fillWords_of_disjoint _ _ _ _ _ (Or.inl (Nat.le_refl _)),
            loadWord_storeWord_self _ _ fits]
      | succ index =>
          have position : address + 4 * (index + 1) = address + 4 + 4 * index := by omega
          have value : first + stride * (index + 1) = first + stride + stride * index := by
            rw [Nat.mul_succ]
            omega
          rw [value] at fits ⊢
          rw [position]
          exact ih _ (by omega) fits

end Bytes

end Lib
