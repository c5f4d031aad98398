import Mathlib.Data.Nat.Bitwise
import Mathlib.Tactic.Common

/-!
# Masks and alignment on fixed-width naturals

Machine words are naturals below `2 ^ width`.  The masks that round a word down
to a power of two, and the bitwise union of a word with bits below its alignment,
are related here to division and addition, where linear arithmetic decides.
-/

namespace Lib

/-- Bitwise complement of a word of the given width. -/
def complement (width word : Nat) : Nat := 2 ^ width - 1 - word

theorem testBit_complement {width word : Nat} (bounded : word < 2 ^ width)
    (bit : Nat) :
    (complement width word).testBit bit =
      (decide (bit < width) && !word.testBit bit) := by
  have shape : complement width word = 2 ^ width - (word + 1) := by
    unfold complement
    omega
  rw [shape, Nat.testBit_two_pow_sub_succ bounded]

/-- Masking with the complement of `2 ^ k - 1` rounds down to a multiple of
`2 ^ k`. -/
theorem and_complement_low {width word k : Nat} (bounded : word < 2 ^ width)
    (fits : k ≤ width) :
    word &&& complement width (2 ^ k - 1) = word / 2 ^ k * 2 ^ k := by
  have lowBounded : 2 ^ k - 1 < 2 ^ width := by
    have := Nat.pow_le_pow_right (n := 2) (by decide) fits
    have := Nat.two_pow_pos k
    omega
  apply Nat.eq_of_testBit_eq
  intro bit
  rw [Nat.testBit_and, testBit_complement lowBounded,
    Nat.testBit_two_pow_sub_one, Nat.testBit_mul_two_pow,
    Nat.testBit_div_two_pow]
  by_cases low : bit < k
  · simp [low, Nat.not_le.mpr low]
  · have restored : bit - k + k = bit := by omega
    rw [restored]
    by_cases inside : bit < width
    · simp [low, inside, Nat.not_lt.mp low]
    · have clear : word.testBit bit = false :=
        Nat.testBit_eq_false_of_lt (lt_of_lt_of_le bounded
          (Nat.pow_le_pow_right (by decide) (Nat.not_lt.mp inside)))
      simp [clear]

/-- The bits of an aligned word and of a word below its alignment do not meet. -/
theorem or_of_aligned {word low k : Nat} (aligned : word % 2 ^ k = 0)
    (small : low < 2 ^ k) : word ||| low = word + low := by
  have split : word = 2 ^ k * (word / 2 ^ k) := by
    have := Nat.div_add_mod word (2 ^ k)
    omega
  rw [split, ← Nat.two_pow_add_eq_or_of_lt small]

/-- The bits of an aligned word below its alignment are clear. -/
theorem testBit_of_aligned {word k bit : Nat} (aligned : word % 2 ^ k = 0)
    (low : bit < k) : word.testBit bit = false := by
  have masked := Nat.testBit_mod_two_pow word k bit
  rw [aligned, Nat.zero_testBit] at masked
  simpa [low] using masked.symm

/-- Masking with one bit tests it. -/
theorem and_two_pow_ne_zero (word bit : Nat) :
    word &&& 2 ^ bit ≠ 0 ↔ word.testBit bit = true := by
  rw [Nat.and_two_pow]
  cases word.testBit bit with
  | true => simp
  | false => simp

/-- A word is assembled from its low bits, one bit at a time. -/
theorem mod_two_pow_succ (word bit : Nat) :
    word % 2 ^ (bit + 1) =
      word % 2 ^ bit + if word.testBit bit then 2 ^ bit else 0 := by
  rw [Nat.pow_succ, Nat.mod_mul, ← Nat.toNat_testBit]
  cases word.testBit bit with
  | true => simp
  | false => simp

end Lib
