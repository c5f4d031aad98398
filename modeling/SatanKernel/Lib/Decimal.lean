import Mathlib.Algebra.Order.Floor.Semifield
import Mathlib.Data.Rat.Floor

/-!
# Decimal numbers

Truncation to multiples of a grain, and unsigned decimal numbers as they stand in a
text: digits, or digits, a point and further digits.
-/

namespace Lib

section Truncation

variable {K : Type*} [Field K] [LinearOrder K] [IsStrictOrderedRing K] [FloorSemiring K]

/-- The greatest multiple of `grain` that is at most `x`. -/
def truncate (grain x : K) : K := ⌊x / grain⌋₊ * grain

variable {grain x y : K}

theorem truncate_le (positive : 0 < grain) (nonnegative : 0 ≤ x) :
    truncate grain x ≤ x := by
  rw [truncate, ← le_div_iff₀ positive]
  exact Nat.floor_le (div_nonneg nonnegative positive.le)

theorem lt_truncate_add (positive : 0 < grain) : x < truncate grain x + grain := by
  have below := Nat.lt_floor_add_one (x / grain)
  rw [div_lt_iff₀ positive, add_mul, one_mul] at below
  exact below

/-- A multiple of the grain that is at most `x` is at most the truncation of `x`. -/
theorem le_truncate (positive : 0 < grain) {count : ℕ} (below : count * grain ≤ x) :
    count * grain ≤ truncate grain x := by
  have counted : count ≤ ⌊x / grain⌋₊ :=
    Nat.le_floor ((le_div_iff₀ positive).mpr below)
  exact mul_le_mul_of_nonneg_right (Nat.cast_le.mpr counted) positive.le

/-- Truncations to two grains keep the order when a multiple of the second grain lies
between the numbers. -/
theorem truncate_le_truncate {other : K} (count : ℕ) (positive : 0 < grain)
    (otherPositive : 0 < other) (nonnegative : 0 ≤ x) (above : x ≤ count * other)
    (below : count * other ≤ y) : truncate grain x ≤ truncate other y :=
  calc truncate grain x ≤ x := truncate_le positive nonnegative
    _ ≤ count * other := above
    _ ≤ truncate other y := le_truncate otherPositive below

/-- Truncation to one grain is monotone. -/
theorem truncate_mono (positive : 0 < grain) (nonnegative : 0 ≤ x) (ordered : x ≤ y) :
    truncate grain x ≤ truncate grain y :=
  le_truncate positive ((truncate_le positive nonnegative).trans ordered)

end Truncation

/-- An unsigned decimal number: `mantissa / 10 ^ decimals`. -/
structure Decimal where
  mantissa : Nat
  decimals : Nat
  deriving DecidableEq, Repr

namespace Decimal

/-- The number that is written. -/
def value (number : Decimal) : ℚ := number.mantissa / 10 ^ number.decimals

/-- Read a decimal number from the front of a text, and return what follows it. -/
def read (text : List Char) : Option (Decimal × List Char) :=
  let whole := text.takeWhile Char.isDigit
  if whole = [] then none
  else match text.dropWhile Char.isDigit with
    | '.' :: fraction =>
        let digits := fraction.takeWhile Char.isDigit
        if digits = [] then none
        else some (⟨Nat.ofDigitChars 10 (whole ++ digits) 0, digits.length⟩,
          fraction.dropWhile Char.isDigit)
    | rest => some (⟨Nat.ofDigitChars 10 whole 0, 0⟩, rest)

theorem isDigit_toDigits (n : Nat) : ∀ c ∈ Nat.toDigits 10 n, c.isDigit = true :=
  fun _ => Nat.isDigit_of_mem_toDigits (by decide) (by decide)

/-- The digits of a number end where a character that is no digit follows. -/
theorem takeWhile_toDigits (n : Nat) {next : Char} (stops : next.isDigit = false)
    (rest : List Char) :
    (Nat.toDigits 10 n ++ next :: rest).takeWhile Char.isDigit = Nat.toDigits 10 n := by
  rw [List.takeWhile_append_of_pos (isDigit_toDigits n),
    List.takeWhile_cons_of_neg (by simp [stops]), List.append_nil]

theorem dropWhile_toDigits (n : Nat) {next : Char} (stops : next.isDigit = false)
    (rest : List Char) :
    (Nat.toDigits 10 n ++ next :: rest).dropWhile Char.isDigit = next :: rest := by
  rw [List.dropWhile_append_of_pos (isDigit_toDigits n),
    List.dropWhile_cons_of_neg (by simp [stops])]

/-- A printed natural number is read back. -/
theorem read_toDigits (n : Nat) {next : Char} (stops : next.isDigit = false)
    (noPoint : next ≠ '.') (rest : List Char) :
    read (Nat.toDigits 10 n ++ next :: rest) = some (⟨n, 0⟩, next :: rest) := by
  rw [read, takeWhile_toDigits n stops, dropWhile_toDigits n stops,
    if_neg Nat.toDigits_ne_nil, Nat.ofDigitChars_ten_toDigits]
  split
  next isPoint => exact absurd (List.cons.inj isPoint).1 noPoint
  next => rfl

/-- A natural number that is printed with one further digit after a point is read back
as a number of tenths. -/
theorem read_toDigits_point (n : Nat) {digit : Nat} (single : digit < 10) {next : Char}
    (stops : next.isDigit = false) (rest : List Char) :
    read (Nat.toDigits 10 n ++ '.' :: (Nat.toDigits 10 digit ++ next :: rest)) =
      some (⟨10 * n + digit, 1⟩, next :: rest) := by
  have tenths : Nat.ofDigitChars 10 (Nat.toDigits 10 n ++ Nat.toDigits 10 digit) 0 =
      10 * n + digit := by
    rw [Nat.ofDigitChars_append, Nat.ofDigitChars_ten_toDigits,
      Nat.toDigits_of_lt_base single, Nat.ofDigitChars_cons_digitChar_of_lt_ten single,
      Nat.ofDigitChars_nil]
  rw [read, takeWhile_toDigits n (by decide), dropWhile_toDigits n (by decide),
    if_neg Nat.toDigits_ne_nil]
  simp only [takeWhile_toDigits digit stops, dropWhile_toDigits digit stops, tenths,
    if_neg Nat.toDigits_ne_nil]
  rw [Nat.toDigits_of_lt_base single, List.length_singleton]

/-- A number whose mantissa is a quotient truncates it. -/
theorem value_mul_eq_truncate (decimals n unit : Nat) :
    value ⟨10 ^ decimals * n / unit, decimals⟩ * unit =
      truncate ((unit : ℚ) / 10 ^ decimals) n := by
  have scaled : (n : ℚ) / ((unit : ℚ) / 10 ^ decimals) =
      ((10 ^ decimals * n : ℕ) : ℚ) / (unit : ℚ) := by
    rw [div_div_eq_mul_div, Nat.cast_mul, Nat.cast_pow, Nat.cast_ofNat, mul_comm]
  rw [truncate, scaled, Nat.floor_div_eq_div, value]
  ring

end Decimal

end Lib
