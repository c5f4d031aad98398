import SatanKernel.Lib.Decimal
import SatanKernel.Memory.Basic

/-!
# Sizes with a unit

`FormatSize` of `memory.rs` and its `Display` implementation.  A `u64` is a `UInt64`;
multiplication that overflows it and shifts by its width or more panic.

`readSize` reads a printed size back.  What the text means is the number in front of the
unit times the unit.
-/

namespace SatanKernel

open Lib

/-- `core::fmt::Error`. -/
inductive FmtError where
  | error
  deriving DecidableEq, Repr

/-- What a `Display` implementation asks of its formatter. -/
inductive FormatterOp where
  | writeFmt (text : String)

/-- `core::fmt::Formatter`: writing a text succeeds or fails. -/
def formatter : Signature where
  Op := FormatterOp
  Answer _ := Except FmtError Unit

/-- `write!`, after its arguments are evaluated. -/
def writeFmt (text : String) : Program formatter FmtError Unit := do
  let result ← Program.perform (FormatterOp.writeFmt text : formatter.Op)
  Program.ofExcept result

section Arithmetic

variable {sig : Signature} {ε : Type}

/-- `a * b` on `u64`. -/
def checkedMulU64 (a b : UInt64) : Program sig ε UInt64 :=
  if a.toNat * b.toNat < 2 ^ 64 then .ret (a * b) else .panic

/-- `a >> bits` on `u64`. -/
def checkedShrU64 (a : UInt64) (bits : Nat) : Program sig ε UInt64 :=
  if bits < 64 then .ret (a >>> UInt64.ofNat bits) else .panic

theorem checkedMulU64_of_lt {a b : UInt64} (bounded : a.toNat * b.toNat < 2 ^ 64) :
    (checkedMulU64 a b : Program sig ε UInt64) = .ret (a * b) := if_pos bounded

theorem checkedShrU64_of_lt {a : UInt64} {bits : Nat} (bounded : bits < 64) :
    (checkedShrU64 a bits : Program sig ε UInt64) = .ret (a >>> UInt64.ofNat bits) :=
  if_pos bounded

end Arithmetic

/-- Wrap a u64 in this struct to display it with size postfix (KiB, MiB, GiB, etc.) -/
structure FormatSize where
  value : UInt64
  deriving DecidableEq, Repr

namespace FormatSize

def orders : List String := ["B", "KiB", "MiB", "GiB", "TiB", "PiB"]

/-- The `while` loop of `fmt`.  The index `order` stays below `orders.length`, so its sums
stay far below the range of `usize`. -/
def scale (value : UInt64) (order : Nat) : UInt64 × Nat :=
  if value ≥ (1 : UInt64) <<< 10 ∧ order + 1 < orders.length then
    scale (value >>> 10) (order + 1)
  else (value, order)
termination_by orders.length - order

def fmt (size : FormatSize) : Program formatter FmtError Unit := do
  let (value, order) := scale size.value 0
  if value ≥ 10 then
    let suffix ← Program.unwrap orders[order]?
    writeFmt (toString value ++ " " ++ suffix)
  else
    let product ← checkedMulU64 size.value 10
    let bits ← checkedMul order 10
    let shifted ← checkedShrU64 product bits
    let suffix ← Program.unwrap orders[order]?
    writeFmt (toString value ++ "." ++ toString (shifted % 10) ++ " " ++ suffix)

/-- A formatter that collects the text. -/
def stringFormatter : Handler formatter String
  | .writeFmt text, written => some (.ok (), written ++ text)

/-- The text of a size: `to_string`. -/
def display (size : FormatSize) : String :=
  (Program.run stringFormatter size.fmt "").2

/-! ## Reading a printed size -/

/-- A size as its text gives it: a decimal number and the index of its unit. -/
structure PrintedSize where
  number : Decimal
  order : Nat
  deriving DecidableEq, Repr

/-- The size in bytes. -/
def PrintedSize.bytes (printed : PrintedSize) : ℚ :=
  printed.number.value * 1024 ^ printed.order

/-- Read a number, a space and a unit. -/
def readSize (text : String) : Option PrintedSize :=
  match Decimal.read text.toList with
  | some (number, ' ' :: suffix) =>
      (orders.idxOf? (String.ofList suffix)).map fun order => ⟨number, order⟩
  | _ => none

/-! ## The loop -/

/-- What holds of the two variables of the loop when it prints `n`. -/
structure Scaled (n : Nat) (value : UInt64) (order : Nat) : Prop where
  value_eq : value.toNat = n / 1024 ^ order
  inRange : order < orders.length
  passed : ∀ smaller < order, 1024 ^ (smaller + 1) ≤ n

theorem Scaled.initial (n : UInt64) : Scaled n.toNat n 0 where
  value_eq := by rw [Nat.pow_zero, Nat.div_one]
  inRange := by decide
  passed := by simp

/-- One iteration of the loop. -/
theorem Scaled.step {n : Nat} {value : UInt64} {order : Nat} (scaled : Scaled n value order)
    (large : value ≥ (1 : UInt64) <<< 10) (more : order + 1 < orders.length) :
    Scaled n (value >>> 10) (order + 1) where
  value_eq := by
    rw [UInt64.toNat_shiftRight, scaled.value_eq, Nat.pow_succ, ← Nat.div_div_eq_div_mul]
    exact Nat.shiftRight_eq_div_pow _ 10
  inRange := more
  passed smaller below := by
    rcases Nat.lt_succ_iff_lt_or_eq.mp below with earlier | rfl
    · exact scaled.passed smaller earlier
    · have reached : 1024 ≤ n / 1024 ^ smaller := by
        rw [← scaled.value_eq]
        exact large
      rw [Nat.pow_succ, Nat.mul_comm]
      exact (Nat.le_div_iff_mul_le (by positivity)).mp reached

/-- The loop keeps its invariant. -/
theorem Scaled.scale {n : Nat} {value : UInt64} {order : Nat} (scaled : Scaled n value order) :
    Scaled n (scale value order).1 (scale value order).2 := by
  fun_induction FormatSize.scale value order with
  | case1 value order continues ih => exact ih (scaled.step continues.1 continues.2)
  | case2 value order stops => exact scaled

/-- The loop ends with a value below 1024 or with the last unit. -/
theorem scale_stops (value : UInt64) (order : Nat) :
    (scale value order).1.toNat < 1024 ∨ orders.length ≤ (scale value order).2 + 1 := by
  fun_induction scale value order with
  | case1 value order continues ih => exact ih
  | case2 value order stops =>
      by_contra running
      rw [not_or, not_lt, not_le] at running
      exact stops running

/-- The loop ends with the least unit in which the size has at most four digits before the
point, or with the last one. -/
theorem scale_isLeast (n : UInt64) :
    IsLeast {order | n.toNat < 1024 ^ (order + 1) ∨ order = 5} (scale n 0).2 := by
  have scaled := (Scaled.initial n).scale
  constructor
  · rcases scale_stops n 0 with small | last
    · left
      rw [scaled.value_eq, Nat.div_lt_iff_lt_mul (by positivity)] at small
      rw [Nat.pow_succ, Nat.mul_comm]
      exact small
    · right
      exact Nat.le_antisymm (Nat.le_of_lt_succ scaled.inRange) (Nat.le_of_succ_le_succ last)
  · rintro order (fits | rfl)
    · by_contra smaller
      exact absurd fits (not_lt.mpr (scaled.passed order (not_le.mp smaller)))
    · exact Nat.le_of_lt_succ scaled.inRange

/-- At least ten of the chosen unit are printed without a fraction. -/
theorem ten_le_scale_iff (n : UInt64) :
    (scale n 0).1 ≥ 10 ↔ 10 * 1024 ^ (scale n 0).2 ≤ n.toNat := by
  have scaled := (Scaled.initial n).scale
  rw [← Nat.le_div_iff_mul_le (by positivity), ← scaled.value_eq]
  exact UInt64.le_iff_toNat_le

/-- The product of the fraction does not overflow. -/
theorem mul_ten_lt {n : UInt64} (small : ¬ (scale n 0).1 ≥ 10) : n.toNat * 10 < 2 ^ 64 := by
  have inRange := (Scaled.initial n).scale.inRange
  have largest : 1024 ^ (scale n 0).2 ≤ 1024 ^ 5 :=
    Nat.pow_le_pow_right (by decide) (Nat.le_of_lt_succ inRange)
  rw [ten_le_scale_iff] at small
  omega

/-! ## The text -/

theorem idxOf?_orders {order : Nat} (inRange : order < orders.length) :
    orders.idxOf? orders[order] = some order := by
  have each : ∀ index : Fin orders.length,
      orders.idxOf? (orders.get index) = some index.val := by decide
  exact each ⟨order, inRange⟩

theorem readSize_whole (value : Nat) {order : Nat} (inRange : order < orders.length) :
    readSize (toString value ++ " " ++ orders[order]) = some ⟨⟨value, 0⟩, order⟩ := by
  have characters : (toString value ++ " " ++ orders[order]).toList =
      Nat.toDigits 10 value ++ ' ' :: orders[order].toList := by
    rw [String.toList_append, String.toList_append, Nat.toString_eq_repr, Nat.toList_repr,
      List.append_assoc]
    rfl
  rw [readSize, characters, Decimal.read_toDigits value (by decide) (by decide)]
  simp only [String.ofList_toList, idxOf?_orders inRange, Option.map_some]

theorem readSize_tenths (value : Nat) {digit : Nat} (single : digit < 10) {order : Nat}
    (inRange : order < orders.length) :
    readSize (toString value ++ "." ++ toString digit ++ " " ++ orders[order]) =
      some ⟨⟨10 * value + digit, 1⟩, order⟩ := by
  have characters : (toString value ++ "." ++ toString digit ++ " " ++ orders[order]).toList =
      Nat.toDigits 10 value ++ '.' ::
        (Nat.toDigits 10 digit ++ ' ' :: orders[order].toList) := by
    simp only [String.toList_append, Nat.toString_eq_repr, Nat.toList_repr, List.append_assoc]
    rfl
  rw [readSize, characters, Decimal.read_toDigits_point value single (by decide)]
  simp only [String.ofList_toList, idxOf?_orders inRange, Option.map_some]

/-- What `fmt` prints of `n`, as numbers. -/
def printed (n : UInt64) : PrintedSize :=
  let order := (scale n 0).2
  let decimals := if 10 * 1024 ^ order ≤ n.toNat then 0 else 1
  ⟨⟨10 ^ decimals * n.toNat / 1024 ^ order, decimals⟩, order⟩

theorem printed_whole {n : UInt64} (large : (scale n 0).1 ≥ 10) :
    printed n = ⟨⟨(scale n 0).1.toNat, 0⟩, (scale n 0).2⟩ := by
  have scaled := (Scaled.initial n).scale
  rw [printed, if_pos ((ten_le_scale_iff n).mp large), scaled.value_eq, Nat.pow_zero,
    Nat.one_mul]

/-- The whole part comes from the shifted value and the digit after the point from the
shifted product; together they are the tenths of the unit. -/
theorem printed_tenths {n : UInt64} (small : ¬ (scale n 0).1 ≥ 10) :
    printed n =
      ⟨⟨10 * (scale n 0).1.toNat + n.toNat * 10 / 1024 ^ (scale n 0).2 % 10, 1⟩,
        (scale n 0).2⟩ := by
  have scaled := (Scaled.initial n).scale
  have whole : n.toNat / 1024 ^ (scale n 0).2 =
      n.toNat * 10 / 1024 ^ (scale n 0).2 / 10 := by
    rw [Nat.div_div_eq_div_mul, Nat.mul_div_mul_right _ _ (by decide)]
  rw [printed, if_neg (mt (ten_le_scale_iff n).mpr small), scaled.value_eq, whole,
    Nat.div_add_mod, Nat.pow_one, Nat.mul_comm]

/-- With at least ten of the unit, `fmt` writes the number of whole units. -/
theorem fmt_whole {n : UInt64} (large : (scale n 0).1 ≥ 10)
    (inRange : (scale n 0).2 < orders.length) :
    fmt ⟨n⟩ = writeFmt (toString (scale n 0).1.toNat ++ " " ++ orders[(scale n 0).2]) := by
  simp only [fmt, if_pos large, List.getElem?_eq_getElem inRange]
  rfl

/-- Every unit is within the width of the shifted product. -/
theorem mul_ten_lt_width {order : Nat} (inRange : order < orders.length) : order * 10 < 64 := by
  change order < 6 at inRange
  omega

/-- The digit after the point. -/
theorem toNat_digit {n : UInt64} {order : Nat} (inRange : order < orders.length)
    (fits : n.toNat * 10 < 2 ^ 64) :
    ((n * 10) >>> UInt64.ofNat (order * 10) % 10).toNat =
      n.toNat * 10 / 1024 ^ order % 10 := by
  have width := mul_ten_lt_width inRange
  have range : order * 10 < 2 ^ 64 := width.trans (by decide)
  have unit : 2 ^ (order * 10) = 1024 ^ order := by
    rw [Nat.mul_comm, Nat.pow_mul]
  rw [UInt64.toNat_mod, UInt64.toNat_shiftRight, UInt64.toNat_mul,
    UInt64.toNat_ofNat_of_lt' range, Nat.mod_eq_of_lt width, Nat.shiftRight_eq_div_pow, unit]
  change n.toNat * 10 % 2 ^ 64 / 1024 ^ order % 10 = _
  rw [Nat.mod_eq_of_lt fits]

/-- With less than ten of the unit, `fmt` writes one digit after the point, and nothing on
the way to it overflows. -/
theorem fmt_tenths {n : UInt64} (small : ¬ (scale n 0).1 ≥ 10)
    (inRange : (scale n 0).2 < orders.length) :
    fmt ⟨n⟩ = writeFmt (toString (scale n 0).1.toNat ++ "." ++
      toString (n.toNat * 10 / 1024 ^ (scale n 0).2 % 10) ++ " " ++
      orders[(scale n 0).2]) := by
  have fits := mul_ten_lt small
  have product : n.toNat * (10 : UInt64).toNat < 2 ^ 64 := fits
  have width := mul_ten_lt_width inRange
  have index : (scale n 0).2 * 10 < 2 ^ usizeBits := width.trans (by decide)
  rw [← toNat_digit inRange fits]
  simp only [fmt, if_neg small, checkedMulU64_of_lt product, checkedMul_of_lt index,
    Program.ret_bind, checkedShrU64_of_lt width, List.getElem?_eq_getElem inRange]
  rfl

theorem display_of_fmt {size : FormatSize} {text : String} (writes : size.fmt = writeFmt text) :
    size.display = text := by
  rw [display, writes]
  exact String.empty_append

/-- `fmt` is one `write!` of a text that reads as `printed`. -/
theorem fmt_eq_writeFmt (n : UInt64) :
    fmt ⟨n⟩ = writeFmt (display ⟨n⟩) ∧ readSize (display ⟨n⟩) = some (printed n) := by
  have inRange := (Scaled.initial n).scale.inRange
  by_cases large : (scale n 0).1 ≥ 10
  · have writes := fmt_whole large inRange
    rw [display_of_fmt writes, printed_whole large]
    exact ⟨writes, readSize_whole _ inRange⟩
  · have writes := fmt_tenths large inRange
    rw [display_of_fmt writes, printed_tenths large]
    exact ⟨writes, readSize_tenths _ (Nat.mod_lt _ (by decide)) inRange⟩

/-! ## Truncation -/

/-- The size that one step of the last printed digit stands for. -/
def PrintedSize.grain (printed : PrintedSize) : ℚ :=
  1024 ^ printed.order / 10 ^ printed.number.decimals

theorem PrintedSize.grain_pos (printed : PrintedSize) : 0 < printed.grain := by
  rw [grain]
  positivity

/-- The printed size is the size truncated to its last digit. -/
theorem bytes_printed (n : UInt64) :
    (printed n).bytes = truncate (printed n).grain n.toNat := by
  have quotient := Decimal.value_mul_eq_truncate (printed n).number.decimals n.toNat
    (1024 ^ (printed n).order)
  rw [Nat.cast_pow, Nat.cast_ofNat] at quotient
  exact quotient

theorem bytes_printed_le (n : UInt64) : (printed n).bytes ≤ n.toNat := by
  rw [bytes_printed]
  exact truncate_le (printed n).grain_pos (Nat.cast_nonneg _)

theorem lt_bytes_printed_add (n : UInt64) :
    n.toNat < (printed n).bytes + (printed n).grain := by
  rw [bytes_printed]
  exact lt_truncate_add (printed n).grain_pos

/-- Two sizes are printed in order if some number of units of the second one lies between
them. -/
theorem bytes_printed_le_of_between {n m : UInt64} (count : Nat)
    (above : n.toNat ≤ count * 1024 ^ (scale m 0).2)
    (below : count * 1024 ^ (scale m 0).2 ≤ m.toNat) :
    (printed n).bytes ≤ (printed m).bytes := by
  have multiple : ((count * 10 ^ (printed m).number.decimals : ℕ) : ℚ) * (printed m).grain =
      ((count * 1024 ^ (printed m).order : ℕ) : ℚ) := by
    rw [PrintedSize.grain]
    push_cast
    field_simp
  rw [bytes_printed, bytes_printed]
  apply truncate_le_truncate (count * 10 ^ (printed m).number.decimals)
    (printed n).grain_pos (printed m).grain_pos (Nat.cast_nonneg _)
  · rw [multiple]
    exact Nat.cast_le.mpr above
  · rw [multiple]
    exact Nat.cast_le.mpr below

/-- Sizes that are printed with the same unit and the same number of digits are printed in
order. -/
theorem bytes_printed_le_of_grain {n m : UInt64} (ordered : n.toNat ≤ m.toNat)
    (same : (printed n).grain = (printed m).grain) :
    (printed n).bytes ≤ (printed m).bytes := by
  rw [bytes_printed, bytes_printed, same]
  exact truncate_mono (printed m).grain_pos (Nat.cast_nonneg _) (Nat.cast_le.mpr ordered)

/-- A larger size has no smaller unit. -/
theorem order_mono {n m : UInt64} (ordered : n.toNat ≤ m.toNat) :
    (scale n 0).2 ≤ (scale m 0).2 := by
  apply (scale_isLeast n).2
  exact (scale_isLeast m).1.imp ordered.trans_lt id

/-- A size with a smaller unit is below the unit of a size with a larger one. -/
theorem between_units {n m : UInt64} (smaller : (scale n 0).2 < (scale m 0).2) :
    n.toNat ≤ 1024 ^ (scale m 0).2 ∧ 1024 ^ (scale m 0).2 ≤ m.toNat := by
  have scaled := (Scaled.initial m).scale
  constructor
  · rcases (scale_isLeast n).1 with fits | last
    · exact fits.le.trans (Nat.pow_le_pow_right (by decide) smaller)
    · rw [last] at smaller
      exact absurd scaled.inRange (not_lt.mpr smaller)
  · have reached := scaled.passed ((scale m 0).2 - 1) (by omega)
    rw [Nat.sub_add_cancel (by omega)] at reached
    exact reached

/-- Printed sizes are monotone. -/
theorem bytes_printed_mono {n m : UInt64} (ordered : n.toNat ≤ m.toNat) :
    (printed n).bytes ≤ (printed m).bytes := by
  rcases (order_mono ordered).lt_or_eq with smaller | same
  · obtain ⟨above, below⟩ := between_units smaller
    rw [← one_mul (1024 ^ _)] at above below
    exact bytes_printed_le_of_between 1 above below
  · by_cases between :
        n.toNat < 10 * 1024 ^ (scale m 0).2 ∧ 10 * 1024 ^ (scale m 0).2 ≤ m.toNat
    · exact bytes_printed_le_of_between 10 between.1.le between.2
    · -- neither or both sizes have a digit after the point
      have sameRange : 10 * 1024 ^ (scale m 0).2 ≤ n.toNat ↔
          10 * 1024 ^ (scale m 0).2 ≤ m.toNat := by omega
      apply bytes_printed_le_of_grain ordered
      simp only [PrintedSize.grain, printed, same, sameRange]

/-- The loop finds the least unit, the product of the fraction is computed only where it
fits, and `fmt` is one `write!` of a text that reads as the size truncated to its last
digit.  The sizes that the texts give are monotone. -/
theorem display_truncates :
    (∀ n : UInt64, ∃ (value : UInt64) (order : Nat) (number : Decimal),
      scale n 0 = (value, order) ∧ order ≤ 5 ∧
      IsLeast {k : Nat | n.toNat < 1024 ^ (k + 1) ∨ k = 5} order ∧
      (¬ value ≥ 10 → n.toNat * 10 < 2 ^ 64) ∧
      fmt ⟨n⟩ = writeFmt (display ⟨n⟩) ∧
      readSize (display ⟨n⟩) = some ⟨number, order⟩ ∧
      number.decimals = (if n.toNat ≥ 10 * 1024 ^ order then 0 else 1) ∧
      number.value * 1024 ^ order ≤ n.toNat ∧
      n.toNat < (number.value + 1 / 10 ^ number.decimals) * 1024 ^ order) ∧
    ∀ n m : UInt64, n ≤ m → ∀ first second : PrintedSize,
      readSize (display ⟨n⟩) = some first → readSize (display ⟨m⟩) = some second →
      first.bytes ≤ second.bytes := by
  constructor
  · intro n
    refine ⟨(scale n 0).1, (scale n 0).2, (printed n).number, rfl,
      (scale_isLeast n).2 (.inr rfl), scale_isLeast n, mul_ten_lt, (fmt_eq_writeFmt n).1,
      (fmt_eq_writeFmt n).2, rfl, bytes_printed_le n, ?_⟩
    rw [add_mul, one_div_mul_eq_div]
    exact lt_bytes_printed_add n
  · intro n m ordered first second firstRead secondRead
    rw [(fmt_eq_writeFmt n).2, Option.some.injEq] at firstRead
    rw [(fmt_eq_writeFmt m).2, Option.some.injEq] at secondRead
    rw [← firstRead, ← secondRead]
    exact bytes_printed_mono (UInt64.le_iff_toNat_le.mp ordered)

theorem display_truncates_across_units :
    display ⟨1023⟩ = "1023 B" ∧ display ⟨1024⟩ = "1.0 KiB" ∧
      PrintedSize.bytes ⟨⟨1023, 0⟩, 0⟩ ≤ PrintedSize.bytes ⟨⟨10, 1⟩, 1⟩ :=
  ⟨by decide +kernel, by decide +kernel,
    display_truncates.2 1023 1024 (by decide) _ _ (by decide +kernel) (by decide +kernel)⟩

example : display ⟨10239⟩ = "9.9 KiB" := by decide +kernel

example : display ⟨10240⟩ = "10 KiB" := by decide +kernel

end FormatSize

end SatanKernel
