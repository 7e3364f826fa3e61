/-
# Binary64 arithmetic on nonnegative rationals

JavaScript numbers are IEEE 754 binary64.  For nonnegative numbers away from
overflow and the subnormal range an operation returns the exact result
rounded to 53 significant bits, ties to even.

* `exponent x` is the `e` with `2^e ≤ x < 2^(e+1)`,
* `roundNearest x` is `x` rounded to a multiple of `2^(e-52)`,
* `mul` and `div` are the rounded operations,
* `sub_roundNearest_le` is the relative error bound `2^(-53)`.
-/
import Mathlib.Tactic
import Mathlib.Data.Rat.Floor

namespace Binary64

/-- The power `2^k` for an integer exponent, by cases so that it evaluates. -/
def pow2 : ℤ → ℚ
  | .ofNat n => (2 ^ n : ℕ)
  | .negSucc n => 1 / (2 ^ (n + 1) : ℕ)

theorem pow2_eq_zpow (k : ℤ) : pow2 k = (2 : ℚ) ^ k := by
  cases k with
  | ofNat n => simp [pow2]
  | negSucc n => simp [pow2, zpow_negSucc]

theorem pow2_pos (k : ℤ) : 0 < pow2 k := by
  rw [pow2_eq_zpow]
  positivity

/-- The difference of the bit lengths: the exponent or one more. -/
def bitGap (x : ℚ) : ℤ := Nat.log2 x.num.natAbs - Nat.log2 x.den

/-- The binary exponent of a positive rational. -/
def exponent (x : ℚ) : ℤ := if pow2 (bitGap x) ≤ x then bitGap x else bitGap x - 1

theorem pow2_exponent_le {x : ℚ} (hx : 0 < x) : pow2 (exponent x) ≤ x := by
  unfold exponent
  split
  · assumption
  · have hn : x.num.natAbs ≠ 0 := by simpa using hx.ne'
    have hnum : (2 : ℚ) ^ Nat.log2 x.num.natAbs ≤ x.num := by
      have h := Nat.log2_self_le hn
      have hpos : 0 < x.num := Rat.num_pos.mpr hx
      have : ((x.num.natAbs : ℤ) : ℚ) = x.num := by rw [Int.natAbs_of_nonneg hpos.le]
      rw [← this]
      exact_mod_cast h
    have hden : (x.den : ℚ) ≤ 2 ^ (Nat.log2 x.den + 1) := by
      exact_mod_cast (Nat.lt_log2_self (n := x.den)).le
    have hd : (0 : ℚ) < x.den := by exact_mod_cast x.den_pos
    calc pow2 (bitGap x - 1)
        = 2 ^ Nat.log2 x.num.natAbs / 2 ^ (Nat.log2 x.den + 1) := by
          rw [pow2_eq_zpow, bitGap, sub_sub, zpow_sub₀ (by norm_num)]
          norm_cast
      _ ≤ x.num / x.den := by gcongr
      _ = x := Rat.num_div_den x

/-- Nearest integer, ties to even. -/
def roundHalfEven (y : ℚ) : ℤ :=
  if y - ⌊y⌋ < 1 / 2 then ⌊y⌋
  else if 1 / 2 < y - ⌊y⌋ then ⌊y⌋ + 1
  else if ⌊y⌋ % 2 = 0 then ⌊y⌋ else ⌊y⌋ + 1

theorem sub_roundHalfEven_le (y : ℚ) : y - roundHalfEven y ≤ 1 / 2 := by
  have h := Int.lt_floor_add_one y
  unfold roundHalfEven
  split
  · linarith
  · split
    · push_cast
      linarith
    · split
      · linarith
      · push_cast
        linarith

/-- `x` rounded to 53 significant bits. -/
def roundNearest (x : ℚ) : ℚ :=
  if x ≤ 0 then 0
  else roundHalfEven (x / pow2 (exponent x - 52)) * pow2 (exponent x - 52)

/-- Rounding loses at most one part in `2^53`. -/
theorem sub_roundNearest_le {x : ℚ} (hx : 0 < x) : x - roundNearest x ≤ x / 2 ^ 53 := by
  have hu := pow2_pos (exponent x - 52)
  have hr := sub_roundHalfEven_le (x / pow2 (exponent x - 52))
  have hulp : pow2 (exponent x - 52) = pow2 (exponent x) / 2 ^ 52 := by
    rw [pow2_eq_zpow, pow2_eq_zpow, zpow_sub₀ (by norm_num)]
    norm_cast
  rw [roundNearest, if_neg (not_le.mpr hx)]
  calc x - roundHalfEven (x / pow2 (exponent x - 52)) * pow2 (exponent x - 52)
      = (x / pow2 (exponent x - 52) - roundHalfEven (x / pow2 (exponent x - 52)))
          * pow2 (exponent x - 52) := by
        rw [sub_mul, div_mul_cancel₀ _ hu.ne']
    _ ≤ 1 / 2 * pow2 (exponent x - 52) := by gcongr
    _ = pow2 (exponent x) / 2 ^ 53 := by rw [hulp]; ring
    _ ≤ x / 2 ^ 53 := by
        gcongr
        exact pow2_exponent_le hx

/-- The product of two numbers. -/
def mul (a b : ℚ) : ℚ := roundNearest (a * b)

/-- The quotient of two numbers. -/
def div (a b : ℚ) : ℚ := roundNearest (a / b)

/-- A factor that exceeds one by more than the rounding error strictly increases a number. -/
theorem lt_mul_of_one_lt {a b : ℚ} (ha : 0 < a) (hb : 1 < b * (1 - 1 / 2 ^ 53)) : a < mul a b := by
  have hb0 : 0 < b := by
    by_contra hle
    have hle := not_lt.mp hle
    have : b * (1 - 1 / 2 ^ 53) ≤ 0 := mul_nonpos_of_nonpos_of_nonneg hle (by norm_num)
    linarith
  have h := sub_roundNearest_le (mul_pos ha hb0)
  have hprod : a * 1 < a * (b * (1 - 1 / 2 ^ 53)) := by gcongr
  have : a * (b * (1 - 1 / 2 ^ 53)) = a * b - a * b / 2 ^ 53 := by ring
  unfold mul
  linarith

/-- `Math.round`: the nearest integer, ties upwards. -/
def mathRound (x : ℚ) : ℤ := ⌊x + 1 / 2⌋

end Binary64
