import Mathlib.Data.Int.Log
import Mathlib.Tactic

/-!
# Rounding to binary digits

A number is rounded to the nearest one with so many binary digits, and to the
even one of two.  The error is a small part of the number, so a quotient of two
whole numbers which have that many digits does not reach the next whole number:
the floor of the rounded quotient is that of the quotient.
-/

namespace NotifyHub.Rounding

/-- The nearest integer, and the even one of two. -/
def roundEven (x : ℚ) : ℤ :=
  if x - ⌊x⌋ < 1 / 2 then ⌊x⌋
  else if 1 / 2 < x - ⌊x⌋ then ⌊x⌋ + 1
  else if ⌊x⌋ % 2 = 0 then ⌊x⌋
  else ⌊x⌋ + 1

/-- The distance of neighbours among the numbers with so many digits. -/
def ulp (precision : ℕ) (x : ℚ) : ℚ :=
  (2 : ℕ) ^ (Int.log 2 |x| + 1 - precision)

def roundTo (precision : ℕ) (x : ℚ) : ℚ :=
  roundEven (x / ulp precision x) * ulp precision x

section Error

variable (precision : ℕ) {x : ℚ}

theorem abs_roundEven_sub_le (x : ℚ) : |(roundEven x : ℚ) - x| ≤ 1 / 2 := by
  have hlow := Int.floor_le x
  have hhigh := Int.lt_floor_add_one x
  rw [abs_le]
  unfold roundEven
  split_ifs with hbelow habove heven
  · constructor <;> linarith
  · push_cast
    constructor <;> linarith
  · constructor <;> linarith
  · push_cast
    constructor <;> linarith

theorem roundEven_intCast (number : ℤ) : roundEven number = number := by
  unfold roundEven
  rw [Int.floor_intCast, sub_self, if_pos (by norm_num)]

theorem ulp_pos (x : ℚ) : 0 < ulp precision x :=
  zpow_pos (by norm_num) _

theorem half_ulp_le (hpos : 0 < x) : ulp precision x / 2 ≤ x / 2 ^ precision := by
  have hlog := Int.zpow_log_le_self (R := ℚ) one_lt_two hpos
  have hsplit : ulp precision x =
      (2 : ℕ) ^ Int.log 2 x * 2 / 2 ^ precision := by
    rw [ulp, abs_of_pos hpos, zpow_sub₀ (by norm_num), zpow_add_one₀ (by norm_num),
      zpow_natCast]
    norm_num
  calc
    ulp precision x / 2 = (2 : ℕ) ^ Int.log 2 x / 2 ^ precision := by
      rw [hsplit]
      ring
    _ ≤ x / 2 ^ precision :=
      div_le_div_of_nonneg_right hlog (by positivity)

theorem abs_roundTo_sub_le (hpos : 0 < x) :
    |roundTo precision x - x| ≤ x / 2 ^ precision := by
  have hulp := ulp_pos precision x
  calc
    |roundTo precision x - x| =
        |(roundEven (x / ulp precision x) : ℚ) - x / ulp precision x| *
          ulp precision x := by
      rw [← abs_of_pos hulp, ← abs_mul, abs_of_pos hulp, sub_mul,
        div_mul_cancel₀ _ hulp.ne', roundTo]
    _ ≤ 1 / 2 * ulp precision x :=
      mul_le_mul_of_nonneg_right (abs_roundEven_sub_le _) hulp.le
    _ = ulp precision x / 2 := by ring
    _ ≤ x / 2 ^ precision := half_ulp_le precision hpos

/-- A whole number with so many digits is not changed. -/
theorem roundTo_natCast {number : ℕ} (hlt : number < 2 ^ precision) :
    roundTo precision number = number := by
  have hulp := ulp_pos precision (number : ℚ)
  rcases Nat.eq_zero_or_pos number with rfl | hpos
  · have hzero : roundEven ((0 : ℕ) / ulp precision (0 : ℕ)) = 0 := by
      rw [Nat.cast_zero, zero_div]
      exact roundEven_intCast 0
    rw [roundTo, hzero, Int.cast_zero, zero_mul, Nat.cast_zero]
  -- The number is a multiple of the distance.
  have hlog : Nat.log 2 number + 1 ≤ precision :=
    Nat.log_lt_of_lt_pow hpos.ne' hlt
  have hinverse : ulp precision (number : ℚ) *
      2 ^ (precision - (Nat.log 2 number + 1)) = 1 := by
    have hexponent : ((Nat.log 2 number : ℤ) + 1 - precision) +
        ((precision - (Nat.log 2 number + 1) : ℕ) : ℤ) = 0 := by
      omega
    rw [ulp, abs_of_nonneg (Nat.cast_nonneg _), Int.log_natCast, ← zpow_natCast,
      Nat.cast_ofNat, ← zpow_add₀ (by norm_num), hexponent, zpow_zero]
  have hdivide : (number : ℚ) / ulp precision number =
      ((number * 2 ^ (precision - (Nat.log 2 number + 1)) : ℤ) : ℚ) := by
    rw [div_eq_iff hulp.ne']
    push_cast
    rw [mul_assoc, mul_comm (2 ^ _ : ℚ), hinverse, mul_one]
  rw [roundTo, hdivide, roundEven_intCast, ← hdivide, div_mul_cancel₀ _ hulp.ne']

/-- The error of a rounded quotient is less than one part of the divisor. -/
theorem abs_roundTo_div_sub_lt
    {number divisor : ℕ} (hpos : 0 < number) (hlt : number < 2 ^ precision)
    (hdivisor : 0 < divisor) :
    |roundTo precision (number / divisor) - number / divisor| <
      1 / (divisor : ℚ) := by
  have hd : (0 : ℚ) < divisor := Nat.cast_pos.mpr hdivisor
  have hn : (0 : ℚ) < number := Nat.cast_pos.mpr hpos
  have hbound : (number : ℚ) < 2 ^ precision := by exact_mod_cast hlt
  calc
    |roundTo precision (number / divisor) - number / divisor| ≤
        number / divisor / 2 ^ precision :=
      abs_roundTo_sub_le precision (div_pos hn hd)
    _ = number / 2 ^ precision / divisor := by ring
    _ < 1 / divisor := by
      refine div_lt_div_of_pos_right ?_ hd
      rwa [div_lt_one (by positivity)]

theorem floor_roundTo_div
    {number divisor : ℕ} (hlt : number < 2 ^ precision) (hdivisor : 0 < divisor) :
    ⌊roundTo precision (number / divisor)⌋ = ((number / divisor : ℕ) : ℤ) := by
  have hd : (0 : ℚ) < divisor := Nat.cast_pos.mpr hdivisor
  by_cases hdvd : divisor ∣ number
  · have hwhole : (number : ℚ) / divisor = ((number / divisor : ℕ) : ℚ) :=
      (Nat.cast_div hdvd hd.ne').symm
    rw [hwhole, roundTo_natCast precision
      ((Nat.div_le_self _ _).trans_lt hlt), Int.floor_natCast]
  · have hpos : 0 < number := Nat.pos_of_ne_zero fun hzero =>
      hdvd (hzero ▸ dvd_zero divisor)
    have herror := abs_lt.mp
      (abs_roundTo_div_sub_lt precision hpos hlt hdivisor)
    have hrest : 0 < number % divisor := Nat.pos_of_ne_zero fun hzero =>
      hdvd (Nat.dvd_of_mod_eq_zero hzero)
    have hmod := Nat.mod_lt number hdivisor
    have hsum := Nat.div_add_mod number divisor
    generalize number / divisor = quotient at *
    have hlow : (quotient : ℚ) + 1 / divisor ≤ number / divisor := by
      have hnat : quotient * divisor + 1 ≤ number := by
        rw [mul_comm]
        omega
      rw [le_div_iff₀ hd, add_mul, one_div_mul_cancel hd.ne']
      exact_mod_cast hnat
    have hhigh : (number : ℚ) / divisor ≤ quotient + 1 - 1 / divisor := by
      have hnat : number + 1 ≤ (quotient + 1) * divisor := by
        rw [mul_comm, mul_add, mul_one]
        omega
      rw [div_le_iff₀ hd, sub_mul, one_div_mul_cancel hd.ne', le_sub_iff_add_le]
      exact_mod_cast hnat
    rw [Int.floor_eq_iff]
    push_cast
    constructor
    · linarith
    · linarith

end Error

end NotifyHub.Rounding
