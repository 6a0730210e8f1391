import Mathlib

/-! Binary64 rounding of exact nonnegative quantities inside the normal range:
nearest with ties to even, as a rational that can be computed. Each operation
of a program is its exact result rounded once. Overflow, subnormals and signs
are outside this specification. -/
namespace Library.Binary64

/-- The nearest integer, a tie going to the even neighbour. -/
def roundEven (q : ℚ) : ℤ :=
  if Int.fract q < 1 / 2 then ⌊q⌋
  else if 1 / 2 < Int.fract q then ⌊q⌋ + 1
  else if ⌊q⌋ % 2 = 0 then ⌊q⌋ else ⌊q⌋ + 1

/-- The distance between neighbouring doubles in the binade of `q`. -/
def quantum (q : ℚ) : ℚ := 2 ^ (Int.log 2 q - 52)

/-- The double nearest to `q`. -/
def nearest (q : ℚ) : ℚ := if q = 0 then 0 else roundEven (q / quantum q) * quantum q

theorem roundEven_error (q : ℚ) : |(roundEven q : ℚ) - q| ≤ 1 / 2 := by
  have split : q = ⌊q⌋ + Int.fract q := (Int.floor_add_fract q).symm
  have below := Int.fract_lt_one q
  have above := Int.fract_nonneg q
  unfold roundEven
  rw [abs_le]
  split_ifs <;> push_cast <;> constructor <;> linarith

@[simp] theorem roundEven_intCast (n : ℤ) : roundEven n = n := by
  simp [roundEven]

theorem quantum_pos (q : ℚ) : 0 < quantum q := zpow_pos (by norm_num) _

theorem quantum_le (positive : 0 < q) : quantum q ≤ q / 2 ^ 52 := by
  have binade : (2 : ℚ) ^ Int.log 2 q ≤ q := Int.zpow_log_le_self (by norm_num) positive
  rw [quantum, zpow_sub₀ (by norm_num)]
  exact div_le_div_of_nonneg_right binade (by positivity)

/-- Rounding moves a quantity by at most half a unit in the last of 53 bits. -/
theorem nearest_error (nonneg : 0 ≤ q) : |nearest q - q| ≤ q / 2 ^ 53 := by
  rcases nonneg.eq_or_lt with rfl | positive
  · simp [nearest]
  · have unit := quantum_pos q
    have scaled : nearest q - q = (roundEven (q / quantum q) - q / quantum q) * quantum q := by
      rw [nearest, if_neg positive.ne', sub_mul, div_mul_cancel₀ _ unit.ne']
    rw [scaled, abs_mul, abs_of_pos unit]
    calc |(roundEven (q / quantum q) : ℚ) - q / quantum q| * quantum q
        ≤ 1 / 2 * quantum q := mul_le_mul_of_nonneg_right (roundEven_error _) unit.le
      _ ≤ 1 / 2 * (q / 2 ^ 52) := mul_le_mul_of_nonneg_left (quantum_le positive) (by norm_num)
      _ = q / 2 ^ 53 := by ring

theorem nearest_nonneg (nonneg : 0 ≤ q) : 0 ≤ nearest q := by
  have error := abs_le.mp (nearest_error nonneg)
  linarith

/-- Integers of at most 53 bits are doubles. -/
theorem nearest_natCast (n : ℕ) (small : n < 2 ^ 53) : nearest n = n := by
  rcases Nat.eq_zero_or_pos n with rfl | positive
  · simp [nearest]
  · have nonzero : (n : ℚ) ≠ 0 := by exact_mod_cast positive.ne'
    have digits : Nat.log 2 n ≤ 52 := by
      have := Nat.log_lt_of_lt_pow positive.ne' small
      omega
    have whole : (n : ℚ) / quantum n = ((n * 2 ^ (52 - Nat.log 2 n) : ℕ) : ℤ) := by
      rw [quantum, Int.log_natCast, div_eq_mul_inv, ← zpow_neg, neg_sub,
        ← Nat.cast_ofNat (R := ℤ), ← Nat.cast_sub digits, zpow_natCast]
      push_cast
      rfl
    have unit := quantum_pos (n : ℚ)
    rw [nearest, if_neg nonzero, whole, roundEven_intCast, ← whole, div_mul_cancel₀ _ unit.ne']

end Library.Binary64
