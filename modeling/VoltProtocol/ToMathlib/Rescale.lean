import Mathlib.Algebra.Order.Floor.Semifield
import Mathlib.Tactic

/-! # Amounts rescaled by a factor and rounded down

Converting an amount between units multiplies it by a positive factor and drops the fraction.
What conversions there and back need is an adjunction: an amount that came out of a budget
converted one way is charged at most that budget when it is converted back.
-/

variable {K : Type*} [Field K] [LinearOrder K] [IsStrictOrderedRing K] [FloorSemiring K]

/-- `amount * factor`, rounded down. -/
def rescale (amount : ℕ) (factor : K) : ℕ := ⌊(amount : K) * factor⌋₊

section Rescale

variable {amount budget : ℕ} {factor : K}

theorem rescale_le (positive : 0 < factor) : (rescale amount factor : K) ≤ amount * factor :=
  Nat.floor_le (mul_nonneg (Nat.cast_nonneg amount) positive.le)

omit [IsStrictOrderedRing K] in
theorem lt_rescale_add_one : (amount : K) * factor < rescale amount factor + 1 :=
  Nat.lt_floor_add_one _

theorem rescale_one : rescale amount (1 : K) = amount := by
  rw [rescale, mul_one, Nat.floor_natCast]

/-- A whole factor loses nothing. -/
theorem rescale_natCast (whole : ℕ) : rescale amount (whole : K) = amount * whole := by
  rw [rescale, ← Nat.cast_mul, Nat.floor_natCast]

/-- The inverse of a whole factor is a truncating division. -/
theorem rescale_inv_natCast (whole : ℕ) : rescale amount ((whole : K)⁻¹) = amount / whole := by
  rw [rescale, ← div_eq_mul_inv, Nat.floor_div_eq_div]

/-- An amount taken from a converted budget never costs more than the budget. -/
theorem rescale_le_of_le_rescale_inv (positive : 0 < factor)
    (within : amount ≤ rescale budget factor⁻¹) : rescale amount factor ≤ budget := by
  have bound : (amount : K) ≤ budget * factor⁻¹ := by
    calc (amount : K) ≤ rescale budget factor⁻¹ := Nat.cast_le.mpr within
      _ ≤ budget * factor⁻¹ := rescale_le (inv_pos.mpr positive)
  have cost : (amount : K) * factor ≤ budget := by
    calc (amount : K) * factor ≤ budget * factor⁻¹ * factor := by gcongr
      _ = budget := by rw [mul_assoc, inv_mul_cancel₀ positive.ne', mul_one]
  exact Nat.floor_le_of_le cost

end Rescale
