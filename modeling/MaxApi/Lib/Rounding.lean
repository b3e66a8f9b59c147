import Mathlib.Algebra.Order.Field.Rat
import Mathlib.Data.Nat.Size
import Mathlib.Data.Rat.Floor
import Mathlib.Tactic.GCongr
import Mathlib.Tactic.Positivity

/-! # Rounding

Rationals are rounded to the nearest integer, halves away from zero, and a quotient of decimals to a
number of digits after the point.  Where the numbers are not negative, both keep their order.  A
float keeps 53 binary digits of an integer: those below `2 ^ 53` it holds exactly. -/

namespace Rounding

/-- The nearest integer, halves away from zero. -/
def nearest (q : ℚ) : ℤ := if 0 ≤ q then ⌊q + 1 / 2⌋ else -⌊-q + 1 / 2⌋

/-- The quotient of two decimals, of which some digits after the point are kept. -/
def quotient (digits : ℕ) (a b : ℚ) : ℚ := nearest (a / b * 10 ^ digits) / 10 ^ digits

/-- The nearest multiple of `unit`, halves to an even one. -/
def toMultiple (unit n : ℕ) : ℕ :=
  if 2 * (n % unit) < unit ∨ (2 * (n % unit) = unit ∧ n / unit % 2 = 0) then n / unit * unit
  else (n / unit + 1) * unit

/-- The value that a float64 keeps of an integer below `2 ^ 1023`. -/
def float (n : ℤ) : ℤ := n.sign * toMultiple (2 ^ (n.natAbs.size - 53)) n.natAbs

variable {p q a a' b : ℚ} {digits : ℕ}

theorem toMultiple_one (n : ℕ) : toMultiple 1 n = n := by
  unfold toMultiple
  rw [Nat.mod_one, if_pos (.inl (by decide)), Nat.div_one, Nat.mul_one]

theorem float_eq {n : ℤ} (h : n.natAbs < 2 ^ 53) : float n = n := by
  have hsize : n.natAbs.size - 53 = 0 := Nat.sub_eq_zero_of_le (Nat.size_le.mpr h)
  unfold float
  rw [hsize, Nat.pow_zero, toMultiple_one]
  exact Int.sign_mul_natAbs n

/-- The first integer that a float does not hold. -/
example : float (2 ^ 53 + 1) = 2 ^ 53 := by decide +kernel

theorem nearest_of_nonneg (hp : 0 ≤ p) : nearest p = ⌊p + 1 / 2⌋ := by
  unfold nearest
  rw [if_pos hp]

theorem nearest_mono (hp : 0 ≤ p) (h : p ≤ q) : nearest p ≤ nearest q := by
  rw [nearest_of_nonneg hp, nearest_of_nonneg (hp.trans h)]
  exact Int.floor_le_floor (by gcongr)

theorem nearest_nonneg (hp : 0 ≤ p) : 0 ≤ nearest p := by
  rw [nearest_of_nonneg hp]
  exact Int.floor_nonneg.mpr (by positivity)

theorem quotient_nonneg (ha : 0 ≤ a) (hb : 0 ≤ b) : 0 ≤ quotient digits a b := by
  have hnearest : (0 : ℚ) ≤ nearest (a / b * 10 ^ digits) := by
    exact_mod_cast nearest_nonneg (by positivity)
  unfold quotient
  positivity

theorem quotient_mono (ha : 0 ≤ a) (hb : 0 ≤ b) (h : a ≤ a') :
    quotient digits a b ≤ quotient digits a' b := by
  have hnearest : (nearest (a / b * 10 ^ digits) : ℚ) ≤ nearest (a' / b * 10 ^ digits) := by
    exact_mod_cast nearest_mono (by positivity) (by gcongr)
  unfold quotient
  gcongr

end Rounding
