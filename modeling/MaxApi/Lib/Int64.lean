import Mathlib.Algebra.Group.Nat.Defs
import Mathlib.Data.Int.Basic

/-! # Signed 64-bit integers

A 64-bit computation is the exact one followed by `wrap`, which changes nothing as long as the exact
result is `Representable`. -/

namespace Int64Range

def minValue : ℤ := -9223372036854775808

def maxValue : ℤ := 9223372036854775807

/-- The number that the low 64 bits of `x` stand for. -/
def wrap (x : ℤ) : ℤ := Int.bmod x (2 ^ 64)

def Representable (x : ℤ) : Prop := minValue ≤ x ∧ x ≤ maxValue

instance : DecidablePred Representable := fun _ => inferInstanceAs (Decidable (_ ∧ _))

variable {x : ℤ}

theorem wrap_eq (h : Representable x) : wrap x = x := by
  unfold Representable minValue maxValue at h
  unfold wrap
  exact Int.bmod_eq_of_le (by omega) (by omega)

end Int64Range
