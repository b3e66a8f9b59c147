import Mathlib.Data.Int.Basic
import Mathlib.Data.List.Basic

/-! # Decimal texts

A number is determined by its decimal text, whose characters are digits after at most one sign. -/

namespace Decimal

theorem toList_toString (n : ℕ) : (toString n).toList = Nat.toDigits 10 n := by
  rw [Nat.toString_eq_ofList_toDigits, String.toList_ofList]

theorem isDigit_toString {n : ℕ} {c : Char} (h : c ∈ (toString n).toList) : c.isDigit = true := by
  rw [toList_toString] at h
  exact Nat.isDigit_of_mem_toDigits (by decide) (by decide) h

theorem nat_injective {m n : ℕ} (h : toString m = toString n) : m = n := by
  have hdigits : Nat.toDigits 10 m = Nat.toDigits 10 n := by
    rw [← toList_toString, ← toList_toString, h]
  rw [← Nat.ofDigitChars_ten_toDigits (n := m), hdigits, Nat.ofDigitChars_ten_toDigits]

theorem toString_negSucc (n : ℕ) : toString (Int.negSucc n) = "-" ++ toString (n + 1) := rfl

theorem isDigit_or_sign {x : ℤ} {c : Char} (h : c ∈ (toString x).toList) :
    c.isDigit = true ∨ c = '-' := by
  cases x with
  | ofNat n => exact .inl (isDigit_toString h)
  | negSucc n =>
      rw [toString_negSucc, String.toList_append, List.mem_append] at h
      rcases h with h | h
      · exact .inr (by simpa using h)
      · exact .inl (isDigit_toString h)

theorem ofNat_ne_negSucc (m n : ℕ) : toString (Int.ofNat m) ≠ toString (Int.negSucc n) := by
  intro h
  have hmem : '-' ∈ (toString (Int.ofNat m)).toList := by
    rw [h, toString_negSucc, String.toList_append]
    exact List.mem_append_left _ (by simp)
  exact absurd (isDigit_toString hmem) (by decide)

theorem int_injective {x y : ℤ} (h : toString x = toString y) : x = y := by
  cases x with
  | ofNat m =>
      cases y with
      | ofNat n => exact congrArg Int.ofNat (nat_injective h)
      | negSucc n => exact absurd h (ofNat_ne_negSucc m n)
  | negSucc m =>
      cases y with
      | ofNat n => exact absurd h.symm (ofNat_ne_negSucc n m)
      | negSucc n =>
          rw [toString_negSucc, toString_negSucc] at h
          have hlist := congrArg String.toList h
          rw [String.toList_append, String.toList_append] at hlist
          have hsucc := nat_injective (String.toList_inj.mp (List.append_cancel_left hlist))
          exact congrArg Int.negSucc (Nat.succ.inj hsucc)

end Decimal
