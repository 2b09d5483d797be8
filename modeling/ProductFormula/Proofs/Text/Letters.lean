/-
  Letters as ranges of code points.
-/
import ProductFormula.Text.Blank

namespace ProductFormula.Text

variable {c : Char}

theorem isUpper_iff_toNat : c.isUpper ↔ 'A'.toNat ≤ c.toNat ∧ c.toNat ≤ 'Z'.toNat := by
  unfold Char.isUpper
  simp only [decide_eq_true_eq, ge_iff_le, UInt32.le_iff_toNat_le]
  exact Iff.rfl

theorem isLower_iff_toNat : c.isLower ↔ 'a'.toNat ≤ c.toNat ∧ c.toNat ≤ 'z'.toNat := by
  unfold Char.isLower
  simp only [Bool.and_eq_true, decide_eq_true_eq, ge_iff_le, UInt32.le_iff_toNat_le]
  exact Iff.rfl

theorem isAlpha_iff : c.isAlpha ↔ c.isUpper ∨ c.isLower := by
  unfold Char.isAlpha
  rw [Bool.or_eq_true]

/-- Only a small letter has another capital. -/
theorem toUpper_eq_self (h : c.toNat < 'a'.toNat) : c.toUpper = c := by
  have hlower : ¬ ('a'.val ≤ c.val ∧ c.val ≤ 'z'.val) := by
    rintro ⟨hle, -⟩
    exact Nat.not_le.2 h (UInt32.le_iff_toNat_le.1 hle)
  unfold Char.toUpper
  rw [dif_neg hlower]

end ProductFormula.Text
