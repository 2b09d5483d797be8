/-
  Reading a decimal.

  A decimal is read as the number nearest to its exact value, its cut-offs for
  far exponents included (`Decimal.toNumber_eq_nearest`), so digits with more
  zeros at their end and the exponent lowered by as many are the same number
  (`Decimal.toNumber_scaled`).

  * `Decimal.toNumber_shortest`: the shortest decimal of a number is read back
    as the number.
-/
import ProductFormula.Number.Shortest
import ProductFormula.Proofs.Number.Nearest

namespace ProductFormula.Decimal

/-! ## The exact value -/

/-- The exact value of a decimal in steps, as a quotient of `numerator` and
    `denominator`. -/
def numerator (d : Decimal) : Nat := d.digits * 10 ^ d.exponent.toNat * unitsPerOne

def denominator (d : Decimal) : Nat := 10 ^ (-d.exponent).toNat

theorem denominator_pos (d : Decimal) : 0 < d.denominator := Nat.pow_pos (by decide)

theorem numerator_whole (digits places : Nat) :
    (Decimal.mk digits places).numerator = digits * 10 ^ places * unitsPerOne := by
  rw [numerator, Int.toNat_natCast]

theorem denominator_whole (digits places : Nat) : (Decimal.mk digits places).denominator = 1 := by
  rw [denominator, Int.toNat_neg_natCast, Nat.pow_zero]

theorem numerator_fraction (digits places : Nat) :
    (Decimal.mk digits (-places)).numerator = digits * unitsPerOne := by
  rw [numerator, Int.toNat_neg_natCast, Nat.pow_zero, Nat.mul_one]

theorem denominator_fraction (digits places : Nat) :
    (Decimal.mk digits (-places)).denominator = 10 ^ places := by
  rw [denominator, Int.neg_neg, Int.toNat_natCast]

theorem two_pow_le_ten_pow (places : Nat) : 2 ^ (3 * places) ≤ 10 ^ places := by
  rw [Nat.pow_mul]
  exact Nat.pow_le_pow_left (by decide) places

/-- Above `10^400` everything is out of range. -/
theorem nearest_eq_infinite_of_lt (negative : Bool) {digits places : Nat} (hdigits : digits ≠ 0)
    (hplaces : 400 < places) :
    Number.nearest negative (digits * 10 ^ places * unitsPerOne) 1 = .infinite negative := by
  refine Number.nearest_eq_infinite negative Nat.one_pos ?_
  have hbound := log2_unitsBound
  calc unitsBound * 1
    _ = 2 ^ unitsBound.log2 := by rw [Nat.mul_one, two_pow_log2_unitsBound]
    _ ≤ 2 ^ (3 * places + unitsPerOne.log2) :=
        Nat.pow_le_pow_right (by decide) (by rw [log2_unitsPerOne]; omega)
    _ = 2 ^ (3 * places) * unitsPerOne := by rw [Nat.pow_add, two_pow_log2_unitsPerOne]
    _ ≤ digits * 10 ^ places * unitsPerOne :=
        Nat.mul_le_mul_right _
          (Nat.le_trans (two_pow_le_ten_pow places) (Nat.le_mul_of_pos_left _ (by omega)))

/-- What two thousand binary places cannot reach is below half a step. -/
theorem nearest_eq_zero_of_lt (negative : Bool) {digits places : Nat}
    (h : digits.log2 + 2000 < 3 * places) :
    Number.nearest negative (digits * unitsPerOne) (10 ^ places) = .zero negative := by
  refine Number.nearest_eq_zero negative ?_
  have hdigits : digits < 2 ^ (digits.log2 + 1) := Nat.lt_log2_self
  have hstep := log2_unitsPerOne
  calc 2 * (digits * unitsPerOne)
    _ = digits * 2 ^ (unitsPerOne.log2 + 1) := by
      rw [Nat.pow_succ, two_pow_log2_unitsPerOne, Nat.mul_comm unitsPerOne, Nat.mul_left_comm]
    _ < 2 ^ (digits.log2 + 1) * 2 ^ (unitsPerOne.log2 + 1) :=
        Nat.mul_lt_mul_of_pos_right hdigits (Nat.two_pow_pos _)
    _ = 2 ^ (digits.log2 + 1 + (unitsPerOne.log2 + 1)) := (Nat.pow_add ..).symm
    _ ≤ 2 ^ (3 * places) := Nat.pow_le_pow_right (by decide) (by omega)
    _ ≤ 10 ^ places := two_pow_le_ten_pow places

/-- **A decimal is read as the number nearest to its exact value.** -/
theorem toNumber_eq_nearest (negative : Bool) (d : Decimal) :
    d.toNumber negative = .nearest negative d.numerator d.denominator := by
  obtain ⟨digits, exponent⟩ := d
  by_cases hzero : digits = 0
  · subst hzero
    have hden := denominator_pos ⟨0, exponent⟩
    rw [toNumber, if_pos rfl, Number.nearest_eq_zero negative (by simpa [numerator] using hden)]
  · rw [toNumber, if_neg hzero]
    cases exponent with
    | ofNat places =>
      have hvalue : Number.nearest negative (numerator ⟨digits, .ofNat places⟩)
          (denominator ⟨digits, .ofNat places⟩) =
          .nearest negative (digits * 10 ^ places * unitsPerOne) 1 := by
        simp [numerator, denominator]
      rw [hvalue]
      dsimp only
      split
      next h => exact (nearest_eq_infinite_of_lt negative hzero h).symm
      · rfl
    | negSucc below =>
      have hvalue : Number.nearest negative (numerator ⟨digits, .negSucc below⟩)
          (denominator ⟨digits, .negSucc below⟩) =
          .nearest negative (digits * unitsPerOne) (10 ^ (below + 1)) := by
        simp [numerator, denominator]
      rw [hvalue]
      dsimp only
      split
      next h => exact (nearest_eq_zero_of_lt negative h).symm
      · rfl

/-! ## Zeros at the end -/

/-- The decimal with `zeros` more zeros behind its digits, and the exponent
    lowered by as many. -/
def scaled (d : Decimal) (zeros : Nat) : Decimal :=
  ⟨d.digits * 10 ^ zeros, d.exponent - zeros⟩

theorem toNumber_scaled (negative : Bool) (d : Decimal) (zeros : Nat) :
    (d.scaled zeros).toNumber negative = d.toNumber negative := by
  rw [toNumber_eq_nearest, toNumber_eq_nearest]
  refine Number.nearest_congr negative (denominator_pos _) (denominator_pos _) ?_
  have hplaces : zeros + (d.exponent - zeros).toNat + (-d.exponent).toNat =
      d.exponent.toNat + (-(d.exponent - zeros)).toNat := by omega
  have hpower : 10 ^ zeros * 10 ^ (d.exponent - zeros).toNat * 10 ^ (-d.exponent).toNat =
      10 ^ d.exponent.toNat * 10 ^ (-(d.exponent - zeros)).toNat := by
    rw [← Nat.pow_add, ← Nat.pow_add, ← Nat.pow_add, hplaces]
  simp only [numerator, denominator, scaled]
  generalize unitsPerOne = step
  calc d.digits * 10 ^ zeros * 10 ^ (d.exponent - zeros).toNat * step * 10 ^ (-d.exponent).toNat
    _ = d.digits *
        (10 ^ zeros * 10 ^ (d.exponent - zeros).toNat * 10 ^ (-d.exponent).toNat) * step := by
      ac_rfl
    _ = d.digits * (10 ^ d.exponent.toNat * 10 ^ (-(d.exponent - zeros)).toNat) * step := by
      rw [hpower]
    _ = d.digits * 10 ^ d.exponent.toNat * step * 10 ^ (-(d.exponent - zeros)).toNat := by
      ac_rfl

/-! ## The shortest decimal -/

theorem toNumber_exact (negative : Bool) (units : Nat) :
    (exact units).toNumber negative = .nearest negative units 1 := by
  rw [toNumber_eq_nearest]
  refine Number.nearest_congr negative (denominator_pos _) Nat.one_pos ?_
  have hexponent : (exact units).exponent = -1074 := rfl
  have hstep : Nat.pow 5 1074 * unitsPerOne = (exact units).denominator := by
    rw [denominator, hexponent]
    decide +kernel
  have hnum : (exact units).numerator = units * Nat.pow 5 1074 * unitsPerOne :=
    numerator_fraction (units * Nat.pow 5 1074) 1074
  rw [hnum, Nat.mul_one, Nat.mul_assoc, hstep]

/-- **The shortest decimal of a magnitude is read as the number nearest to it.** -/
theorem toNumber_shortest (tie : Tie) (units : Nat) :
    (shortest tie units).toNumber false = .nearest false units 1 := by
  simp only [shortest]
  cases h : ((List.range 17).map (· + 1)).findSome? (shortestOfLength? tie units (top units)) with
  | none => exact toNumber_exact false units
  | some d =>
    obtain ⟨_, _, length, _, hlength, _⟩ := List.findSome?_eq_some_iff.1 h
    exact toNumber_shortestOfLength? hlength

end ProductFormula.Decimal
