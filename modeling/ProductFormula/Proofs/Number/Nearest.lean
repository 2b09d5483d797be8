/-
  Rounding to the nearest number.

  The number nearest to a quotient of steps depends on the value of the
  quotient alone (`Number.nearest_congr`).  A quotient that is a number is its
  own nearest (`Number.nearest_representable`), one out of range is an infinity
  and one below half a step is zero.
-/
import Mathlib.Algebra.Group.Nat.Defs
import ProductFormula.Number.Basic

namespace ProductFormula

/-! ## The range -/

theorem log2_unitsPerOne : unitsPerOne.log2 = 1074 := by decide +kernel

theorem log2_unitsBound : unitsBound.log2 = 2098 := by decide +kernel

theorem two_pow_log2_unitsPerOne : 2 ^ unitsPerOne.log2 = unitsPerOne := by decide +kernel

theorem two_pow_log2_unitsBound : 2 ^ unitsBound.log2 = unitsBound := by decide +kernel

theorem unitsPerOne_pos : 0 < unitsPerOne := by
  rw [← two_pow_log2_unitsPerOne]
  exact Nat.two_pow_pos _

/-- Whole numbers of 53 bits are numbers. -/
theorem representable_whole {count : Nat} (h : count ≤ Nat.pow 2 53) :
    Representable (count * unitsPerOne) := by
  have hbound : Nat.pow 2 53 * unitsPerOne < unitsBound := by decide +kernel
  have hgrid : Nat.pow 2 unitsPerOne.log2 = unitsPerOne := by
    rw [Nat.pow_eq, two_pow_log2_unitsPerOne]
  have hprecise := precise_mul_two_pow h unitsPerOne.log2
  rw [hgrid] at hprecise
  exact ⟨Nat.lt_of_le_of_lt (Nat.mul_le_mul_right _ h) hbound, hprecise⟩

/-! ## The value alone -/

theorem nearestQuotient_mul_mul {k : Nat} (hk : 0 < k) (num den : Nat) :
    nearestQuotient (num * k) (den * k) = nearestQuotient num den := by
  have htwice : 2 * (num % den * k) = 2 * (num % den) * k := (Nat.mul_assoc ..).symm
  simp only [nearestQuotient, Nat.mul_div_mul_right num den hk, Nat.mul_mod_mul_right, htwice,
    Nat.mul_lt_mul_right hk, Nat.mul_left_inj (Nat.ne_of_gt hk)]

theorem gridShift_mul_mul {k : Nat} (hk : 0 < k) (num den : Nat) :
    gridShift (num * k) (den * k) = gridShift num den := by
  rw [gridShift, gridShift, Nat.mul_div_mul_right num den hk]

theorem nearestUnits_mul_mul {k : Nat} (hk : 0 < k) (num den : Nat) :
    nearestUnits (num * k) (den * k) = nearestUnits num den := by
  simp only [nearestUnits]
  rw [gridShift_mul_mul hk, Nat.mul_right_comm, nearestQuotient_mul_mul hk]

/-! ## Values out of the ordinary -/

theorem nearestUnits_of_representable {units : Nat} (h : Representable units) :
    nearestUnits units 1 = units := by
  obtain ⟨count, hcount⟩ := h.2
  have hshift : gridShift units 1 = units.log2 - 52 := by rw [gridShift, Nat.div_one]
  have hgrid : 0 < Nat.pow 2 (units.log2 - 52) := Nat.two_pow_pos _
  simp only [nearestUnits, hshift, Nat.one_mul]
  generalize Nat.pow 2 (units.log2 - 52) = grid at hcount hgrid
  subst hcount
  have hquotient : nearestQuotient (grid * count) grid = count := by
    simp only [nearestQuotient, Nat.mul_mod_right, Nat.mul_div_cancel_left count hgrid]
    exact if_pos (.inl hgrid)
  rw [hquotient, Nat.mul_comm]

/-- Powers of two are not rounded down past. -/
theorem two_pow_le_nearestUnits {bits num den : Nat} (hbits : 52 ≤ bits) (hden : 0 < den)
    (h : 2 ^ bits * den ≤ num) : 2 ^ bits ≤ nearestUnits num den := by
  have hquotient : 2 ^ bits ≤ num / den := (Nat.le_div_iff_mul_le hden).2 h
  have hne : num / den ≠ 0 :=
    Nat.ne_of_gt (Nat.lt_of_lt_of_le (Nat.two_pow_pos bits) hquotient)
  have hlog : bits ≤ (num / den).log2 := (Nat.le_log2 hne).2 hquotient
  have hcount : Nat.pow 2 52 ≤ nearestQuotient num (den * Nat.pow 2 (gridShift num den)) := by
    have hfloor : Nat.pow 2 52 ≤ num / (den * Nat.pow 2 (gridShift num den)) := by
      simp only [Nat.pow_eq]
      rw [← Nat.div_div_eq_div_mul, Nat.le_div_iff_mul_le (Nat.two_pow_pos _), ← Nat.pow_add]
      refine Nat.le_trans (Nat.pow_le_pow_right (by omega) ?_) (Nat.log2_self_le hne)
      rw [gridShift]
      omega
    refine Nat.le_trans hfloor ?_
    simp only [nearestQuotient]
    split <;> omega
  calc 2 ^ bits
    _ ≤ 2 ^ (52 + gridShift num den) :=
        Nat.pow_le_pow_right (by omega) (by rw [gridShift]; omega)
    _ = Nat.pow 2 52 * Nat.pow 2 (gridShift num den) := Nat.pow_add ..
    _ ≤ nearestUnits num den := Nat.mul_le_mul_right _ hcount

/-- Nor are they rounded up past. -/
theorem nearestUnits_le_two_pow {bits num den : Nat} (hbits : 53 ≤ bits)
    (h : num / den < 2 ^ bits) : nearestUnits num den ≤ 2 ^ bits := by
  have hcount := nearestQuotient_grid_le num den
  have hshift : gridShift num den + 53 ≤ bits := by
    rw [gridShift]
    by_cases hzero : num / den = 0
    · rw [hzero, Nat.log2_zero]
      omega
    · have hlog := (Nat.log2_lt hzero).2 h
      omega
  calc nearestUnits num den
    _ ≤ Nat.pow 2 53 * Nat.pow 2 (gridShift num den) := Nat.mul_le_mul_right _ hcount
    _ = 2 ^ (53 + gridShift num den) := (Nat.pow_add ..).symm
    _ ≤ 2 ^ bits := Nat.pow_le_pow_right (by decide) (by omega)

theorem nearestUnits_of_twice_lt {num den : Nat} (h : 2 * num < den) :
    nearestUnits num den = 0 := by
  have hlt : num < den := by omega
  have hshift : gridShift num den = 0 := by rw [gridShift, Nat.div_eq_of_lt hlt]; rfl
  have hquotient : nearestQuotient num den = 0 := by
    simp only [nearestQuotient, Nat.mod_eq_of_lt hlt, Nat.div_eq_of_lt hlt]
    exact if_pos (.inl h)
  simp only [nearestUnits, hshift, Nat.pow_eq, Nat.pow_zero, Nat.mul_one, hquotient]

/-! ## Numbers -/

namespace Number

theorem nearest_eq_of_units {negative : Bool} {num den num' den' : Nat}
    (h : nearestUnits num den = nearestUnits num' den') :
    nearest negative num den = nearest negative num' den' := by
  simp only [nearest, h]

/-- **Equal quotients have the same nearest number.** -/
theorem nearest_congr (negative : Bool) {num den num' den' : Nat} (hden : 0 < den)
    (hden' : 0 < den') (h : num * den' = num' * den) :
    nearest negative num den = nearest negative num' den' := by
  apply nearest_eq_of_units
  rw [← nearestUnits_mul_mul hden' num den, h, Nat.mul_comm den den',
    nearestUnits_mul_mul hden num' den']

theorem nearest_representable (negative : Bool) {units : Nat} (h : Representable units) :
    nearest negative units 1 = finite negative units h := by
  have hunits := nearestUnits_of_representable h
  simp only [nearest, hunits, h.1, dite_true]

theorem nearest_ne_nan (negative : Bool) (num den : Nat) : nearest negative num den ≠ nan := by
  unfold nearest
  split
  · exact Number.noConfusion
  · exact Number.noConfusion

theorem nearest_eq_infinite (negative : Bool) {num den : Nat} (hden : 0 < den)
    (h : unitsBound * den ≤ num) : nearest negative num den = infinite negative := by
  rw [← two_pow_log2_unitsBound] at h
  have hunits := two_pow_le_nearestUnits (by rw [log2_unitsBound]; decide) hden h
  rw [two_pow_log2_unitsBound] at hunits
  rw [nearest, dif_neg (by omega)]

theorem nearest_ne_infinite (negative : Bool) {num den : Nat}
    (h : num / den < 2 ^ 2097) : ∀ sign, nearest negative num den ≠ infinite sign := by
  intro sign
  have hunits := nearestUnits_le_two_pow (by decide) h
  have hbound : 2 ^ 2097 < unitsBound := by decide +kernel
  rw [nearest, dif_pos (Nat.lt_of_le_of_lt hunits hbound)]
  exact Number.noConfusion

theorem nearest_eq_zero (negative : Bool) {num den : Nat} (h : 2 * num < den) :
    nearest negative num den = zero negative := by
  have hunits := nearestUnits_of_twice_lt h
  simp only [nearest, hunits, unitsBound_pos, dite_true, zero]

end Number

end ProductFormula
