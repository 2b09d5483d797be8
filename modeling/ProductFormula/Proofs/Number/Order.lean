/-
  The order of numbers.

  Numbers are compared by their positions on the line.  NaN has none, and is
  comparable with nothing; all other numbers are in one order, from one infinity
  to the other, in which only the two zeros share a place.

  * `Number.compare?_swap`: comparing the other way round turns the answer round;
  * `Number.equals_iff` and `Number.le_iff`: equality and `le` go with the order,
    which is total and transitive on all numbers but NaN (`Number.le_total`,
    `Number.le_trans`);
  * `Number.eq_infinite_of_position?`: no number shares the place of an infinity.
-/
import ProductFormula.Number.Rounding

namespace ProductFormula.Number

variable {a b c : Number} {negative : Bool}

theorem isNaN_iff : a.isNaN ↔ a = nan := by
  cases a <;> simp [isNaN]

/-! ## Positions -/

theorem position?_eq_none_iff : a.position? = none ↔ a = nan := by
  cases a <;> simp [position?]

theorem exists_position (h : a ≠ nan) : ∃ p, a.position? = some p :=
  Option.ne_none_iff_exists'.1 fun hnone => h (position?_eq_none_iff.1 hnone)

theorem natAbs_signed (negative : Bool) (units : Nat) : (signed negative units).natAbs = units := by
  cases negative <;> simp [signed]

/-- A place but zero has a sign. -/
theorem signed_inj {s t : Bool} {units : Nat} (hpos : 0 < units)
    (h : signed s units = signed t units) : s = t := by
  unfold signed at h
  cases s with
  | false =>
    cases t with
    | false => rfl
    | true =>
      rw [if_neg Bool.false_ne_true, if_pos rfl] at h
      omega
  | true =>
    cases t with
    | false =>
      rw [if_neg Bool.false_ne_true, if_pos rfl] at h
      omega
    | true => rfl

/-- No number stands beyond the infinities. -/
theorem position_bounds {p : Int} (h : a.position? = some p) :
    -(unitsBound : Int) ≤ p ∧ p ≤ unitsBound := by
  have hbound : p.natAbs ≤ unitsBound := by
    cases a with
    | nan => cases h
    | infinite negative =>
      cases h
      exact Nat.le_of_eq (natAbs_signed negative unitsBound)
    | finite negative units representable =>
      cases h
      rw [natAbs_signed]
      exact Nat.le_of_lt representable.1
  omega

/-- An infinity stands alone in its place. -/
theorem eq_infinite_of_position? (h : a.position? = (infinite negative).position?) :
    a = infinite negative := by
  cases a with
  | nan => cases h
  | infinite sign =>
    exact congrArg infinite (signed_inj unitsBound_pos (Option.some.inj h))
  | finite sign units representable =>
    have hsame : signed sign units = signed negative unitsBound := Option.some.inj h
    have hunits := congrArg Int.natAbs hsame
    rw [natAbs_signed, natAbs_signed] at hunits
    exact absurd hunits (Nat.ne_of_lt representable.1)

/-! ## Comparing -/

theorem compare?_eq_none_iff : a.compare? b = none ↔ a = nan ∨ b = nan := by
  rw [← position?_eq_none_iff, ← @position?_eq_none_iff b]
  unfold compare?
  cases a.position? <;> cases b.position? <;> simp

theorem compare?_swap (a b : Number) : b.compare? a = (a.compare? b).map Ordering.swap := by
  unfold compare?
  cases a.position? with
  | none => cases b.position? <;> rfl
  | some p =>
    cases b.position? with
    | none => rfl
    | some q => exact congrArg some (Int.compare_swap p q).symm

/-- Equal numbers are those of which neither comes first. -/
theorem equals_iff : a.equals b ↔ a.compare? b = some .eq := by
  unfold equals compare?
  cases a.position? with
  | none => simp
  | some p => cases b.position? <;> simp

/-- Numbers in one place are equal, or none of them is a number. -/
theorem equals_or_nan_of_position? (h : a.position? = b.position?) :
    a.equals b ∨ a = nan ∧ b = nan := by
  by_cases ha : a = nan
  · exact .inr ⟨ha, position?_eq_none_iff.1 (h ▸ position?_eq_none_iff.2 ha)⟩
  · obtain ⟨p, hp⟩ := exists_position ha
    exact .inl (by simp [equals, ← h, hp])

theorem equals_self (h : a ≠ nan) : a.equals a :=
  (equals_or_nan_of_position? rfl).resolve_right fun hnan => h hnan.1

/-! ## The order without NaN -/

theorem le_iff : a.le b ↔ ∃ p q, a.position? = some p ∧ b.position? = some q ∧ p ≤ q := by
  unfold le compare?
  cases a.position? with
  | none => simp
  | some p => cases b.position? <;> simp [Int.isLE_compare]

theorem le_trans (h : a.le b) (h' : b.le c) : a.le c := by
  obtain ⟨p, q, hp, hq, hle⟩ := le_iff.1 h
  obtain ⟨q', r, hq', hr, hle'⟩ := le_iff.1 h'
  cases hq.symm.trans hq'
  exact le_iff.2 ⟨p, r, hp, hr, Int.le_trans hle hle'⟩

theorem le_total (ha : a ≠ nan) (hb : b ≠ nan) : a.le b ∨ b.le a := by
  obtain ⟨p, hp⟩ := exists_position ha
  obtain ⟨q, hq⟩ := exists_position hb
  rcases Int.le_total p q with hle | hle
  · exact .inl (le_iff.2 ⟨p, q, hp, hq, hle⟩)
  · exact .inr (le_iff.2 ⟨q, p, hq, hp, hle⟩)

/-- Numbers at most each other share a place. -/
theorem position?_eq_of_le (h : a.le b) (h' : b.le a) : a.position? = b.position? := by
  obtain ⟨p, q, hp, hq, hle⟩ := le_iff.1 h
  obtain ⟨q', p', hq', hp', hle'⟩ := le_iff.1 h'
  cases hp.symm.trans hp'
  cases hq.symm.trans hq'
  rw [hp, hq, Int.le_antisymm hle hle']

theorem le_infinite (h : a ≠ nan) : a.le (infinite false) := by
  obtain ⟨p, hp⟩ := exists_position h
  exact le_iff.2 ⟨p, unitsBound, hp, rfl, (position_bounds hp).2⟩

theorem infinite_le (h : a ≠ nan) : (infinite true).le a := by
  obtain ⟨p, hp⟩ := exists_position h
  exact le_iff.2 ⟨-unitsBound, p, rfl, hp, (position_bounds hp).1⟩

end ProductFormula.Number
