/-
  Binary64 numbers as whole counts of their least step.

  Every finite number is a whole multiple of `2^-1074`, so a magnitude is kept
  as the count of such steps (`Number.finite`), and exact arithmetic on
  magnitudes is arithmetic on natural numbers.  Only the counts with 53
  significant bits are numbers (`Representable`); every operation computes its
  exact result as a quotient of steps and rounds it once.

  * `nearestQuotient` is the whole number nearest to a quotient, a tie going to
    the even one;
  * `Number.nearest` is the number nearest to a quotient of steps: the quotient
    is taken on the grid of 53-bit counts around it (`gridStep`), and a count
    out of range is an infinity;
  * `Number.position?` places a number on the line of integers, and
    `Number.compare?` and `Number.equals` compare positions: NaN has none, and
    the two zeros share one.
-/

namespace ProductFormula

/-! ## Magnitudes -/

/-- Steps in the number one. -/
def unitsPerOne : Nat := Nat.pow 2 1074

/-- The least count of steps out of range, `2^1024`. -/
def unitsBound : Nat := Nat.pow 2 2098

/-- Within range, and with at most 53 significant bits. -/
def Representable (units : Nat) : Prop :=
  units < unitsBound ∧ Nat.pow 2 (units.log2 - 52) ∣ units

instance (units : Nat) : Decidable (Representable units) :=
  inferInstanceAs (Decidable (_ ∧ _))

theorem unitsBound_pos : 0 < unitsBound := by decide +kernel

theorem representable_zero : Representable 0 :=
  ⟨unitsBound_pos, Nat.dvd_zero _⟩

/-- Any count of 53 bits, moved up by `shift` places, keeps its precision. -/
theorem precise_mul_two_pow {count : Nat} (h : count ≤ Nat.pow 2 53) (shift : Nat) :
    Nat.pow 2 ((count * Nat.pow 2 shift).log2 - 52) ∣ count * Nat.pow 2 shift := by
  simp only [Nat.pow_eq] at h ⊢
  by_cases zero : count * Nat.pow 2 shift = 0
  · rw [Nat.pow_eq] at zero
    rw [zero]
    exact Nat.dvd_zero _
  · rw [Nat.pow_eq] at zero
    rcases Nat.lt_or_eq_of_le h with below | top
    · have places := (Nat.log2_lt zero).2 <|
        Nat.lt_of_lt_of_eq (Nat.mul_lt_mul_of_pos_right below (Nat.two_pow_pos shift))
          (Nat.pow_add 2 53 shift).symm
      exact Nat.dvd_trans (Nat.pow_dvd_pow 2 (by omega)) (Nat.dvd_mul_left _ _)
    · rw [top, ← Nat.pow_add, Nat.log2_two_pow]
      exact Nat.pow_dvd_pow 2 (by omega)

/-! ## Rounding a quotient -/

/-- The whole number nearest to `num / den`; of two equally near, the even one. -/
def nearestQuotient (num den : Nat) : Nat :=
  let quotient := num / den
  let twice := 2 * (num % den)
  if twice < den ∨ twice = den ∧ quotient % 2 = 0 then quotient else quotient + 1

theorem nearestQuotient_le (num den : Nat) : nearestQuotient num den ≤ num / den + 1 := by
  simp only [nearestQuotient]
  split <;> omega

/-- Binary places between a quotient of steps and its 53-bit neighbours. -/
def gridShift (num den : Nat) : Nat := (num / den).log2 - 52

/-- The count nearest to `num / den` among those of 53 significant bits. -/
def nearestUnits (num den : Nat) : Nat :=
  let shift := gridShift num den
  nearestQuotient num (den * Nat.pow 2 shift) * Nat.pow 2 shift

theorem nearestQuotient_grid_le (num den : Nat) :
    nearestQuotient num (den * Nat.pow 2 (gridShift num den)) ≤ Nat.pow 2 53 := by
  have bound : num / den / Nat.pow 2 (gridShift num den) < Nat.pow 2 53 := by
    simp only [Nat.pow_eq]
    rw [Nat.div_lt_iff_lt_mul (Nat.two_pow_pos _), ← Nat.pow_add]
    by_cases zero : num / den = 0
    · rw [zero]
      exact Nat.two_pow_pos _
    · refine (Nat.log2_lt zero).1 ?_
      simp only [gridShift]
      omega
  rw [Nat.div_div_eq_div_mul] at bound
  exact Nat.le_trans (nearestQuotient_le num _) bound

theorem nearestUnits_precise (num den : Nat) :
    Nat.pow 2 ((nearestUnits num den).log2 - 52) ∣ nearestUnits num den :=
  precise_mul_two_pow (nearestQuotient_grid_le num den) _

/-! ## Numbers -/

/-- A binary64 number: not a number, an infinity, or a sign and a count of
    steps. -/
inductive Number where
  | nan
  | infinite (negative : Bool)
  | finite (negative : Bool) (units : Nat) (representable : Representable units)
deriving DecidableEq

namespace Number

def zero (negative : Bool) : Number := .finite negative 0 representable_zero

instance : Inhabited Number := ⟨zero false⟩

/-- The number nearest to `num / den` steps, an infinity if that is out of
    range. -/
def nearest (negative : Bool) (num den : Nat) : Number :=
  if inRange : nearestUnits num den < unitsBound then
    .finite negative (nearestUnits num den) ⟨inRange, nearestUnits_precise num den⟩
  else
    .infinite negative

/-- The number nearest to a natural number. -/
def ofNat (n : Nat) : Number := nearest false (n * unitsPerOne) 1

/-- One half. -/
def half : Number := nearest false unitsPerOne 2

def isNaN : Number → Bool
  | nan => true
  | _ => false

def isZero : Number → Bool
  | finite _ units _ => units == 0
  | _ => false

/-! ## Order -/

/-- A magnitude with its sign. -/
def signed (negative : Bool) (units : Nat) : Int :=
  if negative then -(units : Int) else units

/-- Where a number stands on the line, in steps; an infinity stands at the
    bound of the range. -/
def position? : Number → Option Int
  | nan => none
  | infinite negative => some (signed negative unitsBound)
  | finite negative units _ => some (signed negative units)

/-- The order of two numbers, none if one of them is NaN. -/
def compare? (a b : Number) : Option Ordering :=
  match a.position?, b.position? with
  | some p, some q => some (compare p q)
  | _, _ => none

/-- Equal positions: `-0` equals `0`, and NaN nothing. -/
def equals (a b : Number) : Bool :=
  match a.position?, b.position? with
  | some p, some q => p == q
  | _, _ => false

end Number

end ProductFormula
