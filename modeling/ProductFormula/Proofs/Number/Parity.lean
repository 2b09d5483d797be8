/-
  Rounding to even and odd numbers.

  Halves and quarters of numbers that are not too great are exact, so on the grid
  of quarters (`Quarters`) the operations compute what they say: sums, halves,
  doubles and whole parts of counts (`Quarters.add` and so on).  Twice the
  rounded half of a number is then the nearest even number, and one more than
  that the next odd number above, which need not be the nearest one.

  * `Quarters.roundHalfUp`: the whole number nearest to a count of quarters, a
    half going up;
  * `nearest_of_parity`: of a whole number or one and a half, `2 * round (x / 2)`
    is the nearest even number, and `2 * round (x / 2) + 1` the nearest odd one
    only where the whole part is even.
-/
import Mathlib.Algebra.Order.Round
import Mathlib.Algebra.Ring.Int.Parity
import Mathlib.Data.Rat.Floor
import ProductFormula.Proofs.Number.Nearest
import ProductFormula.Proofs.Number.Order

namespace ProductFormula

/-- Steps in a quarter. -/
@[irreducible] def unitsPerQuarter : Nat := unitsPerOne / 4

theorem unitsPerOne_eq : unitsPerOne = 4 * unitsPerQuarter := by decide +kernel

theorem unitsPerQuarter_pos : 0 < unitsPerQuarter := by decide +kernel

theorem cast_unitsPerQuarter_pos : (0 : Int) < unitsPerQuarter :=
  Int.natCast_pos.2 unitsPerQuarter_pos

/-- Counts of 53 bits are numbers of quarters. -/
theorem representable_quarters {count : Nat} (h : count ≤ 2 ^ 53) :
    Representable (count * unitsPerQuarter) := by
  have hbound : Nat.pow 2 53 * unitsPerQuarter < unitsBound := by decide +kernel
  have hgrid : Nat.pow 2 unitsPerQuarter.log2 = unitsPerQuarter := by decide +kernel
  have hprecise := precise_mul_two_pow h unitsPerQuarter.log2
  rw [hgrid] at hprecise
  exact ⟨Nat.lt_of_le_of_lt (Nat.mul_le_mul_right _ h) hbound, hprecise⟩

namespace Number

variable {a b n : Number} {negative : Bool} {c d : Int} {count num den : Nat}

/-! ## Places -/

theorem signed_false (units : Nat) : signed false units = units := rfl

theorem signed_true (units : Nat) : signed true units = -units := rfl

theorem signed_mul (negative : Bool) (count steps : Nat) :
    signed negative (count * steps) = signed negative count * steps := by
  cases negative <;> simp [signed]

theorem signed_not (negative : Bool) (units : Nat) :
    signed (!negative) units = -signed negative units := by
  cases negative <;> simp [signed]

theorem signed_natAbs (i : Int) : signed (decide (i < 0)) i.natAbs = i := by
  by_cases h : i < 0
  · rw [decide_eq_true h, signed, if_pos rfl]
    omega
  · rw [decide_eq_false h, signed, if_neg Bool.false_ne_true]
    omega

/-- The number is so many quarters, of a count that has its exact half and
    double. -/
structure Quarters (n : Number) (c : Int) : Prop where
  position : n.position? = some (c * unitsPerQuarter)
  small : c.natAbs ≤ 2 ^ 53

theorem quarters_finite {representable : Representable (count * unitsPerQuarter)}
    (h : count ≤ 2 ^ 53) :
    Quarters (finite negative (count * unitsPerQuarter) representable) (signed negative count) where
  position := congrArg some (signed_mul _ _ _)
  small := by rwa [natAbs_signed]

/-- Such a number has a sign and a count of quarters. -/
theorem Quarters.exists_finite (h : Quarters n c) : ∃ negative representable,
    n = finite negative (c.natAbs * unitsPerQuarter) representable ∧
      signed negative c.natAbs = c := by
  obtain ⟨hposition, hsmall⟩ := h
  have hrepresentable := representable_quarters hsmall
  have hlength : (c * unitsPerQuarter).natAbs = c.natAbs * unitsPerQuarter := by
    rw [Int.natAbs_mul, Int.natAbs_natCast]
  cases n with
  | nan => cases hposition
  | infinite negative =>
    have hunits := congrArg Int.natAbs (Option.some.inj hposition)
    rw [natAbs_signed, hlength] at hunits
    exact absurd hunits (Nat.ne_of_gt hrepresentable.1)
  | finite negative units representable =>
    have hplace : signed negative units = c * unitsPerQuarter := Option.some.inj hposition
    have hunits := congrArg Int.natAbs hplace
    rw [natAbs_signed, hlength] at hunits
    subst hunits
    rw [signed_mul] at hplace
    have hne := Int.ne_of_gt cast_unitsPerQuarter_pos
    exact ⟨negative, representable, rfl, Int.eq_of_mul_eq_mul_right hne hplace⟩

/-- A quotient of so many quarters is rounded to itself. -/
theorem quarters_nearest (hden : 0 < den) (hnum : num = count * unitsPerQuarter * den)
    (h : count ≤ 2 ^ 53) : Quarters (nearest negative num den) (signed negative count) := by
  have hexact : nearest negative num den = nearest negative (count * unitsPerQuarter) 1 :=
    nearest_congr negative hden Nat.one_pos (by rw [hnum, Nat.mul_one])
  rw [hexact, nearest_representable negative (representable_quarters h)]
  exact quarters_finite h

theorem quarters_ofNat {k : Nat} (h : 4 * k ≤ 2 ^ 53) : Quarters (ofNat k) (4 * k) := by
  have hnum : k * unitsPerOne = 4 * k * unitsPerQuarter * 1 := by
    rw [unitsPerOne_eq, Nat.mul_one, ← Nat.mul_assoc, Nat.mul_comm k 4]
  exact @quarters_nearest false _ _ _ Nat.one_pos hnum h

theorem quarters_half : Quarters half 2 := by
  have hnum : unitsPerOne = 2 * unitsPerQuarter * 2 := by
    rw [unitsPerOne_eq]
    omega
  exact @quarters_nearest false 2 _ _ Nat.two_pos hnum (by decide)

/-! ## Operations -/

theorem Quarters.neg (h : Quarters a c) : Quarters a.neg (-c) := by
  obtain ⟨negative, representable, rfl, hc⟩ := h.exists_finite
  have hsign : signed (!negative) c.natAbs = -c := by rw [signed_not, hc]
  rw [← hsign]
  exact quarters_finite h.small

theorem Quarters.add (ha : Quarters a c) (hb : Quarters b d) (h : (c + d).natAbs ≤ 2 ^ 53) :
    Quarters (a.add b) (c + d) := by
  obtain ⟨s, hs, rfl, hc⟩ := ha.exists_finite
  obtain ⟨t, ht, rfl, hd⟩ := hb.exists_finite
  have hsum : signed s (c.natAbs * unitsPerQuarter) + signed t (d.natAbs * unitsPerQuarter) =
      (c + d) * unitsPerQuarter := by
    rw [signed_mul, signed_mul, hc, hd, Int.add_mul]
  have hpos := cast_unitsPerQuarter_pos
  simp only [Number.add, hsum]
  split
  next hzero =>
    have hnone : c + d = 0 := (Int.mul_eq_zero.1 hzero).resolve_right (Int.ne_of_gt hpos)
    rw [hnone]
    exact ⟨by cases s && t <;> simp [zero, position?, signed], Nat.zero_le _⟩
  next hne =>
    have hsign : decide ((c + d) * unitsPerQuarter < 0) = decide (c + d < 0) :=
      decide_eq_decide.2 ⟨fun hlt => Int.not_le.1 fun hle =>
          Int.not_le.2 hlt (Int.mul_nonneg hle (Int.le_of_lt hpos)),
        fun hlt => Int.mul_neg_of_neg_of_pos hlt hpos⟩
    have hnum : ((c + d) * (unitsPerQuarter : Int)).natAbs =
        (c + d).natAbs * unitsPerQuarter * 1 := by
      rw [Int.natAbs_mul, Int.natAbs_natCast, Nat.mul_one]
    rw [hsign]
    have hplace := @quarters_nearest (decide (c + d < 0)) _ _ _ Nat.one_pos hnum h
    rwa [signed_natAbs] at hplace

theorem Quarters.sub (ha : Quarters a c) (hb : Quarters b d) (h : (c - d).natAbs ≤ 2 ^ 53) :
    Quarters (a.sub b) (c - d) := by
  have hsum := ha.add hb.neg
  rw [← Int.sub_eq_add_neg] at hsum
  exact hsum h

theorem ofNat_two : ∃ representable,
    ofNat 2 = finite false (8 * unitsPerQuarter) representable := by
  obtain ⟨negative, representable, htwo, hsign⟩ :=
    (quarters_ofNat (k := 2) (by decide)).exists_finite
  cases negative
  · exact ⟨representable, htwo⟩
  · exact absurd hsign (by decide)

theorem Quarters.two_mul (ha : Quarters a c) (h : (2 * c).natAbs ≤ 2 ^ 53) :
    Quarters ((ofNat 2).mul a) (2 * c) := by
  obtain ⟨s, hs, rfl, hc⟩ := ha.exists_finite
  obtain ⟨ht, htwo⟩ := ofNat_two
  have hcount : (2 * c).natAbs = 2 * c.natAbs := Int.natAbs_mul 2 c
  have hnum : 8 * unitsPerQuarter * (c.natAbs * unitsPerQuarter) =
      2 * c.natAbs * unitsPerQuarter * unitsPerOne := by
    rw [unitsPerOne_eq]
    grind
  have hsign : signed s (2 * c.natAbs) = 2 * c := by
    rw [Nat.mul_comm, signed_mul, hc, Int.mul_comm]
    rfl
  rw [htwo, ← hsign]
  simp only [Number.mul, Bool.false_xor]
  exact quarters_nearest (by decide +kernel) hnum (by rwa [← hcount])

theorem Quarters.half (ha : Quarters a (2 * c)) : Quarters (a.div (ofNat 2)) c := by
  obtain ⟨s, hs, rfl, hc⟩ := ha.exists_finite
  obtain ⟨ht, htwo⟩ := ofNat_two
  have hcount : (2 * c).natAbs = 2 * c.natAbs := Int.natAbs_mul 2 c
  have hnum : (2 * c).natAbs * unitsPerQuarter * unitsPerOne =
      c.natAbs * unitsPerQuarter * (8 * unitsPerQuarter) := by
    rw [unitsPerOne_eq, hcount]
    grind
  have hsign : signed s c.natAbs = c := by
    rw [hcount] at hc
    cases s <;> simp only [signed_true, signed_false] at hc ⊢ <;> omega
  have hpos : 0 < 8 * unitsPerQuarter := Nat.mul_pos (by decide) unitsPerQuarter_pos
  have hsmall : c.natAbs ≤ 2 ^ 53 := by
    have := ha.small
    omega
  rw [htwo]
  simp only [Number.div, Bool.xor_false, if_neg (Nat.ne_of_gt hpos)]
  have hplace := @quarters_nearest s _ _ _ hpos hnum hsmall
  rwa [hsign] at hplace

theorem wholeBelow_quarters (count : Nat) : wholeBelow (count * unitsPerQuarter) = count / 4 := by
  rw [wholeBelow, unitsPerOne_eq, Nat.mul_div_mul_right _ _ unitsPerQuarter_pos]

theorem wholeAbove_quarters (count : Nat) :
    wholeAbove (count * unitsPerQuarter) = (count + 3) / 4 := by
  have hpos := unitsPerQuarter_pos
  have hsplit : count * unitsPerQuarter + 4 * unitsPerQuarter - 1 =
      unitsPerQuarter - 1 + unitsPerQuarter * (count + 3) := by
    rw [Nat.mul_add, Nat.mul_comm count]
    omega
  rw [wholeAbove, unitsPerOne_eq, hsplit, Nat.mul_comm 4, ← Nat.div_div_eq_div_mul,
    Nat.add_mul_div_left _ _ hpos, Nat.div_eq_of_lt (Nat.sub_lt hpos Nat.one_pos), Nat.zero_add]

/-- Below zero the whole part is further from zero. -/
theorem Quarters.floor (ha : Quarters a c) : Quarters a.floor (4 * (c / 4)) := by
  have hsmall := ha.small
  obtain ⟨s, hs, rfl, hc⟩ := ha.exists_finite
  simp only [Number.floor, toWhole]
  cases s
  · have hsign : 4 * (c / 4) = signed false (4 * (c.natAbs / 4)) := by
      simp only [signed_false] at hc ⊢
      omega
    rw [hsign]
    refine quarters_nearest Nat.one_pos ?_ (by omega)
    rw [if_neg Bool.false_ne_true, wholeBelow_quarters, unitsPerOne_eq]
    grind
  · have hsign : 4 * (c / 4) = signed true (4 * ((c.natAbs + 3) / 4)) := by
      simp only [signed_true] at hc ⊢
      omega
    rw [hsign]
    refine quarters_nearest Nat.one_pos ?_ (by omega)
    rw [if_pos rfl, wholeAbove_quarters, unitsPerOne_eq]
    grind

theorem Quarters.le_iff (ha : Quarters a c) (hb : Quarters b d) : a.le b ↔ c ≤ d := by
  have hpos := cast_unitsPerQuarter_pos
  rw [Number.le_iff]
  constructor
  · rintro ⟨p, q, hp, hq, h⟩
    rw [ha.position, Option.some.injEq] at hp
    rw [hb.position, Option.some.injEq] at hq
    rw [← hp, ← hq] at h
    exact Int.le_of_mul_le_mul_right h hpos
  · exact fun h => ⟨_, _, ha.position, hb.position, Int.mul_le_mul_of_nonneg_right h (Int.le_of_lt hpos)⟩

/-- What is left over the whole part is under a half, or the next whole number
    is taken. -/
theorem Quarters.roundHalfUp (ha : Quarters a c) (h : c.natAbs ≤ 2 ^ 52) :
    Quarters a.roundHalfUp (4 * ((c + 2) / 4)) := by
  have hover := ha.sub ha.floor (by omega)
  have hone : Quarters (ofNat 1) 4 := quarters_ofNat (k := 1) (by decide)
  have hnext := ha.floor.add hone (by omega)
  have hle := quarters_half.le_iff hover
  simp only [Number.roundHalfUp]
  split
  next hup =>
    have hwhole : 4 * (c / 4) + 4 = 4 * ((c + 2) / 4) := by
      have := hle.1 hup
      omega
    rwa [← hwhole]
  next hdown =>
    have hwhole : 4 * (c / 4) = 4 * ((c + 2) / 4) := by
      have := mt hle.2 hdown
      omega
    rw [← hwhole]
    exact ha.floor

theorem Quarters.nearestEven (ha : Quarters a (2 * c)) (h : c.natAbs < 2 ^ 51) :
    Quarters a.nearestEven (8 * ((c + 2) / 4)) := by
  have hdouble := (ha.half.roundHalfUp (by omega)).two_mul (by omega)
  rwa [← Int.mul_assoc] at hdouble

theorem Quarters.nearestOdd (ha : Quarters a (2 * c)) (h : c.natAbs < 2 ^ 51) :
    Quarters a.nearestOdd (8 * ((c + 2) / 4) + 4) :=
  (ha.nearestEven h).add (quarters_ofNat (k := 1) (by decide)) (by omega)

/-! ## Nearest numbers of a parity -/

def Whole (n : Number) (k : Int) : Prop := n.position? = some (k * unitsPerOne)

def Halves (n : Number) (halves : Int) : Prop :=
  ∃ p, n.position? = some p ∧ 2 * p = halves * unitsPerOne

/-- What the number of a parity that is nearest to another has to be: at most one
    away, and the number itself if that has the parity. -/
structure IsNearest (parity : Int → Prop) (n rounded : Number) : Prop where
  right : ∃ k, rounded.Whole k ∧ parity k
  near : ∃ p q, n.position? = some p ∧ rounded.position? = some q ∧
    (q - p).natAbs ≤ unitsPerOne
  kept : ∀ k, n.Whole k → parity k → rounded = n

variable {halves k : Int}

theorem Halves.quarters (h : n.Halves halves) (hsmall : halves.natAbs ≤ 2 ^ 52) :
    Quarters n (2 * halves) := by
  obtain ⟨p, hp, hplace⟩ := h
  refine ⟨?_, by omega⟩
  rw [unitsPerOne_eq] at hplace
  rw [hp, Option.some.injEq]
  grind

theorem Quarters.to_halves (h : Quarters n (2 * halves)) : n.Halves halves := by
  refine ⟨_, h.position, ?_⟩
  rw [unitsPerOne_eq]
  grind

theorem Quarters.whole (h : Quarters n (4 * k)) : n.Whole k := by
  rw [Whole, h.position, unitsPerOne_eq]
  grind

/-- Distances are counted in halves. -/
theorem Quarters.near_iff (hn : Quarters n (2 * halves)) (hk : Quarters a (4 * k)) :
    (∃ p q, n.position? = some p ∧ a.position? = some q ∧ (q - p).natAbs ≤ unitsPerOne) ↔
      (2 * k - halves).natAbs ≤ 2 := by
  have hdistance : (4 * k * unitsPerQuarter - 2 * halves * unitsPerQuarter : Int).natAbs =
      (2 * k - halves).natAbs * (2 * unitsPerQuarter) := by
    rw [← Int.sub_mul, Int.natAbs_mul, Int.natAbs_natCast, ← Nat.mul_assoc]
    exact congrArg (· * unitsPerQuarter) (by omega)
  have hpos : 0 < 2 * unitsPerQuarter := Nat.mul_pos Nat.two_pos unitsPerQuarter_pos
  have hone : unitsPerOne = 2 * (2 * unitsPerQuarter) := by
    rw [unitsPerOne_eq]
    omega
  simp only [hn.position, hk.position, Option.some.injEq, exists_and_left, exists_eq_left',
    hdistance, hone, Nat.mul_le_mul_right_iff hpos]

theorem Whole.halves_eq (hk : n.Whole k) (h : n.Halves halves) : halves = 2 * k := by
  obtain ⟨p, hp, hplace⟩ := h
  rw [Option.some.inj (hp.symm.trans hk), ← Int.mul_assoc] at hplace
  have hne : (unitsPerOne : Int) ≠ 0 := Int.natCast_ne_zero.2 (Nat.ne_of_gt unitsPerOne_pos)
  exact (Int.eq_of_mul_eq_mul_right hne hplace).symm

/-- Only zero has two numbers at its place. -/
theorem Quarters.unique (ha : Quarters a c) (hb : Quarters b c) (hne : c ≠ 0) : a = b := by
  obtain ⟨s, hs, rfl, hsign⟩ := ha.exists_finite
  obtain ⟨t, ht, rfl, hsign'⟩ := hb.exists_finite
  have hsame : s = t := signed_inj (by omega) (hsign.trans hsign'.symm)
  subst hsame
  rfl

theorem nearestEven_zero (negative : Bool) : (zero negative).nearestEven = zero negative := by
  cases negative <;> decide +kernel

/-- An even number is left alone, a zero with its sign. -/
theorem Quarters.nearestEven_eq (ha : Quarters a (2 * c)) (h : c.natAbs < 2 ^ 51)
    (heven : 4 ∣ c) : a.nearestEven = a := by
  by_cases hzero : c = 0
  · obtain ⟨negative, representable, rfl, -⟩ := ha.exists_finite
    have hnone : finite negative ((2 * c).natAbs * unitsPerQuarter) representable =
        zero negative := by
      simp [hzero, zero]
    rw [hnone, nearestEven_zero]
  · have hplace := ha.nearestEven h
    rw [show 8 * ((c + 2) / 4) = 2 * c by omega] at hplace
    exact hplace.unique ha (by omega)

/-- Half of a number that is so many halves, rounded to a whole number, with
    what lies in the middle going up. -/
def roundedHalf (halves : Int) : Int := round (halves / 4 : ℚ)

theorem roundedHalf_eq (halves : Int) : roundedHalf halves = (halves + 2) / 4 := by
  have hsum : (halves / 4 + 1 / 2 : ℚ) = (halves + 2 : Int) / (4 : Nat) := by
    push_cast
    ring
  rw [roundedHalf, round_eq, hsum, Rat.floor_intCast_div_natCast]
  rfl

/-- **Twice the rounded half is the nearest even number, and one more than that
    the next odd number above.**  Half of an odd whole part is rounded up before
    the one is added, so that the odd number is the nearest one of an even whole
    part only. -/
theorem nearest_of_parity (h : n.Halves halves) (hsmall : halves.natAbs < 2 ^ 51) :
    IsNearest Even n n.nearestEven ∧ (IsNearest Odd n n.nearestOdd ↔ Even (halves / 2)) ∧
      n.nearestEven.Whole (2 * roundedHalf halves) ∧
      ∃ k, k = 2 * roundedHalf halves + 1 ∧ n.nearestOdd.Whole k ∧ Odd k ∧ halves < 2 * k ∧
        2 * k ≤ halves + 4 := by
  have hn := h.quarters (by omega)
  have hrounded := roundedHalf_eq halves
  have heven : Quarters n.nearestEven (4 * (2 * roundedHalf halves)) := by
    rw [← Int.mul_assoc, hrounded]
    exact hn.nearestEven hsmall
  have hodd : Quarters n.nearestOdd (4 * (2 * roundedHalf halves + 1)) := by
    rw [Int.mul_add, ← Int.mul_assoc, hrounded]
    exact hn.nearestOdd hsmall
  refine ⟨⟨⟨_, heven.whole, Int.even_iff.2 (by omega)⟩, (hn.near_iff heven).2 (by omega), ?_⟩,
    ⟨?_, ?_⟩, heven.whole, _, rfl, hodd.whole, Int.odd_iff.2 (by omega), by omega, by omega⟩
  · intro k hk hparity
    have hcount := hk.halves_eq h
    rw [Int.even_iff] at hparity
    exact hn.nearestEven_eq hsmall (by omega)
  · intro hnearest
    have hnear := (hn.near_iff hodd).1 hnearest.near
    exact Int.even_iff.2 (by omega)
  · intro hparity
    rw [Int.even_iff] at hparity
    refine ⟨⟨_, hodd.whole, Int.odd_iff.2 (by omega)⟩, (hn.near_iff hodd).2 (by omega), ?_⟩
    intro k hk hother
    have hcount := hk.halves_eq h
    rw [Int.odd_iff] at hother
    omega

/-- At two and a half the nearest odd number is three. -/
theorem nearest_of_parity_five_halves :
    (nearest false (5 * unitsPerOne) 2).Halves 5 ∧ (5 : Int).natAbs < 2 ^ 51 ∧
      Even (5 / 2 : Int) ∧
      IsNearest Odd (nearest false (5 * unitsPerOne) 2)
        (nearest false (5 * unitsPerOne) 2).nearestOdd := by
  have hhalves : (nearest false (5 * unitsPerOne) 2).Halves 5 := by
    have hnum : 5 * unitsPerOne = 10 * unitsPerQuarter * 2 := by
      rw [unitsPerOne_eq]
      omega
    exact (@quarters_nearest false 10 _ _ Nat.two_pos hnum (by decide)).to_halves
  have heven : Even (5 / 2 : Int) := by decide
  exact ⟨hhalves, by decide, heven, (nearest_of_parity hhalves (by decide)).2.1.2 heven⟩

/-- Five is odd, but `2 * round (5 / 2) + 1` is seven. -/
theorem nearestOdd_five :
    (ofNat 5).Whole 5 ∧ Odd (5 : Int) ∧ (ofNat 5).nearestOdd = ofNat 7 ∧
      ¬ IsNearest Odd (ofNat 5) (ofNat 5).nearestOdd := by
  have hfive : (ofNat 5).Whole 5 := (quarters_ofNat (k := 5) (by decide)).whole
  have hseven : (ofNat 5).nearestOdd = ofNat 7 := by decide +kernel
  have hodd : Odd (5 : Int) := by decide
  refine ⟨hfive, hodd, hseven, fun hnearest => ?_⟩
  have hkept := hnearest.kept 5 hfive hodd
  rw [hseven] at hkept
  exact absurd hkept (by decide +kernel)

end Number

end ProductFormula
