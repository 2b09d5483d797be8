/-
  The written form of a number, read back.

  Whatever the style, a decimal is laid out as a numeral of the same number
  (`Decimal.exists_numeral_layout`): the layouts differ in where they put the
  point and in the zeros they add, not in the value.

  * `Number.exists_numeral_magnitudeText`: a magnitude is written as a numeral
    that is read as the number, with no digit or point too many.
-/
import Mathlib.Data.List.Basic
import ProductFormula.Proofs.Number.Numeral
import ProductFormula.Proofs.Number.Reading

namespace ProductFormula

namespace Decimal

variable {digits : List Char}

/-! ## Significant digits -/

/-- Digits are their significant ones with zeros behind them. -/
theorem exists_toDigits_eq_significant (digits : Nat) :
    ∃ zeros, Nat.toDigits 10 digits = significant digits ++ List.replicate zeros '0' := by
  let behind := (Nat.toDigits 10 digits).reverse.takeWhile (· == '0')
  have hzeros : behind = List.replicate behind.length '0' := by
    refine List.eq_replicate_of_mem fun c hc => ?_
    simpa using List.all_eq_true.1 List.all_takeWhile c hc
  refine ⟨behind.length, ?_⟩
  calc Nat.toDigits 10 digits
    _ = (behind ++ (Nat.toDigits 10 digits).reverse.dropWhile (· == '0')).reverse := by
      rw [List.takeWhile_append_dropWhile, List.reverse_reverse]
    _ = significant digits ++ behind.reverse := by rw [List.reverse_append, significant]
    _ = significant digits ++ List.replicate behind.length '0' := by
      rw [hzeros, List.reverse_replicate, List.length_replicate]

theorem isDigit_significant (digits : Nat) : ∀ c ∈ significant digits, c.isDigit := by
  intro c hc
  obtain ⟨zeros, hdigits⟩ := exists_toDigits_eq_significant digits
  exact Numeral.isDigit_toDigits digits c (hdigits ▸ List.mem_append_left _ hc)

/-- The decimal of digits whose first one counts `10 ^ (top - 1)`. -/
def placed (digits : List Char) (top : Int) : Decimal :=
  ⟨Nat.ofDigitChars 10 digits 0, top - digits.length⟩

theorem exists_eq_scaled_significant (d : Decimal) :
    ∃ zeros, d = (placed (significant d.digits)
      ((Nat.toDigits 10 d.digits).length + d.exponent)).scaled zeros := by
  obtain ⟨digits, exponent⟩ := d
  obtain ⟨zeros, hdigits⟩ := exists_toDigits_eq_significant digits
  have hvalue : Nat.ofDigitChars 10 (significant digits) 0 * 10 ^ zeros = digits := by
    rw [Nat.mul_comm, ← Nat.ofDigitChars_replicate_zero, ← Nat.ofDigitChars_append, ← hdigits,
      Nat.ofDigitChars_ten_toDigits]
  have hlength : (Nat.toDigits 10 digits).length = (significant digits).length + zeros := by
    rw [hdigits, List.length_append, List.length_replicate]
  refine ⟨zeros, ?_⟩
  simp only [placed, scaled, hvalue, hlength, mk.injEq, true_and]
  omega

theorem significant_ne_nil {digits : Nat} (h : digits ≠ 0) : significant digits ≠ [] := by
  intro hnil
  obtain ⟨zeros, hd⟩ := exists_eq_scaled_significant ⟨digits, 0⟩
  have hdigits := congrArg Decimal.digits hd
  simp [placed, scaled, hnil] at hdigits
  exact h hdigits

theorem head?_toDigits {digits : Nat} (h : digits ≠ 0) :
    (Nat.toDigits 10 digits).head? ≠ some '0' := by
  induction digits using Nat.strongRecOn with
  | ind digits ih =>
    by_cases hlt : digits < 10
    · rw [Nat.toDigits_of_lt_base hlt]
      have hchar : ∀ d < 10, d ≠ 0 → Nat.digitChar d ≠ '0' := by decide
      simpa using hchar digits hlt h
    · have hfront := ih (digits / 10) (by omega) (by omega)
      rw [Nat.toDigits_of_base_le (by decide) (by omega),
        List.head?_append_of_ne_nil _ Nat.toDigits_ne_nil]
      exact hfront

theorem head?_significant {digits : Nat} (h : digits ≠ 0) :
    (significant digits).head? ≠ some '0' := by
  obtain ⟨zeros, hdigits⟩ := exists_toDigits_eq_significant digits
  have hhead := head?_toDigits h
  rwa [hdigits, List.head?_append_of_ne_nil _ (significant_ne_nil h)] at hhead

/-! ## Layouts -/

/-- A numeral is read as these digits at this place. -/
def Reads (n : Numeral) (digits : List Char) (top : Int) : Prop :=
  ∀ negative, n.decimal.toNumber negative = (placed digits top).toNumber negative

theorem Reads.of_eq {n : Numeral} {top : Int} (h : n.decimal = placed digits top) :
    Reads n digits top := fun negative => by rw [h]

theorem Reads.of_scaled {n : Numeral} {top : Int} (zeros : Nat)
    (h : n.decimal = (placed digits top).scaled zeros) : Reads n digits top :=
  fun negative => by rw [h, toNumber_scaled]

/-- `0.000digits` -/
theorem exists_numeral_below_one (hne : digits ≠ []) (hdigits : ∀ c ∈ digits, c.isDigit)
    (zeros : Nat) :
    ∃ n : Numeral, '0' :: '.' :: (List.replicate zeros '0' ++ digits) = n.chars ∧ n.Plain ∧
      Reads n digits (-zeros) := by
  have hall : ∀ c ∈ ['0'] ++ (List.replicate zeros '0' ++ digits), c.isDigit := by
    simp only [List.mem_append, List.mem_singleton, List.mem_replicate]
    rintro c (rfl | ⟨-, rfl⟩ | hc)
    · rfl
    · rfl
    · exact hdigits c hc
  refine ⟨⟨['0'], some (List.replicate zeros '0' ++ digits), none, by decide, hall⟩, ?_,
    ⟨fun _ => rfl, by simp [hne]⟩, .of_eq ?_⟩
  · simp [Numeral.chars]
  · simp [Numeral.decimal, placed, Nat.ofDigitChars_cons, Nat.ofDigitChars_append]
    omega

section

variable (hne : digits ≠ []) (hdigits : ∀ c ∈ digits, c.isDigit)
  (hhead : digits.head? ≠ some '0')
include hne hdigits hhead

/-- `digits000`, with `.0` behind or without -/
theorem exists_numeral_whole (pointZero : Bool) (zeros : Nat) :
    ∃ n : Numeral, digits ++ List.replicate zeros '0' ++ (if pointZero then ['.', '0'] else []) =
      n.chars ∧ n.Plain ∧ Reads n digits (digits.length + zeros) := by
  let whole := digits ++ List.replicate zeros '0'
  have hwhole : whole ≠ [] := by simp [whole, hne]
  have hfirst : whole.head? ≠ some '0' := by rwa [List.head?_append_of_ne_nil _ hne]
  have hvalue : Nat.ofDigitChars 10 whole 0 = Nat.ofDigitChars 10 digits 0 * 10 ^ zeros := by
    rw [Nat.ofDigitChars_append, Nat.ofDigitChars_replicate_zero, Nat.mul_comm]
  have hall : ∀ c ∈ whole, c.isDigit := by
    simp only [whole, List.mem_append, List.mem_replicate]
    rintro c (hc | ⟨-, rfl⟩)
    · exact hdigits c hc
    · rfl
  cases pointZero with
  | false =>
    refine ⟨⟨whole, none, none, hwhole, by simpa using hall⟩, ?_,
      ⟨fun h => absurd h hfirst, by simp⟩, .of_scaled zeros ?_⟩
    · simp [Numeral.chars, whole]
    · simp only [Numeral.decimal, placed, scaled, Option.getD_none, List.append_nil, hvalue,
        List.length_nil, mk.injEq, true_and]
      omega
  | true =>
    have hdigit : '0'.isDigit := rfl
    have hall' : ∀ c ∈ whole ++ ['0'], c.isDigit := by
      simpa [or_imp, forall_and, hdigit] using hall
    refine ⟨⟨whole, some ['0'], none, hwhole, hall'⟩, ?_,
      ⟨fun h => absurd h hfirst, by simp⟩, .of_scaled (zeros + 1) ?_⟩
    · simp [Numeral.chars, whole]
    · have hvalue' : Nat.ofDigitChars 10 (whole ++ ['0']) 0 =
          Nat.ofDigitChars 10 digits 0 * 10 ^ (zeros + 1) := by
        rw [Nat.ofDigitChars_append, hvalue, Nat.ofDigitChars_cons, Nat.ofDigitChars_nil,
          Nat.sub_self, Nat.add_zero, Nat.pow_succ, Nat.mul_comm, Nat.mul_assoc]
      simp only [Numeral.decimal, placed, scaled, Option.getD_none, Option.getD_some, hvalue',
        List.length_singleton, mk.injEq, true_and]
      omega

/-- `dig.its` -/
theorem exists_numeral_split {places : Nat} (hpos : places ≠ 0) (hlt : places < digits.length) :
    ∃ n : Numeral, digits.take places ++ '.' :: digits.drop places = n.chars ∧ n.Plain ∧
      Reads n digits places := by
  have hsplit : digits.take places ++ digits.drop places = digits := List.take_append_drop ..
  have hwhole : digits.take places ≠ [] := by simp [hne, hpos]
  have hfirst : (digits.take places).head? ≠ some '0' := by
    rwa [← hsplit, List.head?_append_of_ne_nil _ hwhole] at hhead
  refine ⟨⟨digits.take places, some (digits.drop places), none, hwhole,
    by simpa [hsplit] using hdigits⟩, ?_, ⟨fun h => absurd h hfirst, by simp [hlt]⟩, .of_eq ?_⟩
  · simp [Numeral.chars]
  · simp [Numeral.decimal, placed]
    omega

theorem exists_numeral_positional (pointZero : Bool) (top : Int) :
    ∃ n : Numeral, layoutPositional pointZero digits top = n.chars ∧ n.Plain ∧
      Reads n digits top := by
  unfold layoutPositional
  split
  next places =>
    split
    next h =>
      subst h
      exact exists_numeral_below_one hne hdigits 0
    next hpos =>
      split
      next h =>
        have hplaces : (digits.length : Int) + (places - digits.length : Nat) = places := by omega
        have hnumeral :=
          exists_numeral_whole hne hdigits hhead pointZero (places - digits.length)
        rwa [hplaces] at hnumeral
      next h => exact exists_numeral_split hne hdigits hhead hpos (by omega)
  next below => exact exists_numeral_below_one hne hdigits (below + 1)

/-- `d.igitse+0` -/
theorem exists_numeral_scientific (top : Int) :
    ∃ n : Numeral, layoutScientific digits top = n.chars ∧ n.Plain ∧ Reads n digits top := by
  match digits, hne, hdigits, hhead with
  | [first], _, hdigits, hhead =>
    refine ⟨⟨[first], none, some (top - 1), by simp, by simpa using hdigits⟩, rfl,
      ⟨fun h => absurd h hhead, by simp⟩, .of_eq ?_⟩
    simp [Numeral.decimal, placed]
  | first :: second :: rest, _, hdigits, hhead =>
    refine ⟨⟨[first], some (second :: rest), some (top - 1), by simp, hdigits⟩, rfl,
      ⟨fun h => absurd h hhead, by simp⟩, .of_eq ?_⟩
    simp [Numeral.decimal, placed]
    omega

end

/-- **A decimal is laid out as a numeral of the same number.** -/
theorem exists_numeral_layout (style : NumberStyle) {d : Decimal} (h : d.digits ≠ 0) :
    ∃ n : Numeral, d.layout style = n.chars ∧ n.Plain ∧
      ∀ negative, n.decimal.toNumber negative = d.toNumber negative := by
  have hne := significant_ne_nil h
  have hdigits := isDigit_significant d.digits
  have hhead := head?_significant h
  obtain ⟨zeros, hd⟩ := exists_eq_scaled_significant d
  have hread (negative : Bool) : d.toNumber negative =
      (placed (significant d.digits)
        ((Nat.toDigits 10 d.digits).length + d.exponent)).toNumber negative :=
    (congrArg (toNumber negative) hd).trans (toNumber_scaled ..)
  simp only [hread]
  unfold layout
  dsimp only
  split
  · exact exists_numeral_positional hne hdigits hhead style.pointZero _
  · exact exists_numeral_scientific hne hdigits hhead _

end Decimal

/-! ## Numbers -/

theorem Decimal.digits_shortest_ne_zero (tie : Tie) {units : Nat} (h : Representable units)
    (hne : units ≠ 0) : (Decimal.shortest tie units).digits ≠ 0 := by
  intro hzero
  have hread := Decimal.toNumber_shortest tie units
  rw [Number.nearest_representable false h, Decimal.toNumber, if_pos hzero, Number.zero] at hread
  exact hne (Number.finite.inj hread).2.symm

/-- **A magnitude is written as a numeral of that number**, whatever the style. -/
theorem Number.exists_numeral_magnitudeText (style : NumberStyle) {units : Nat}
    (h : Representable units) : ∃ n : Numeral, magnitudeText style units = n.chars ∧ n.Plain ∧
      n.decimal.toNumber false = finite false units h := by
  by_cases hzero : units = 0
  · subst hzero
    rw [magnitudeText, if_pos rfl]
    cases style.pointZero with
    | false =>
      refine ⟨⟨['0'], none, none, by decide, List.all_eq_true.1 rfl⟩, rfl, ⟨by simp, by simp⟩, ?_⟩
      rw [Decimal.toNumber, if_pos (by decide), zero]
    | true =>
      refine ⟨⟨['0'], some ['0'], none, by decide, List.all_eq_true.1 rfl⟩, rfl,
        ⟨by simp, by simp⟩, ?_⟩
      rw [Decimal.toNumber, if_pos (by decide), zero]
  · obtain ⟨n, hlayout, hplain, hread⟩ := Decimal.exists_numeral_layout style
      (Decimal.digits_shortest_ne_zero style.tie h hzero)
    refine ⟨n, ?_, hplain, ?_⟩
    · rw [magnitudeText, if_neg hzero, hlayout]
    · rw [hread, Decimal.toNumber_shortest, nearest_representable false h]

/-- **A number that is not negative is written as a numeral of that number.** -/
theorem Number.exists_numeral_chars {units : Nat} (h : Representable units) :
    ∃ n : Numeral, (finite false units h).chars = n.chars ∧
      n.decimal.toNumber false = finite false units h := by
  have hchars : (finite false units h).chars = magnitudeText formulaStyle units := by
    simp only [chars, signChars, Bool.false_and, Bool.false_eq_true, if_false, List.nil_append]
  obtain ⟨n, hn, -, hread⟩ := exists_numeral_magnitudeText formulaStyle h
  exact ⟨n, hchars.trans hn, hread⟩

end ProductFormula
