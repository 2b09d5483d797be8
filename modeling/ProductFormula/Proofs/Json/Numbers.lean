/-
  Numbers in JSON, read back.

  A finite number is written as a numeral, and a numeral is read to its end
  (`unsigned?_chars`): whatever may go wrong with it is its value
  (`readBack?`), which is reached by three roundings.  None of them changes
  anything where the digits fit into 53 bits and the power of ten is at most 22
  (`numberOf?_exact`).  A number that is not finite is not read at all.
-/
import ProductFormula.Json.Reader
import ProductFormula.Proofs.Number.Layout

namespace ProductFormula.Json

open Numeral

variable {n : Numeral} {rest : List Char}

/-! ## Parts of a numeral -/

theorem fraction?_point {fraction : Option (List Char)} (hne : fraction ≠ some [])
    (hfraction : ∀ c ∈ fraction.getD [], c.isDigit)
    (hrest : ∀ c ∈ rest.head?, c.isDigit = false ∧ c ≠ '.') :
    fraction? (pointChars fraction ++ rest) = some (fraction.getD [], rest) := by
  cases fraction with
  | none =>
    rcases rest with _ | ⟨c, cs⟩
    · rfl
    · have hc : c ≠ '.' := (hrest c rfl).2
      simp [fraction?, hc]
  | some digits =>
    have hdigits : digits ≠ [] := fun h => hne (congrArg some h)
    have hcut := Text.splitWhile_front hfraction fun c hc => (hrest c hc).1
    simp only [Option.getD_some] at hcut
    simp [fraction?, hcut, hdigits]

theorem exponent?_exponentChars (exponent : Int) (hrest : ∀ c ∈ rest.head?, c.isDigit = false) :
    exponent? (Decimal.exponentChars exponent ++ rest) = some (exponent, rest) := by
  have hcut (places : Nat) := Text.splitWhile_front (isDigit_toDigits places) hrest
  cases exponent with
  | ofNat places =>
    simp [exponent?, Decimal.exponentChars, Number.splitSign, hcut, Nat.toDigits_ne_nil]
  | negSucc below =>
    simp [exponent?, Decimal.exponentChars, Number.splitSign, hcut, Nat.toDigits_ne_nil]
    omega

/-- **A numeral is read to its end**, and its number is that of its digits and
    its power of ten. -/
theorem unsigned?_chars (hplain : n.Plain) (hrest : Numeral.Ends rest) :
    unsigned? (n.chars ++ rest) =
      (numberOf? n.whole (n.fraction.getD []) n.exponent).map fun m => (m, rest) := by
  have hwhole := Text.splitWhile_front n.isDigit_whole (hrest.head_point n.fraction n.exponent)
  have hfraction := fraction?_point hplain.fraction n.isDigit_fraction
    (hrest.head_marks n.exponent)
  have hleading : ¬ (n.whole = [] ∨ n.whole.head? = some '0' ∧ n.whole ≠ ['0']) := by
    rintro (hnil | ⟨hhead, hne⟩)
    · exact n.whole_ne_nil hnil
    · exact hne (hplain.whole hhead)
  have htext : n.chars ++ rest =
      n.whole ++ (pointChars n.fraction ++ (markChars n.exponent ++ rest)) := by
    simp [chars]
  simp only [htext, unsigned?, hwhole, hfraction, if_neg hleading, Option.bind_eq_bind,
    Option.bind_some]
  cases n.exponent with
  | none =>
    rw [markChars, List.nil_append]
    split
    next power => exact absurd rfl (hrest 'e' rfl).2.2.1
    next power => exact absurd rfl (hrest 'E' rfl).2.2.2
    · cases numberOf? n.whole (n.fraction.getD []) none <;> rfl
  | some exponent =>
    have hpower := exponent?_exponentChars exponent fun c hc => (hrest c hc).1
    simp only [markChars, List.cons_append, hpower, Option.bind_some]
    cases numberOf? n.whole (n.fraction.getD []) (some exponent) <;> rfl

/-! ## Written numbers -/

/-- What a number is read as, once it is written. -/
def readBack? (n : Number) : Option Number := (number? (numberChars n)).map (·.1)

/-- No number is read where none is written. -/
theorem number?_null (rest : List Char) : number? (nullChars ++ rest) = none := rfl

/-- **A signed numeral is read to its end**, and the sign is that of its number. -/
theorem number?_signed (hplain : n.Plain) (hrest : Numeral.Ends rest) (negative : Bool) :
    number? (Number.signChars negative ++ (n.chars ++ rest)) =
      (numberOf? n.whole (n.fraction.getD []) n.exponent).map fun m =>
        (if negative then m.neg else m, rest) := by
  have hread := unsigned?_chars hplain hrest
  cases negative with
  | true =>
    rw [Number.signChars, if_pos rfl, List.singleton_append, number?, hread, Option.map_map]
    rfl
  | false =>
    obtain ⟨first, more, hwhole⟩ := List.exists_cons_of_ne_nil n.whole_ne_nil
    have hdigit : first.isDigit := n.isDigit_whole first (by rw [hwhole]; exact List.mem_cons_self)
    have hunsigned : number? (n.chars ++ rest) = unsigned? (n.chars ++ rest) := by
      rw [chars, hwhole, List.cons_append, List.cons_append, number?]
      rintro _ hsign
      cases hsign
      cases hdigit
    rw [Number.signChars, if_neg Bool.false_ne_true, List.nil_append, hunsigned, hread]
    rfl

/-- What is read back is the number of the numeral that is written, with the
    sign of the number. -/
theorem readBack?_finite {units : Nat} {h : Representable units}
    (hn : Number.magnitudeText numberStyle units = n.chars) (hplain : n.Plain) (negative : Bool) :
    readBack? (.finite negative units h) =
      (numberOf? n.whole (n.fraction.getD []) n.exponent).map fun m =>
        if negative then m.neg else m := by
  have hread := number?_signed hplain ends_nil negative
  rw [List.append_nil] at hread
  rw [readBack?, numberChars, hn, hread, Option.map_map]
  rfl

/-- **A number is read up to what follows it.** -/
theorem number?_numberChars (m : Number) (hrest : Numeral.Ends rest) :
    number? (numberChars m ++ rest) = (readBack? m).map fun m' => (m', rest) := by
  cases m with
  | nan => exact number?_null rest
  | infinite => exact number?_null rest
  | finite negative units h =>
    obtain ⟨n, hn, hplain, -⟩ := Number.exists_numeral_magnitudeText numberStyle h
    rw [readBack?_finite hn hplain, numberChars, hn, List.append_assoc,
      number?_signed hplain hrest, Option.map_map]
    rfl

/-! ## Short decimals -/

section

variable {count places : Nat}

theorem le_ofDigitChars (cs : List Char) (start : Nat) : start ≤ Nat.ofDigitChars 10 cs start := by
  induction cs generalizing start with
  | nil => exact Nat.le_refl _
  | cons c cs ih =>
    rw [Nat.ofDigitChars_cons]
    exact Nat.le_trans (by omega) (ih _)

/-- The count is that of all digits if it fits. -/
theorem absorb_eq {cs : List Char} (h : Nat.ofDigitChars 10 cs count ≤ countBound) :
    absorb count cs = (Nat.ofDigitChars 10 cs count, []) := by
  induction cs generalizing count with
  | nil => rfl
  | cons c cs ih =>
    rw [Nat.ofDigitChars_cons] at h ⊢
    have hnext := Nat.le_trans (le_ofDigitChars cs _) h
    rw [Nat.mul_comm] at h hnext ⊢
    rw [absorb, if_pos hnext, ih h]

/-- Powers of ten up to 22 are numbers. -/
theorem representable_power (h : places ≤ 22) : Representable (10 ^ places * unitsPerOne) := by
  have hall : ∀ places ≤ 22, Representable (10 ^ places * unitsPerOne) := by decide +kernel
  exact hall places h

theorem powerOfTen_eq (h : places ≤ 22) :
    powerOfTen places = .finite false (10 ^ places * unitsPerOne) (representable_power h) := by
  rw [powerOfTen, Decimal.toNumber_eq_nearest, Decimal.numerator_whole, Decimal.denominator_whole,
    Nat.one_mul, Number.nearest_representable]

theorem mul_powerOfTen (hcount : count ≤ Nat.pow 2 53) (h : places ≤ 22) :
    (Number.nearest false (count * unitsPerOne) 1).mul (powerOfTen places) =
      Decimal.toNumber false ⟨count, places⟩ := by
  rw [Decimal.toNumber_eq_nearest, powerOfTen_eq h,
    Number.nearest_representable false (representable_whole hcount)]
  refine Number.nearest_congr false unitsPerOne_pos (Decimal.denominator_pos _) ?_
  rw [Decimal.numerator_whole, Decimal.denominator_whole, Nat.mul_one]
  generalize unitsPerOne = one
  ac_rfl

theorem div_powerOfTen (hcount : count ≤ Nat.pow 2 53) (h : places ≤ 22) :
    (Number.nearest false (count * unitsPerOne) 1).div (powerOfTen places) =
      Decimal.toNumber false ⟨count, -places⟩ := by
  have hpower : 0 < 10 ^ places * unitsPerOne :=
    Nat.mul_pos (Nat.pow_pos (by decide)) unitsPerOne_pos
  rw [Decimal.toNumber_eq_nearest, powerOfTen_eq h,
    Number.nearest_representable false (representable_whole hcount), Number.div,
    if_neg (Nat.ne_of_gt hpower)]
  refine Number.nearest_congr false hpower (Decimal.denominator_pos _) ?_
  rw [Decimal.numerator_fraction, Decimal.denominator_fraction]
  generalize unitsPerOne = one
  ac_rfl

/-- The product of a short count and a small power of ten is in range. -/
theorem toNumber_ne_infinite (hcount : count ≤ Nat.pow 2 53) (h : places ≤ 22) :
    ∀ sign, Decimal.toNumber false ⟨count, places⟩ ≠ .infinite sign := by
  have hpower : 10 ^ places ≤ 10 ^ 22 := Nat.pow_le_pow_right (by decide) h
  have hbound : Nat.pow 2 53 * 10 ^ 22 * unitsPerOne < 2 ^ 2097 := by decide +kernel
  rw [Decimal.toNumber_eq_nearest]
  refine Number.nearest_ne_infinite false ?_
  rw [Decimal.numerator_whole, Decimal.denominator_whole, Nat.div_one]
  refine Nat.lt_of_le_of_lt ?_ hbound
  exact Nat.mul_le_mul_right _ (Nat.mul_le_mul hcount hpower)

/-- **A count of 53 bits is scaled exactly** by a power of ten up to 22. -/
theorem scaled?_count (hcount : count ≤ Nat.pow 2 53) {exponent : Int}
    (hexponent : exponent.natAbs ≤ 22) :
    scaled? (.nearest false (count * unitsPerOne) 1) exponent =
      some (Decimal.toNumber false ⟨count, exponent⟩) := by
  rw [scaled?, if_pos (by omega)]
  by_cases hsign : 0 ≤ exponent
  · have hplaces : (exponent.natAbs : Int) = exponent := Int.natAbs_of_nonneg hsign
    have hproduct := mul_powerOfTen hcount hexponent
    have hfinite := toNumber_ne_infinite hcount hexponent
    rw [hplaces] at hproduct hfinite
    rw [if_pos hsign, hproduct]
    split
    next sign hinfinite => exact absurd hinfinite (hfinite sign)
    · rfl
  · have hplaces : -(exponent.natAbs : Int) = exponent := by omega
    have hquotient := div_powerOfTen hcount hexponent
    rw [hplaces] at hquotient
    rw [if_neg hsign, hquotient]

/-- **A numeral is read exactly if its digits fit into 53 bits** and its power
    of ten is at most 22. -/
theorem numberOf?_exact {n : Numeral} (hdigits : n.decimal.digits ≤ Nat.pow 2 53)
    (hexponent : n.decimal.exponent.natAbs ≤ 22) :
    numberOf? n.whole (n.fraction.getD []) n.exponent = some (n.decimal.toNumber false) := by
  have hbound : Nat.pow 2 53 ≤ countBound := by decide
  have hfits := Nat.le_trans hdigits hbound
  have hcount : n.decimal.digits =
      Nat.ofDigitChars 10 (n.fraction.getD []) (Nat.ofDigitChars 10 n.whole 0) :=
    Nat.ofDigitChars_append _
  have hwhole := Nat.le_trans (le_ofDigitChars (n.fraction.getD []) _) (hcount ▸ hfits)
  have hplaces : (0 : Int) - (n.fraction.getD []).length + n.exponent.getD 0 =
      n.decimal.exponent := by
    show _ = n.exponent.getD 0 - ((n.fraction.getD []).length : Int)
    omega
  have hscaled := scaled?_count hdigits hexponent
  rw [hcount] at hfits
  simp only [numberOf?, absorb_eq hwhole, absorb_eq hfits, List.length_nil, Nat.sub_zero,
    Int.natCast_zero, hplaces, ← hcount]
  split
  next hshort =>
    have hzero : n.decimal.exponent = (0 : Nat) := by
      rw [← hplaces, hshort.1, hshort.2.2]
      rfl
    have hdecimal : n.decimal = ⟨n.decimal.digits, (0 : Nat)⟩ := congrArg (Decimal.mk _) hzero
    rw [hdecimal, Decimal.toNumber_eq_nearest, Decimal.numerator_whole, Decimal.denominator_whole,
      Nat.pow_zero, Nat.mul_one]
  · exact hscaled

end

/-- **A number is read back exactly if its decimal is short**, at most 53 bits
    and 22 places. -/
theorem readBack?_of_short {units : Nat} (h : Representable units) {d : Decimal}
    (hd : Decimal.ofChars? (Number.magnitudeText numberStyle units) = some d)
    (hdigits : d.digits ≤ Nat.pow 2 53) (hexponent : d.exponent.natAbs ≤ 22) :
    readBack? (.finite false units h) = some (.finite false units h) := by
  obtain ⟨n, hn, hplain, hvalue⟩ := Number.exists_numeral_magnitudeText numberStyle h
  rw [hn, Numeral.ofChars?_chars] at hd
  cases hd
  rw [readBack?_finite hn hplain, numberOf?_exact hdigits hexponent, hvalue]
  rfl

/-- Both signs of a magnitude are read back if one is. -/
theorem readBack?_signed {units : Nat} {h : Representable units}
    (hexact : readBack? (.finite false units h) = some (.finite false units h))
    (negative : Bool) :
    readBack? (.finite negative units h) = some (.finite negative units h) := by
  cases negative with
  | false => exact hexact
  | true =>
    obtain ⟨n, hn, hplain, -⟩ := Number.exists_numeral_magnitudeText numberStyle h
    have hread : numberOf? n.whole (n.fraction.getD []) n.exponent =
        some (.finite false units h) := by
      rw [readBack?_finite hn hplain] at hexact
      simpa using hexact
    rw [readBack?_finite hn hplain, hread]
    rfl

/-- Both zeros are read back. -/
theorem readBack?_zero (negative : Bool) : readBack? (.zero negative) = some (.zero negative) :=
  readBack?_signed (readBack?_of_short representable_zero rfl (Nat.zero_le _) (by decide)) negative

end ProductFormula.Json
