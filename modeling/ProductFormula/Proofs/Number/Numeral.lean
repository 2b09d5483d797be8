/-
  Written numbers.

  A numeral is digits, perhaps a point with digits behind it, and perhaps an
  exponent mark with a signed exponent (`Numeral`).  It is read as the decimal
  it looks like (`Numeral.ofChars?_chars`), and in front of anything that could
  not continue it, it is cut off to its end (`Numeral.spanNumber_chars`).
-/
import ProductFormula.Number.Text
import ProductFormula.Token.Lexer

namespace ProductFormula

structure Numeral where
  whole : List Char
  /-- the digits behind the point, if there is one -/
  fraction : Option (List Char)
  exponent : Option Int
  whole_ne_nil : whole ≠ []
  isDigit : ∀ c ∈ whole ++ fraction.getD [], c.isDigit

namespace Numeral

open Text

/-! ## Text and value -/

/-- A point and the digits behind it. -/
@[simp] def pointChars : Option (List Char) → List Char
  | none => []
  | some digits => '.' :: digits

/-- An exponent mark and the exponent. -/
@[simp] def markChars : Option Int → List Char
  | none => []
  | some exponent => 'e' :: Decimal.exponentChars exponent

def chars (n : Numeral) : List Char :=
  n.whole ++ (pointChars n.fraction ++ markChars n.exponent)

def decimal (n : Numeral) : Decimal :=
  ⟨Nat.ofDigitChars 10 (n.whole ++ n.fraction.getD []) 0,
    n.exponent.getD 0 - (n.fraction.getD []).length⟩

/-- No zero stands in front of other digits, and behind a point there are
    digits. -/
structure Plain (n : Numeral) : Prop where
  whole : n.whole.head? = some '0' → n.whole = ['0']
  fraction : n.fraction ≠ some []

/-- What cannot continue a number. -/
def Ends (rest : List Char) : Prop :=
  ∀ c ∈ rest.head?, c.isDigit = false ∧ c ≠ '.' ∧ c ≠ 'e' ∧ c ≠ 'E'

theorem ends_nil : Ends [] := by
  intro c hc
  cases hc

variable {n : Numeral} {fraction : Option (List Char)} {exponent : Option Int} {rest : List Char}

theorem isDigit_whole (n : Numeral) : ∀ c ∈ n.whole, c.isDigit :=
  fun c hc => n.isDigit c (List.mem_append_left _ hc)

theorem isDigit_fraction (n : Numeral) : ∀ c ∈ n.fraction.getD [], c.isDigit :=
  fun c hc => n.isDigit c (List.mem_append_right _ hc)

theorem Ends.head_marks (h : Ends rest) (exponent : Option Int) :
    ∀ c ∈ (markChars exponent ++ rest).head?, c.isDigit = false ∧ c ≠ '.' := by
  intro c hc
  cases exponent with
  | none => exact ⟨(h c hc).1, (h c hc).2.1⟩
  | some =>
    cases hc
    decide

theorem Ends.head_point (h : Ends rest) (fraction : Option (List Char)) (exponent : Option Int) :
    ∀ c ∈ (pointChars fraction ++ (markChars exponent ++ rest)).head?, c.isDigit = false := by
  intro c hc
  cases fraction with
  | none => exact (h.head_marks exponent c hc).1
  | some =>
    cases hc
    rfl

theorem isDigit_toDigits (n : Nat) : ∀ c ∈ Nat.toDigits 10 n, c.isDigit :=
  fun _ hc => Nat.isDigit_of_mem_toDigits (by decide) (by decide) hc

/-! ## Cutting off -/

theorem spanFraction_point (hfraction : ∀ c ∈ fraction.getD [], c.isDigit)
    (hrest : ∀ c ∈ rest.head?, c.isDigit = false ∧ c ≠ '.') :
    Token.spanFraction (pointChars fraction ++ rest) = (pointChars fraction, rest) := by
  cases fraction with
  | none =>
    rcases rest with _ | ⟨c, cs⟩
    · rfl
    · have hc : c ≠ '.' := (hrest c rfl).2
      simp [pointChars, Token.spanFraction, hc]
  | some digits =>
    have hcut := splitWhile_front hfraction fun c hc => (hrest c hc).1
    simp only [Option.getD_some] at hcut
    simp [pointChars, Token.spanFraction, hcut]

theorem spanExponent_mark (hrest : Ends rest) :
    Token.spanExponent (markChars exponent ++ rest) = (markChars exponent, rest) := by
  cases exponent with
  | none =>
    rcases rest with _ | ⟨c, cs⟩
    · rfl
    · have hc : ¬ (c = 'e' ∨ c = 'E') := by
        rintro (rfl | rfl)
        · exact (hrest 'e' rfl).2.2.1 rfl
        · exact (hrest 'E' rfl).2.2.2 rfl
      simp [markChars, Token.spanExponent, hc]
  | some exponent =>
    have hcut (places : Nat) :=
      splitWhile_front (isDigit_toDigits places) fun c hc => (hrest c hc).1
    cases exponent <;>
      simp [markChars, Decimal.exponentChars, Token.spanExponent, Token.spanSign, hcut]

/-- **A numeral is cut off to its end.** -/
theorem spanNumber_chars (n : Numeral) (hrest : Ends rest) :
    ∃ first tail, n.chars = first :: tail ∧ first.isDigit ∧
      Token.spanNumber first (tail ++ rest) = (n.chars, rest) := by
  obtain ⟨first, more, hwhole⟩ := List.exists_cons_of_ne_nil n.whole_ne_nil
  have hdigits := n.isDigit_whole
  rw [hwhole] at hdigits
  have hfirst : first.isDigit := hdigits first List.mem_cons_self
  have hne : first ≠ '.' := by
    rintro rfl
    cases hfirst
  have hcut := splitWhile_front (fun c hc => hdigits c (List.mem_cons_of_mem _ hc))
    (hrest.head_point n.fraction n.exponent)
  have hfraction := spanFraction_point n.isDigit_fraction (hrest.head_marks n.exponent)
  refine ⟨first, more ++ (pointChars n.fraction ++ markChars n.exponent), ?_, hfirst, ?_⟩
  · rw [chars, hwhole, List.cons_append]
  · simp only [Token.spanNumber, Token.spanMantissa, if_neg hne, List.append_assoc, hcut,
      hfraction, spanExponent_mark hrest, chars, hwhole, List.cons_append]

/-! ## Reading -/

theorem naturalOf?_toDigits (n : Nat) : Decimal.naturalOf? (Nat.toDigits 10 n) = some n := by
  rw [Decimal.naturalOf?, if_pos ⟨Nat.toDigits_ne_nil, List.all_eq_true.2 (isDigit_toDigits n)⟩,
    Nat.ofDigitChars_ten_toDigits]

theorem exponentOf?_exponentChars (exponent : Int) :
    Decimal.exponentOf? (Decimal.exponentChars exponent) = some exponent := by
  cases exponent with
  | ofNat n =>
    rw [Decimal.exponentChars, Decimal.exponentOf?, naturalOf?_toDigits]
    rfl
  | negSucc n =>
    rw [Decimal.exponentChars, Decimal.exponentOf?, naturalOf?_toDigits]
    rfl

theorem splitFraction_point (hfraction : ∀ c ∈ fraction.getD [], c.isDigit)
    (hrest : ∀ c ∈ rest.head?, c.isDigit = false ∧ c ≠ '.') :
    Decimal.splitFraction (pointChars fraction ++ rest) = (fraction.getD [], rest) := by
  cases fraction with
  | none =>
    rcases rest with _ | ⟨c, cs⟩
    · rfl
    · have hc : c ≠ '.' := (hrest c rfl).2
      simp [pointChars, Decimal.splitFraction, hc]
  | some digits => exact splitWhile_front hfraction fun c hc => (hrest c hc).1

/-- **A numeral is read as its decimal.** -/
theorem ofChars?_chars (n : Numeral) : Decimal.ofChars? n.chars = some n.decimal := by
  have hpoint := ends_nil.head_point n.fraction n.exponent
  have hmarks := ends_nil.head_marks n.exponent
  rw [List.append_nil] at hpoint hmarks
  have hwhole := splitWhile_front n.isDigit_whole hpoint
  have hfraction := splitFraction_point n.isDigit_fraction hmarks
  simp only [Decimal.ofChars?, chars, hwhole, hfraction, n.whole_ne_nil, false_and, if_false]
  unfold decimal
  cases n.exponent with
  | none => simp [markChars]
  | some exponent => simp [markChars, exponentOf?_exponentChars]

end Numeral

end ProductFormula
