/-
  Displayed numbers and their readers.

  The text of a number is a word behind a sign, and the word is a numeral or the
  name of what is not finite (`Number.Spelled`).  Three readers take such texts:
  the coercion of text values, which knows of the names `Infinity` alone; the
  parser, to which the sign is an operator and the names are constants; and the
  command line, which takes the names in any case.

  * `Number.text_readBack`: what is displayed is the same number to all three.
-/
import Mathlib
import ProductFormula.CommandLine.Settings
import ProductFormula.Expr.Evaluation
import ProductFormula.Proofs.Number.Decimals

namespace ProductFormula

open Text

/-! ## Signs -/

theorem Number.neg_nearest (num den : Nat) :
    (Number.nearest false num den).neg = .nearest true num den := by
  unfold nearest
  split <;> rfl

/-- The sign of a decimal is the sign of its number. -/
theorem Decimal.neg_toNumber (d : Decimal) : (d.toNumber false).neg = d.toNumber true := by
  rw [toNumber_eq_nearest, toNumber_eq_nearest, Number.neg_nearest]

/-- A minus sign makes a number negative. -/
def Number.withSign (negative : Bool) (n : Number) : Number := if negative then n.neg else n

theorem Decimal.withSign_toNumber (negative : Bool) (d : Decimal) :
    (d.toNumber false).withSign negative = d.toNumber negative := by
  cases negative with
  | false => rfl
  | true => exact d.neg_toNumber

theorem Number.splitSign_signChars (negative : Bool) {word : List Char}
    (h : ∀ c ∈ word.head?, c ≠ '+' ∧ c ≠ '-') :
    splitSign (signChars negative ++ word) = (negative, word) := by
  cases negative with
  | true => rfl
  | false =>
    rw [signChars, if_neg Bool.false_ne_true, List.nil_append]
    exact splitSign_unsigned h

/-! ## Words -/

theorem Numeral.exists_first (n : Numeral) :
    ∃ first more, n.chars = first :: more ∧ first.isDigit := by
  obtain ⟨first, more, hchars, hdigit, -⟩ := n.spanNumber_chars ends_nil
  exact ⟨first, more, hchars, hdigit⟩

/-- A numeral is no name that starts with no digit, in whatever case. -/
theorem Numeral.lower_ne (n : Numeral) {name : List Char}
    (hname : ∀ c ∈ name.head?, c.isDigit = false) : n.chars.map Char.toLower ≠ name := by
  obtain ⟨first, more, hchars, hdigit⟩ := n.exists_first
  have hupper : ¬ first.isUpper := by
    intro hupper
    have hrange := Text.isUpper_iff_toNat.1 hupper
    have hdigits := Char.isDigit_iff_toNat.1 hdigit
    exact absurd (Nat.le_trans hrange.1 hdigits.2) (by decide)
  rintro rfl
  rw [hchars, List.map_cons, Char.toLower_eq_of_not_isUpper hupper] at hname
  rw [hname first rfl] at hdigit
  cases hdigit

namespace Number

/-- The number that a number's text denotes: both zeros are written alike. -/
def displayed (n : Number) : Number := if n.isZero then .zero false else n

/-- The word that stands for the number behind a sign. -/
inductive Spelled : Number → (negative : Bool) → (word : List Char) → Prop
  | nan : Spelled nan false "NaN".toList
  | infinite (negative : Bool) : Spelled (infinite negative) negative "Infinity".toList
  | numeral (n : Numeral) (negative : Bool) :
      Spelled (n.decimal.toNumber negative) negative n.chars

/-- **The text of a number is a sign and a word for it.** -/
theorem exists_spelled (n : Number) :
    ∃ negative word, n.chars = signChars negative ++ word ∧ n.displayed.Spelled negative word := by
  cases n with
  | nan => exact ⟨false, _, rfl, .nan⟩
  | infinite negative => exact ⟨negative, _, rfl, .infinite negative⟩
  | finite negative units h =>
    obtain ⟨n, hchars, -, hread⟩ := exists_numeral_magnitudeText formulaStyle h
    refine ⟨negative && units != 0, n.chars, by rw [chars, hchars], ?_⟩
    have hvalue : (finite negative units h).displayed =
        n.decimal.toNumber (negative && units != 0) := by
      rw [← Decimal.withSign_toNumber, hread]
      by_cases hzero : units = 0
      · subst hzero
        cases negative <;> rfl
      · cases negative <;> simp [displayed, isZero, withSign, neg, hzero]
    rw [hvalue]
    exact .numeral n _

variable {m : Number} {negative : Bool} {word : List Char}

namespace Spelled

/-- A word starts with a digit, or with one of two letters. -/
theorem head (h : m.Spelled negative word) :
    ∃ first more, word = first :: more ∧ (first.isDigit ∨ first = 'N' ∨ first = 'I') := by
  cases h with
  | nan => exact ⟨_, _, rfl, .inr (.inl rfl)⟩
  | infinite => exact ⟨_, _, rfl, .inr (.inr rfl)⟩
  | numeral n =>
    obtain ⟨first, more, hchars, hdigit⟩ := n.exists_first
    exact ⟨first, more, hchars, .inl hdigit⟩

theorem splitSign_eq (h : m.Spelled negative word) :
    splitSign (signChars negative ++ word) = (negative, word) := by
  obtain ⟨first, more, rfl, hfirst⟩ := h.head
  refine splitSign_signChars negative ?_
  rintro c hc
  cases hc
  constructor
  · rintro rfl
    revert hfirst
    decide
  · rintro rfl
    revert hfirst
    decide

theorem isBlank_eq_false (h : m.Spelled negative word) :
    ∀ c ∈ signChars negative ++ word, isBlank c = false := by
  have hsign : ∀ c ∈ signChars negative, isBlank c = false := by
    cases negative <;> simp [signChars, isBlank]
  have hword : ∀ c ∈ word, Token.isNamePart c ∨ c = '+' ∨ c = '-' := by
    cases h with
    | nan => exact fun c hc => .inl (List.all_eq_true.1 rfl c hc)
    | infinite => exact fun c hc => .inl (List.all_eq_true.1 rfl c hc)
    | numeral n => exact fun c hc => Decimal.isNamePart_or_sign n.ofChars?_chars hc
  refine List.forall_mem_append.2 ⟨hsign, fun c hc => ?_⟩
  rcases hword c hc with hpart | rfl | rfl
  · exact Token.isBlank_of_isNamePart hpart
  · rfl
  · rfl

theorem trim_eq_self (h : m.Spelled negative word) :
    trim (signChars negative ++ word) = signChars negative ++ word := by
  have hblank := h.isBlank_eq_false
  refine Trimmed.trim_eq_self ⟨fun c hc => ?_, fun c hc => ?_⟩
  · exact hblank c (List.mem_of_mem_head? hc)
  · exact hblank c (List.mem_of_mem_getLast? hc)

/-! ## Text values -/

theorem toNumber_text (h : m.Spelled negative word) :
    (Value.text (.ofList (signChars negative ++ word))).toNumber = m := by
  obtain ⟨first, more, hword, -⟩ := h.head
  have hne : signChars negative ++ word ≠ [] := by simp [hword]
  rw [Value.toNumber, Value.asNumber?,
    Value.textNumber?_of_trimmed h.trim_eq_self hne h.splitSign_eq]
  cases h with
  | nan => rfl
  | infinite => rfl
  | numeral n =>
    have hread := n.ofChars?_chars
    have hname : n.chars ≠ "Infinity".toList := by
      rintro hname
      rw [hname] at hread
      cases hread
    rw [if_neg hname, hread]
    rfl

/-! ## Literals -/

/-- The word is one token, and the literal or constant that it is needs the
    sign only. -/
theorem exists_token (h : m.Spelled negative word) : ∃ t literal, Token.lex word = [t] ∧
    Grammar.Derives .primary [t] (.number literal) ∧ literal.withSign negative = m := by
  cases h with
  | nan =>
    have hlex : Token.lex ('N' :: ("aN".toList ++ [])) = _ :=
      Token.lex_name 'N' _ rfl (List.all_eq_true.1 rfl) (by simp)
    exact ⟨_, _, hlex.trans (by rw [Token.lex_nil]), .constant rfl, rfl⟩
  | infinite =>
    have hlex : Token.lex ('I' :: ("nfinity".toList ++ [])) = _ :=
      Token.lex_name 'I' _ rfl (List.all_eq_true.1 rfl) (by simp)
    refine ⟨_, _, hlex.trans (by rw [Token.lex_nil]), .constant rfl, ?_⟩
    cases negative <;> rfl
  | numeral n =>
    have hlex := Token.lex_numeral n Numeral.ends_nil
    rw [List.append_nil, Token.lex_nil] at hlex
    exact ⟨_, _, hlex, .number, Decimal.withSign_toNumber negative n.decimal⟩

/-- The sign is an operator to the parser. -/
theorem exists_parse (h : m.Spelled negative word) :
    ∃ e, (∀ limit, Expr.parse (limit + 2) (.ofList (signChars negative ++ word)) = .ok e) ∧
      ∀ ctx, e.evaluate ctx = .ok (.number m) := by
  obtain ⟨t, literal, hlex, hderives, rfl⟩ := h.exists_token
  cases negative with
  | false =>
    have hphrase : Grammar.Derives .expression [t] (.number literal) := hderives.loosen (by decide)
    refine ⟨.number literal, fun limit => ?_, fun ctx => rfl⟩
    rw [Grammar.parse_eq_ok_iff_nests, String.toList_ofList, signChars,
      if_neg Bool.false_ne_true, List.nil_append, hlex]
    exact (Grammar.derives_iff_nests (by simp)).1 hphrase
  | true =>
    have hsign : Token.lex ('-' :: word) = [.symbol .minus, t] := by
      rw [Token.lex_symbol rfl, hlex]
    have hphrase : Grammar.Derives .expression [.symbol .minus, t]
        (.unary .negate (.number literal)) :=
      (@Grammar.Derives.sign .negate _ _ (hderives.loosen (by decide))).loosen (by decide)
    refine ⟨.unary .negate (.number literal), fun limit => ?_, fun ctx => rfl⟩
    rw [Grammar.parse_eq_ok_iff_nests, String.toList_ofList, signChars, if_pos rfl,
      List.singleton_append, hsign]
    exact (Grammar.derives_iff_nests (by simp)).1 hphrase

/-! ## Arguments -/

theorem numberOf?_eq (h : m.Spelled negative word) :
    CommandLine.numberOf? (signChars negative ++ word) = some m := by
  simp only [CommandLine.numberOf?, ofDecimalText?, h.splitSign_eq]
  cases h with
  | nan => decide
  | infinite => exact if_pos (by decide)
  | numeral n =>
    have hname (name : List Char) (hname : ∀ c ∈ name.head?, c.isDigit = false) :
        String.ofList (n.chars.map Char.toLower) ≠ .ofList name := by
      rw [ne_eq, String.ofList_inj]
      exact n.lower_ne hname
    have hinf := hname "inf".toList (by simp)
    have hinfinity := hname "infinity".toList (by simp)
    have hnan := hname "nan".toList (by simp)
    rw [String.ofList_toList] at hinf hinfinity hnan
    rw [if_neg (not_or.2 ⟨hinf, hinfinity⟩), if_neg hnan, n.ofChars?_chars]
    rfl

theorem valueOf_eq (h : m.Spelled negative word) :
    CommandLine.valueOf (signChars negative ++ word) = .number m := by
  obtain ⟨first, more, hword, hfirst⟩ := h.head
  have hbool (name : List Char) (hname : name.head? = some 't' ∨ name.head? = some 'f') :
      signChars negative ++ word ≠ name := by
    rintro rfl
    cases negative with
    | true => simp [signChars] at hname
    | false =>
      simp only [signChars, hword] at hname
      rcases hname with hname | hname <;> cases hname <;> revert hfirst <;> decide
  rw [CommandLine.valueOf, if_neg (hbool _ (.inl rfl)), if_neg (hbool _ (.inr rfl)),
    h.numberOf?_eq]

end Spelled

end Number

/-- A name, an equals sign and a value are a binding. -/
theorem CommandLine.bindingOf_joined {name : String} (hname : trim name.toList ≠ [])
    (hequals : '=' ∉ name.toList) (raw : String) :
    bindingOf (name ++ "=" ++ raw) =
      .ok (.ofList (trim name.toList), valueOf (trim raw.toList)) := by
  have htext : (name ++ "=" ++ raw).toList = name.toList ++ '=' :: raw.toList := by simp
  rw [bindingOf, htext, splitWhile_ne_append hequals]
  exact if_neg hname

/-- **A displayed number is read back**: as a text value, as an expression at
    every limit from two on, and as the value of an argument. -/
theorem Number.text_readBack (n : Number) :
    (Value.text n.text).toNumber = n.displayed ∧
      (∃ e, (∀ limit, Expr.parse (limit + 2) n.text = .ok e) ∧
        ∀ ctx, e.evaluate ctx = .ok (.number n.displayed)) ∧
      CommandLine.bindingOf ("X=" ++ n.text) = .ok ("X", .number n.displayed) := by
  obtain ⟨negative, word, hchars, hspelled⟩ := n.exists_spelled
  have htext : n.text = .ofList (signChars negative ++ word) := congrArg String.ofList hchars
  have hraw : n.text.toList = signChars negative ++ word := by rw [htext, String.toList_ofList]
  have hbinding := @CommandLine.bindingOf_joined "X" (by decide) (by decide) n.text
  rw [hraw, hspelled.trim_eq_self, hspelled.valueOf_eq] at hbinding
  rw [htext] at hbinding ⊢
  exact ⟨hspelled.toNumber_text, hspelled.exists_parse, hbinding⟩

end ProductFormula
