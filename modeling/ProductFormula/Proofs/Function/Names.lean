/-
  Canonical names of functions.

  The canonical form of a name that can be written holds no small letter, only
  capitals, digits and `_$.` (`isCapitalPart_canonicalName`).  Such a name is
  its own canonical form (`canonicalName_eq_self`): it cannot start with
  `Math.`, which has small letters.
-/
import Mathlib
import ProductFormula.Proofs.Printer.Lexing

namespace ProductFormula

variable {name : String} {c : Char}

theorem dropMath_suffix (cs : List Char) : dropMath cs <:+ cs := by
  unfold dropMath
  split
  next rest => exact List.suffix_append ['M', 'a', 't', 'h', '.'] rest
  · exact List.suffix_rfl

theorem isCapitalPart_toUpper (h : Token.isNamePart c) : Expr.isCapitalPart c.toUpper := by
  simp only [Token.isNamePart, Char.isAlphanum, Bool.or_eq_true] at h
  simp only [Expr.isCapitalPart, Char.isUpper_toUpper_eq_isAlpha, Bool.or_eq_true]
  by_cases halpha : c.isAlpha
  · simp [halpha]
  · -- no letter, so it is its own capital
    have hlower : ¬ c.isLower := fun hlower => halpha (Text.isAlpha_iff.2 (.inr hlower))
    rw [Char.toUpper_eq_of_not_isLower hlower]
    simpa [halpha] using h

theorem capital_of_isNamePart (h : Token.isNamePart c) : Text.capital c = [c.toUpper] := by
  have hlt : c.toNat < 0x80 := Nat.lt_of_le_of_lt (Token.range_of_isNamePart h).2 (by decide)
  rw [Text.capital, if_pos hlt]

/-- The canonical form of a name is in capitals, digits and `_$.` -/
theorem isCapitalPart_canonicalName (h : ∀ c ∈ name.toList, Token.isNamePart c) :
    ∀ c ∈ (canonicalName name).toList, Expr.isCapitalPart c := by
  intro c hc
  rw [canonicalName, Text.upperCase, String.toList_ofList, String.toList_ofList,
    List.mem_flatMap] at hc
  obtain ⟨part, hpart, hc⟩ := hc
  have hname : Token.isNamePart part := h part ((dropMath_suffix _).subset hpart)
  rw [capital_of_isNamePart hname, List.mem_singleton] at hc
  exact hc ▸ isCapitalPart_toUpper hname

/-- A name in capitals is its own canonical form. -/
theorem canonicalName_eq_self (h : ∀ c ∈ name.toList, Expr.isCapitalPart c) :
    canonicalName name = name := by
  have hdrop : dropMath name.toList = name.toList := by
    unfold dropMath
    split
    next hmath => exact absurd (h 'a' (by simp [hmath])) (by decide)
    · rfl
  rw [canonicalName, hdrop, Text.upperCase, String.toList_ofList, Expr.flatMap_capital h,
    String.ofList_toList]

end ProductFormula
