/-
  Printing and parsing.

  A tree that can be printed is the one its printed form is parsed to
  (`Expr.parse_print`), at any limit above the length of the text; at smaller
  limits, iff its tokens derive it within the limit
  (`Expr.parse_print_iff_nests`).
-/
import ProductFormula.Proofs.Grammar.Acceptance
import ProductFormula.Proofs.Printer.Lexing

namespace ProductFormula.Expr

open Grammar

theorem lex_print {e : Expr} (h : WellFormed Number.Unsigned e) :
    Token.lex e.print.toList = e.tokens := by
  have hlex := lexes_chars h [] Token.follows_nil
  rw [Token.lex_nil, List.append_nil, List.append_nil] at hlex
  rwa [print, String.toList_ofList]

theorem parse_print_iff_nests {e : Expr} (h : WellFormed Number.Unsigned e) {limit : Nat} :
    parse limit e.print = .ok e ↔ Nests limit .expression 0 e.tokens e := by
  rw [parse_eq_ok_iff_nests, lex_print h]

/-- **Parsing undoes printing.** -/
theorem parse_print {e : Expr} (h : WellFormed Number.Unsigned e) {limit : Nat}
    (hlimit : e.print.length < limit) : parse limit e.print = .ok e := by
  rw [parse_eq_ok_iff_nests, nests_lex_iff hlimit, lex_print h]
  exact (derives_tokens h).loosen (Category.looseness_le _)

/-- `-({A} + 0) * Math.MAX("\"",true)²` is parsed to the product. -/
theorem parse_print_product : ∃ e : Expr, WellFormed Number.Unsigned e ∧
    e.print = "-(\x7bA\x7d + 0) * Math.MAX(\"\\\"\",true)²" ∧ e.print.length < 64 ∧
    parse 64 e.print = .ok e := by
  let e : Expr := .binary .multiply
    (.unary .negate (.binary .add (.reference "A" false) (.number (.zero false))))
    (.exponent (.call "MAX" [.string "\"", .boolean true]) 2)
  have hargs : ∀ arg ∈ [Expr.string "\"", .boolean true], WellFormed Number.Unsigned arg := by
    simp [WellFormed.string, WellFormed.boolean]
  have hwell : WellFormed Number.Unsigned e :=
    .binary (.unary (.binary (.reference (by decide) (by decide) (by decide)) (.number rfl)))
      (.exponent (by decide) (.call (List.all_eq_true.1 rfl) hargs))
  have hlength : e.print.length < 64 := by decide +kernel
  exact ⟨e, hwell, by decide +kernel, hlength, parse_print hwell hlength⟩

end ProductFormula.Expr
