/-
  Texts put into larger ones.

  A text that is parsed to a tree keeps that tree in parentheses, as an operand
  of `SE`, and as a branch of a conditional, with one level more for each
  expression around it (`Expr.parse_embedded`).
-/
import ProductFormula.Proofs.Grammar.Acceptance
import ProductFormula.Proofs.Token.Surroundings

namespace ProductFormula

open Grammar ProductFormula.Parser

namespace Token

theorem lex_selection (rest : List Char) :
    lex ("SE(".toList ++ rest) = .name "SE" :: .symbol .leftParen :: lex rest := by
  have hstop : ∀ c ∈ ('(' :: rest).head?, isNamePart c = false := by
    rintro c hc
    cases hc
    rfl
  have hparen : lex ('(' :: rest) = .symbol .leftParen :: lex rest := lex_symbol rfl rest
  rw [← hparen]
  exact lex_name 'S' ['E'] rfl (List.forall_mem_singleton.2 rfl) hstop

end Token

namespace Expr

variable {limit : Nat} {text condition chosen other : String} {e c a b : Expr}

theorem valid_of_parse (h : parse limit text = .ok e) : ∀ t ∈ Token.lex text.toList, Valid t :=
  (parse_eq_ok_iff_nests.1 h).derives.valid

/-- A text in front of a symbol that goes on with no word. -/
theorem lex_before (h : parse limit text = .ok e) {mark : Char} {s : Symbol}
    (hmark : Token.continues mark = false) (hs : Token.symbolOf? mark = some s) (rest : List Char) :
    Token.lex (text.toList ++ mark :: rest) =
      Token.lex text.toList ++ .symbol s :: Token.lex rest := by
  rw [Token.lex_append (valid_of_parse h) (Token.parts_cons hmark rest), Token.lex_symbol hs]

/-- A text up to the parenthesis that closes the whole. -/
theorem lex_closed (h : parse limit text = .ok e) :
    Token.lex (text.toList ++ [')']) = Token.lex text.toList ++ [.symbol .rightParen] := by
  rw [lex_before h rfl rfl, Token.lex_nil]

theorem parse_group (h : parse limit text = .ok e) :
    parse (limit + 1) ("(" ++ text ++ ")") = .ok e := by
  have htext : ("(" ++ text ++ ")").toList = '(' :: (text.toList ++ [')']) := by simp
  rw [parse_eq_ok_iff_nests, htext, Token.lex_symbol rfl, lex_closed h]
  exact .of_primary (.group (parse_eq_ok_iff_nests.1 h))

theorem parse_called_group (h : parse limit text = .ok e) :
    parse (limit + 1) ("SE(" ++ text ++ ")") = .ok e := by
  have htext : ("SE(" ++ text ++ ")").toList = "SE(".toList ++ (text.toList ++ [')']) := by simp
  rw [parse_eq_ok_iff_nests, htext, Token.lex_selection, lex_closed h]
  exact .of_primary (.grouping (parse_eq_ok_iff_nests.1 h))

theorem parse_called_conditional (hc : parse limit condition = .ok c)
    (ha : parse limit chosen = .ok a) (hb : parse limit other = .ok b) :
    parse (limit + 1) ("SE(" ++ condition ++ "," ++ chosen ++ "," ++ other ++ ")") =
      .ok (.conditional c a b) := by
  have htext : ("SE(" ++ condition ++ "," ++ chosen ++ "," ++ other ++ ")").toList =
      "SE(".toList ++ (condition.toList ++ ',' :: (chosen.toList ++ ',' :: (other.toList ++ [')'])))
      := by simp
  rw [parse_eq_ok_iff_nests, htext, Token.lex_selection, lex_before hc rfl rfl,
    lex_before ha rfl rfl, lex_closed hb]
  exact .of_primary (.selection (parse_eq_ok_iff_nests.1 hc) (parse_eq_ok_iff_nests.1 ha)
    (parse_eq_ok_iff_nests.1 hb))

/-- The level above the one of the parentheses is that of the branches. -/
theorem parse_marked_conditional (hc : parse limit condition = .ok c)
    (ha : parse limit chosen = .ok a) (hb : parse limit other = .ok b) :
    parse (limit + 2) ("(" ++ condition ++ ")?(" ++ chosen ++ "):(" ++ other ++ ")") =
      .ok (.conditional c a b) := by
  have htext : ("(" ++ condition ++ ")?(" ++ chosen ++ "):(" ++ other ++ ")").toList =
      '(' :: (condition.toList ++ ')' :: '?' ::
        '(' :: (chosen.toList ++ ')' :: ':' :: '(' :: (other.toList ++ [')']))) := by simp
  have hlex : Token.lex ("(" ++ condition ++ ")?(" ++ chosen ++ "):(" ++ other ++ ")").toList =
      (.symbol .leftParen :: (Token.lex condition.toList ++ [.symbol .rightParen])) ++
        .symbol .question ::
          ((.symbol .leftParen :: (Token.lex chosen.toList ++ [.symbol .rightParen])) ++
            .symbol .colon ::
              (.symbol .leftParen :: (Token.lex other.toList ++ [.symbol .rightParen]))) := by
    rw [htext, Token.lex_symbol rfl, lex_before hc rfl rfl, Token.lex_symbol rfl,
      Token.lex_symbol rfl, lex_before ha rfl rfl, Token.lex_symbol rfl, Token.lex_symbol rfl,
      lex_closed hb]
    simp
  have hcondition : Nests limit .primary 0
      (.symbol .leftParen :: (Token.lex condition.toList ++ [.symbol .rightParen])) c :=
    .group (parse_eq_ok_iff_nests.1 hc)
  rw [parse_eq_ok_iff_nests, hlex]
  have hchain := (Nests.of_signed (.unsigned (.base (hcondition.mono (Nat.le_succ limit)))) .or).2
  exact .conditional hchain
    (.of_primary (.group (parse_eq_ok_iff_nests.1 ha)))
    (.of_primary (.group (parse_eq_ok_iff_nests.1 hb)))

/-- **Texts keep their trees in larger texts**: `SE` and the conditional are the
    same, and parentheses only take a level. -/
theorem parse_embedded (hc : parse limit condition = .ok c) (ha : parse limit chosen = .ok a)
    (hb : parse limit other = .ok b) :
    parse (limit + 1) ("SE(" ++ condition ++ "," ++ chosen ++ "," ++ other ++ ")") =
        .ok (.conditional c a b) ∧
      parse (limit + 2) ("(" ++ condition ++ ")?(" ++ chosen ++ "):(" ++ other ++ ")") =
        .ok (.conditional c a b) ∧
      parse (limit + 1) ("SE(" ++ condition ++ ")") = .ok c ∧
      parse (limit + 1) ("(" ++ condition ++ ")") = .ok c :=
  ⟨parse_called_conditional hc ha hb, parse_marked_conditional hc ha hb, parse_called_group hc,
    parse_group hc⟩

/-- The condition of a conditional is one itself and ends with a power, which
    the parenthesis behind it leaves a power. -/
theorem parse_embedded_power :
    let condition := "{A}?{B}:²({C})²"
    let c : Expr := .conditional (.reference "A" false) (.reference "B" false)
      (.exponent (.glyph .ceil (.reference "C" false)) 2)
    let a : Expr := .reference "A" false
    parse 9 condition = .ok c ∧ parse 9 "{A}" = .ok a ∧
      parse 10 ("SE(" ++ condition ++ "," ++ "{A}" ++ "," ++ condition ++ ")") =
        .ok (.conditional c a c) ∧
      parse 11 ("(" ++ condition ++ ")?(" ++ "{A}" ++ "):(" ++ condition ++ ")") =
        .ok (.conditional c a c) ∧
      parse 10 ("SE(" ++ condition ++ ")") = .ok c ∧
      parse 10 ("(" ++ condition ++ ")") = .ok c := by
  intro condition c a
  have hlex : Token.lex condition.toList =
      [.reference "A" false, .symbol .question, .reference "B" false, .symbol .colon,
        .superscript .two true, .symbol .leftParen, .reference "C" false, .symbol .rightParen,
        .superscript .two false] := by
    decide +kernel
  have hprimary (room : Nat) (name : String) :
      Nests room .primary 0 [.reference name false] (.reference name false) := .reference
  have hpower : Nests 2 .powered 1
      [.superscript .two true, .symbol .leftParen, .reference "C" false, .symbol .rightParen,
        .superscript .two false]
      (.exponent (.glyph .ceil (.reference "C" false)) 2) :=
    @Nests.power 1 0 .two _ _ (.base (.rounding (s := .two) (.of_primary (hprimary 1 "C"))))
  have hcondition : parse 9 condition = .ok c := by
    rw [parse_eq_ok_iff_nests, hlex]
    have hother := Nests.plain (Nests.of_signed (.unsigned hpower) .or).2
    have hchain := (Nests.of_signed (.unsigned (.base (hprimary 3 "A"))) .or).2
    have hmarked := Nests.conditional hchain (.of_primary (hprimary 2 "B")) hother
    exact hmarked.mono (by decide)
  have hchosen : parse 9 "{A}" = .ok a := by
    have hlex : Token.lex "{A}".toList = [.reference "A" false] := by decide +kernel
    rw [parse_eq_ok_iff_nests, hlex]
    exact .of_primary (hprimary 8 "A")
  exact ⟨hcondition, hchosen, parse_embedded hcondition hchosen hcondition⟩

end Expr

end ProductFormula
