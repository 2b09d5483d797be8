/-
  The texts that are expressions.

  The parser and the grammar agree: with room for it, a text is parsed to a
  tree iff its tokens derive the tree (`parse_eq_ok_iff_derives`), and at any
  limit iff they derive it within that limit (`parse_eq_ok_iff_nests`).
-/
import ProductFormula.Proofs.Grammar.Completeness
import ProductFormula.Proofs.Grammar.Soundness

namespace ProductFormula.Grammar

open ProductFormula.Parser

/-- Every token is cut from one character at least. -/
theorem length_lex_le (cs : List Char) : (Token.lex cs).length ≤ cs.length := by
  fun_induction Token.lex cs with
  | case1 => exact Nat.zero_le _
  | case2 cs first rest h ih =>
    have hsuffix := (List.dropWhile_suffix (l := cs) Text.isBlank).length_le
    have hscan := (Token.scan_suffix first rest).length_le
    simp only [Text.trimStart] at h
    rw [h] at hsuffix
    simp only [List.length_cons] at hsuffix ⊢
    omega

theorem expression_eq_ok_nil_iff {room : Nat} {ts : List Token} {e : Expr} :
    expression room ts = .ok (e, []) ↔ Nests room .expression 0 ts e := by
  constructor
  · intro h
    obtain ⟨front, rfl, hf⟩ := fronts_expression room _ _ _ h
    simpa using hf
  · intro h
    have := h.reads [] (stops_nil _)
    simpa using this

/-- **A text is parsed to a tree iff its tokens derive it within the limit.** -/
theorem parse_eq_ok_iff_nests {limit : Nat} {text : String} {e : Expr} :
    Expr.parse limit text = .ok e ↔ Nests limit .expression 0 (Token.lex text.toList) e := by
  rw [← expression_eq_ok_nil_iff]
  unfold Expr.parse
  split
  next e' h => rw [h]; simp
  next e' t ts h => rw [h]; simp
  next failure h => rw [h]; simp

theorem nests_lex_iff {limit : Nat} {text : String} (h : text.length < limit) {e : Expr} :
    Nests limit .expression 0 (Token.lex text.toList) e ↔
      Derives .expression (Token.lex text.toList) e := by
  have := length_lex_le text.toList
  rw [String.length_toList] at this
  exact (derives_iff_nests (by omega)).symm

/-- A text is parsed if its words form a primary. -/
theorem parse_of_lex (limit : Nat) {text : String} {ts : List Token} {e : Expr}
    (hlength : text.length < limit) (hlex : Token.lex text.toList = ts)
    (h : Derives .primary ts e) : Expr.parse limit text = .ok e := by
  rw [parse_eq_ok_iff_nests, nests_lex_iff hlength, hlex]
  exact h.loosen (Nat.zero_le _)

/-- **The parser accepts exactly the grammar**: at a limit above the length of
    the text, it answers with a tree iff the text is cut into words only and
    they derive the tree. -/
theorem parse_eq_ok_iff_derives {limit : Nat} {text : String} (h : text.length < limit)
    (e : Expr) : Expr.parse limit text = .ok e ↔
      (∀ t ∈ Token.lex text.toList, Valid t) ∧ Derives .expression (Token.lex text.toList) e := by
  rw [parse_eq_ok_iff_nests, nests_lex_iff h]
  exact ⟨fun hd => ⟨hd.valid, hd⟩, And.right⟩

/-- `SE({A}>{B},{C}²,-{D})` is a conditional. -/
theorem parse_selection :
    "SE(\x7bA\x7d>\x7bB\x7d,\x7bC\x7d²,-\x7bD\x7d)".length < 22 ∧
      Expr.parse 22 "SE(\x7bA\x7d>\x7bB\x7d,\x7bC\x7d²,-\x7bD\x7d)" =
        .ok (.conditional
          (.binary .greaterThan (.reference "A" false) (.reference "B" false))
          (.exponent (.reference "C" false) 2) (.unary .negate (.reference "D" false))) := by
  have hlex : Token.lex "SE(\x7bA\x7d>\x7bB\x7d,\x7bC\x7d²,-\x7bD\x7d)".toList =
      [.name "SE", .symbol .leftParen, .reference "A" false, .symbol .greaterThan,
        .reference "B" false, .symbol .comma, .reference "C" false, .superscript .two false,
        .symbol .comma, .symbol .minus, .reference "D" false, .symbol .rightParen] := by
    decide +kernel
  refine ⟨by decide, (parse_eq_ok_iff_derives (by decide) _).2 ?_⟩
  rw [hlex]
  have hreference (c : Category) (name : String) :
      Derives c [.reference name false] (.reference name false) :=
    .loosen .reference (Nat.zero_le _)
  have hgreater := @Derives.operation .greaterThan _ _ _ _ (hreference _ "A") (hreference _ "B")
  have hsquare := @Derives.power .two _ _ (hreference _ "C")
  have hminus := @Derives.sign .negate _ _ (hreference _ "D")
  have hselection := Derives.selection (hgreater.loosen (by decide)) (hsquare.loosen (by decide))
    (hminus.loosen (by decide))
  exact ⟨by simp [Valid], hselection.loosen (by decide)⟩

end ProductFormula.Grammar
