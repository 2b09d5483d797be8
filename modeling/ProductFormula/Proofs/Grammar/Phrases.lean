/-
  What the phrases around nested expressions accept.

  A reader of nested expressions (`nested`) is any function here.  Each
  statement says when a phrase around it succeeds, in terms of what `nested`
  answers and of the symbols it leaves in front.
-/
import ProductFormula.Proofs.Grammar.Derivation
import ProductFormula.Proofs.Outcome

namespace ProductFormula.Parser

variable {nested : Phrase} {ts rest : List Token} {e : Expr}

theorem expect_eq_ok {s : Symbol} : expect s ts = .ok rest ↔ ts = .symbol s :: rest := by
  constructor
  · intro h
    unfold expect at h
    split at h
    · split at h
      next hs =>
        cases h
        rw [hs]
      · cases h
    · cases h
  · rintro rfl
    simp [expect]

theorem closed_eq_ok :
    closed nested ts = .ok (e, rest) ↔ nested ts = .ok (e, .symbol .rightParen :: rest) := by
  simp only [closed, bind_eq_ok, expect_eq_ok]
  constructor
  · rintro ⟨⟨e', us⟩, h, _, rfl, hr⟩
    cases hr
    exact h
  · exact fun h => ⟨_, h, _, rfl, rfl⟩

theorem parenthesised_eq_ok : parenthesised nested ts = .ok (e, rest) ↔
    ∃ us, ts = .symbol .leftParen :: us ∧ nested us = .ok (e, .symbol .rightParen :: rest) := by
  simp only [parenthesised, bind_eq_ok, expect_eq_ok, closed_eq_ok]

theorem rangeTest_eq_ok {operand : Expr} :
    rangeTest nested operand (.symbol .leftBracket :: ts) = .ok (e, rest) ↔
      ∃ min us max, nested ts = .ok (min, .symbol .comma :: us) ∧
        nested us = .ok (max, .symbol .rightBracket :: rest) ∧ e = .between operand min max := by
  simp only [rangeTest, bind_eq_ok, expect_eq_ok]
  constructor
  · rintro ⟨⟨min, _⟩, hmin, us, rfl, ⟨max, _⟩, hmax, _, rfl, h⟩
    cases h
    exact ⟨min, us, max, hmin, hmax, rfl⟩
  · rintro ⟨min, us, max, hmin, hmax, rfl⟩
    exact ⟨_, hmin, us, rfl, _, hmax, rest, rfl, rfl⟩

theorem selection_eq_ok : selection nested ts = .ok (e, rest) ↔
    nested ts = .ok (e, .symbol .rightParen :: rest) ∨
      ∃ c us a vs b, nested ts = .ok (c, .symbol .comma :: us) ∧
        nested us = .ok (a, .symbol .comma :: vs) ∧
        nested vs = .ok (b, .symbol .rightParen :: rest) ∧ e = .conditional c a b := by
  unfold selection
  rw [bind_eq_ok]
  constructor
  · rintro ⟨⟨first, us⟩, hfirst, h⟩
    dsimp only at h
    split at h
    · cases h
      exact Or.inl hfirst
    · simp only [bind_eq_ok, expect_eq_ok] at h
      obtain ⟨us', rfl, ⟨a, _⟩, ha, vs, rfl, ⟨b, ws⟩, hb, h⟩ := h
      dsimp only at h
      split at h
      · cases h
        exact Or.inr ⟨first, us', a, vs, b, hfirst, ha, hb, rfl⟩
      · cases h
  · rintro (h | ⟨c, us, a, vs, b, hc, ha, hb, rfl⟩)
    · exact ⟨_, h, rfl⟩
    · refine ⟨_, hc, ?_⟩
      simp only [bind_eq_ok, expect_eq_ok]
      exact ⟨us, rfl, _, ha, vs, rfl, _, hb, rfl⟩

theorem arguments_eq_ok {args : List Expr} : arguments nested ts = .ok (args, rest) ↔
    ts = .symbol .rightParen :: rest ∧ args = [] ∨
      (∀ us, ts ≠ .symbol .rightParen :: us) ∧
        separated nested (ts.length + 1) ts = .ok (args, .symbol .rightParen :: rest) := by
  unfold arguments
  split
  next us =>
    constructor
    · intro h
      cases h
      exact Or.inl ⟨rfl, rfl⟩
    · rintro (⟨h, rfl⟩ | ⟨h, -⟩)
      · cases h
        rfl
      · exact absurd rfl (h us)
  next hne =>
    simp only [bind_eq_ok, expect_eq_ok]
    constructor
    · rintro ⟨⟨args, us⟩, hargs, _, rfl, h⟩
      cases h
      exact Or.inr ⟨fun us h => hne us h, hargs⟩
    · rintro (⟨rfl, -⟩ | ⟨-, h⟩)
      · exact absurd rfl (hne rest)
      · exact ⟨_, h, rest, rfl, rfl⟩

theorem named_eq_ok {name : String} : named name = .ok e ↔
    name = "true" ∧ e = .boolean true ∨ name = "false" ∧ e = .boolean false ∨
      ∃ n, constant? name = some n ∧ e = .number n := by
  constructor
  · intro h
    unfold named at h
    split at h
    next hn => cases h; exact Or.inl ⟨hn, rfl⟩
    split at h
    next hn => cases h; exact Or.inr (Or.inl ⟨hn, rfl⟩)
    split at h
    next n hn => cases h; exact Or.inr (Or.inr ⟨n, hn, rfl⟩)
    · cases h
  · rintro (⟨rfl, rfl⟩ | ⟨rfl, rfl⟩ | ⟨n, hn, rfl⟩)
    · rfl
    · rfl
    · unfold named
      split
      next h => subst h; cases hn
      split
      next h => subst h; cases hn
      rw [hn]

/-! ## Readers that take levels -/

section
variable {room : Nat}

theorem expression_zero : expression 0 ts = .error .tooDeep := by
  rw [expression]

theorem expression_eq_ok : expression (room + 1) ts = .ok (e, rest) ↔
    tier .or room ts = .ok (e, rest) ∧ (∀ us, rest ≠ .symbol .question :: us) ∨
      ∃ c us a vs b, tier .or room ts = .ok (c, .symbol .question :: us) ∧
        expression room us = .ok (a, .symbol .colon :: vs) ∧
        expression room vs = .ok (b, rest) ∧ e = .conditional c a b := by
  rw [expression, bind_eq_ok]
  constructor
  · rintro ⟨⟨c, us⟩, hc, h⟩
    dsimp only at h
    split at h
    · simp only [bind_eq_ok, expect_eq_ok] at h
      obtain ⟨⟨a, _⟩, ha, vs, rfl, ⟨b, ws⟩, hb, h⟩ := h
      cases h
      exact Or.inr ⟨c, _, a, vs, b, hc, ha, hb, rfl⟩
    next hne =>
      cases h
      exact Or.inl ⟨hc, fun us h => hne us h⟩
  · rintro (⟨h, hne⟩ | ⟨c, us, a, vs, b, hc, ha, hb, rfl⟩)
    · refine ⟨_, h, ?_⟩
      dsimp only
      split
      · exact absurd rfl (hne _)
      · rfl
    · refine ⟨_, hc, ?_⟩
      simp only [bind_eq_ok, expect_eq_ok]
      exact ⟨_, ha, vs, rfl, _, hb, rfl⟩

theorem operand_of_tighter {t t' : Tier} (h : t.tighter? = some t') :
    operand t room ts = tier t' room ts := by
  rw [operand]
  split
  next t'' ht =>
    cases h.symm.trans ht
    rfl
  next ht => cases h.symm.trans ht

theorem operand_of_tightest {t : Tier} (h : t.tighter? = none) :
    operand t room ts = unary room ts := by
  rw [operand]
  split
  next t' ht => cases h.symm.trans ht
  · rfl

theorem chain_operator (op : BinaryOp) (left : Expr) :
    chain op.tier (room + 1) left (.symbol op.symbol :: ts) =
      operand op.tier room ts >>= fun r => chain op.tier room (.binary op left r.1) r.2 := by
  rw [chain, operatorOf?_eq_some_iff.2 ⟨rfl, rfl⟩]

theorem unary_sign (op : UnaryOp) : unary (room + 1) (.symbol op.symbol :: ts) =
    unary room ts >>= fun r => .ok (.unary op r.1, r.2) := by
  rw [unary, signOf?_eq_some_iff.2 rfl]
  rfl

theorem unary_unsigned (h : signOf? ts = none) : unary room ts =
    primary (fun ts => expression room ts) ts >>= fun r => powers room r.1 r.2 := by
  rw [unary, h]

end

end ProductFormula.Parser
