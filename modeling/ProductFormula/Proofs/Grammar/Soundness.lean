/-
  What the parser answers with is a phrase.

  A reader that succeeds has taken a front of its tokens (`Fronts`), and the
  front is a phrase of the reader's category that fits in the reader's room.

  * `fronts_expression`: by induction on the calls of the parser.  A chain is
    read with what stands before it in hand: the invariant is that this is a
    chain of the same tier already, with room and used levels adding up to what
    the chain was given.
-/
import ProductFormula.Proofs.Grammar.Nesting
import ProductFormula.Proofs.Grammar.Phrases

namespace ProductFormula.Grammar

open ProductFormula.Parser

/-- What the reader answers with describes a front of its tokens. -/
def Fronts (reader : Phrase) (describes : List Token → Expr → Prop) : Prop :=
  ∀ ts e rest, reader ts = .ok (e, rest) → ∃ front, ts = front ++ rest ∧ describes front e

theorem nests_named {room : Nat} {name : String} {e : Expr} (h : named name = .ok e) :
    Nests room .primary 0 [.name name] e := by
  rcases named_eq_ok.1 h with ⟨rfl, rfl⟩ | ⟨rfl, rfl⟩ | ⟨n, hn, rfl⟩
  · exact .trueWord
  · exact .falseWord
  · exact .constant hn

/-! ## Phrases around nested expressions -/

section
variable {room : Nat} {nested : Phrase} (hn : Fronts nested (Nests room .expression 0))
  {ts rest : List Token} {e : Expr}
include hn

theorem fronts_parenthesised (h : parenthesised nested ts = .ok (e, rest)) :
    ∃ front, ts = .symbol .leftParen :: (front ++ [.symbol .rightParen]) ++ rest ∧
      Nests room .expression 0 front e := by
  obtain ⟨us, rfl, he⟩ := parenthesised_eq_ok.1 h
  obtain ⟨front, rfl, hf⟩ := hn _ _ _ he
  exact ⟨front, by simp, hf⟩

theorem fronts_separated {bound : Nat} {args : List Expr}
    (h : separated nested bound ts = .ok (args, rest)) :
    ∃ parts : List (List Token × Expr), parts ≠ [] ∧ args = parts.map (·.2) ∧
      ts = [.symbol .comma].intercalate (parts.map (·.1)) ++ rest ∧
      ∀ part ∈ parts, Nests room .expression 0 part.1 part.2 := by
  induction bound generalizing ts args with
  | zero => cases h
  | succ bound ih =>
    rw [separated, bind_eq_ok] at h
    obtain ⟨⟨e, us⟩, he, h⟩ := h
    obtain ⟨front, rfl, hf⟩ := hn _ _ _ he
    dsimp only at h
    split at h
    · obtain ⟨⟨es, ws⟩, hes, h⟩ := bind_eq_ok.1 h
      cases h
      obtain ⟨parts, hne, rfl, rfl, hparts⟩ := ih hes
      refine ⟨(front, e) :: parts, by simp, rfl, ?_, List.forall_mem_cons.2 ⟨hf, hparts⟩⟩
      rw [List.map_cons, List.intercalate_cons_of_ne_nil (by simpa using hne)]
      simp
    · cases h
      exact ⟨[(front, e)], by simp, rfl, by simp, List.forall_mem_singleton.2 hf⟩

theorem fronts_arguments {args : List Expr} (h : arguments nested ts = .ok (args, rest)) :
    ∃ parts : List (List Token × Expr), args = parts.map (·.2) ∧
      ts = [.symbol .comma].intercalate (parts.map (·.1)) ++ .symbol .rightParen :: rest ∧
      ∀ part ∈ parts, Nests room .expression 0 part.1 part.2 := by
  rcases arguments_eq_ok.1 h with ⟨rfl, rfl⟩ | ⟨-, h⟩
  · exact ⟨[], rfl, rfl, by simp⟩
  · obtain ⟨parts, -, hargs, hts, hparts⟩ := fronts_separated hn h
    exact ⟨parts, hargs, hts, hparts⟩

theorem fronts_rangeTest {name : String} {optional : Bool}
    (h : rangeTest nested (.reference name optional) ts = .ok (e, rest)) :
    ∃ front, ts = front ++ rest ∧
      Nests room .primary 0 (.reference name optional :: front) e := by
  unfold rangeTest at h
  split at h
  · obtain ⟨min, us, max, hmin, hmax, rfl⟩ := rangeTest_eq_ok.1 h
    obtain ⟨before, rfl, hbefore⟩ := hn _ _ _ hmin
    obtain ⟨after, rfl, hafter⟩ := hn _ _ _ hmax
    exact ⟨_, by simp, .range hbefore hafter⟩
  · cases h
    exact ⟨[], rfl, .reference⟩

theorem fronts_selection (h : selection nested ts = .ok (e, rest)) :
    ∃ front, ts = front ++ rest ∧
      Nests room .primary 0 (.name "SE" :: .symbol .leftParen :: front) e := by
  rcases selection_eq_ok.1 h with h | ⟨c, us, a, vs, b, hc, ha, hb, rfl⟩
  · obtain ⟨front, rfl, hf⟩ := hn _ _ _ h
    exact ⟨_, by simp, .grouping hf⟩
  · obtain ⟨condition, rfl, hcondition⟩ := hn _ _ _ hc
    obtain ⟨chosen, rfl, hchosen⟩ := hn _ _ _ ha
    obtain ⟨other, rfl, hother⟩ := hn _ _ _ hb
    exact ⟨_, by simp, .selection hcondition hchosen hother⟩

theorem fronts_primary : Fronts (primary nested) (Nests room .primary 0) := by
  intro ts e rest h
  unfold primary at h
  split at h
  · cases h
    exact ⟨_, rfl, .number⟩
  · cases h
    exact ⟨_, rfl, .string⟩
  · obtain ⟨front, rfl, hf⟩ := fronts_rangeTest hn h
    exact ⟨_, rfl, hf⟩
  · obtain ⟨front, rfl, hf⟩ := hn _ _ _ (closed_eq_ok.1 h)
    exact ⟨_, by simp, .group hf⟩
  · obtain ⟨⟨operand, us⟩, ho, h⟩ := bind_eq_ok.1 h
    cases h
    obtain ⟨front, rfl, hf⟩ := fronts_parenthesised hn ho
    exact ⟨_, rfl, .rounding hf⟩
  · obtain ⟨⟨operand, us⟩, ho, h⟩ := bind_eq_ok.1 h
    cases h
    obtain ⟨front, rfl, hf⟩ := fronts_parenthesised hn ho
    exact ⟨_, rfl, .glyph hf⟩
  · cases h
  · cases h
  · split at h
    next hname =>
      obtain ⟨front, rfl, hf⟩ := fronts_selection hn h
      subst hname
      exact ⟨_, rfl, hf⟩
    next hname =>
      obtain ⟨⟨args, us⟩, hargs, h⟩ := bind_eq_ok.1 h
      cases h
      obtain ⟨parts, rfl, rfl, hparts⟩ := fronts_arguments hn hargs
      exact ⟨_, by simp, .call hname hparts⟩
  · obtain ⟨e', he, h⟩ := bind_eq_ok.1 h
    cases h
    exact ⟨[_], rfl, nests_named he⟩
  · cases h
  · cases h

end

/-! ## Readers that take levels -/

/-- Powers behind a phrase that has taken some of the room already. -/
theorem fronts_powers {room : Nat} {base e : Expr} {ts rest : List Token}
    (h : powers room base ts = .ok (e, rest)) : ∀ {before used},
      Nests (room + used) .powered used before base →
      ∃ front used', ts = front ++ rest ∧
        Nests (room + used) .powered used' (before ++ front) e := by
  fun_induction powers room base ts with
  | case1 => cases h
  | case2 base s ts room ih =>
    intro before used hb
    have hroom : room + 1 + used = room + used + 1 := by omega
    rw [hroom] at hb ⊢
    have hpower : Nests (room + (used + 1)) .powered (used + 1) (before ++ [.superscript s false])
        (.exponent base s.power) := .power hb
    obtain ⟨front, used', rfl, hf⟩ := ih h hpower
    exact ⟨.superscript s false :: front, used', rfl, by simpa [Nat.add_assoc] using hf⟩
  | case3 =>
    intro before used hb
    cases h
    exact ⟨[], used, rfl, by simpa using hb⟩

/-- **The parser takes a phrase that fits in its room.** -/
theorem fronts_expression (room : Nat) :
    Fronts (fun ts => expression room ts) (Nests room .expression 0) := by
  -- one statement for each of the five readers
  apply expression.induct
    (fun room ts => ∀ e rest, expression room ts = .ok (e, rest) →
      ∃ front, ts = front ++ rest ∧ Nests room .expression 0 front e)
    (fun t room ts => ∀ e rest, tier t room ts = .ok (e, rest) →
      ∃ front used, ts = front ++ rest ∧ Nests room (.tier t) used front e)
    (fun t room left ts => ∀ e rest, chain t room left ts = .ok (e, rest) →
      ∀ before used, Nests (room + used) (.tier t) used before left →
      ∃ front used', ts = front ++ rest ∧
        Nests (room + used) (.tier t) used' (before ++ front) e)
    (fun t room ts => ∀ e rest, operand t room ts = .ok (e, rest) →
      ∃ front used, ts = front ++ rest ∧ Nests room (operands t) used front e)
    (fun room ts => ∀ e rest, unary room ts = .ok (e, rest) →
      ∃ front, ts = front ++ rest ∧ Nests room .signed 0 front e)
  case case1 =>
    intro ts e rest h
    rw [expression_zero] at h
    cases h
  case case2 =>
    intro ts room ihTier ihExpression e rest h
    rcases expression_eq_ok.1 h with ⟨h, -⟩ | ⟨c, us, a, vs, b, hc, ha, hb, rfl⟩
    · obtain ⟨front, used, rfl, hf⟩ := ihTier _ _ h
      exact ⟨front, rfl, .plain hf⟩
    · obtain ⟨condition, used, rfl, hcondition⟩ := ihTier _ _ hc
      obtain ⟨chosen, rfl, hchosen⟩ := ihExpression _ _ _ ha
      obtain ⟨other, rfl, hother⟩ := ihExpression _ _ _ hb
      exact ⟨_, by simp, .conditional hcondition hchosen hother⟩
  case case3 =>
    intro t room ts ihOperand ihChain e rest h
    rw [tier, bind_eq_ok] at h
    obtain ⟨⟨left, us⟩, hl, h⟩ := h
    obtain ⟨before, used, rfl, hb⟩ := ihOperand _ _ hl
    obtain ⟨front, used', rfl, hf⟩ := ihChain _ _ _ _ h before 0 (.operand hb)
    exact ⟨before ++ front, used', by simp, hf⟩
  case case4 =>
    intro t room left ts hop e rest h before used hb
    rw [chain, hop] at h
    cases h
    exact ⟨[], used, rfl, by simpa using hb⟩
  case case5 =>
    intro t left ts op us hop e rest h
    rw [chain, hop] at h
    cases h
  case case6 =>
    intro t left ts op us hop room ihOperand ihChain e rest h before used hb
    obtain ⟨rfl, rfl⟩ := operatorOf?_eq_some_iff.1 hop
    rw [chain_operator, bind_eq_ok] at h
    obtain ⟨⟨right, vs⟩, hr, h⟩ := h
    obtain ⟨operand, _, rfl, ho⟩ := ihOperand _ _ hr
    have hroom : room + 1 + used = room + used + 1 := by omega
    rw [Nat.succ_eq_add_one, hroom] at hb ⊢
    have hoperation : Nests (room + (used + 1)) (.tier op.tier) (used + 1)
        (before ++ .symbol op.symbol :: operand) (.binary op left right) := .operation hb ho
    obtain ⟨front, used', rfl, hf⟩ := ihChain _ _ _ _ h _ _ hoperation
    exact ⟨.symbol op.symbol :: (operand ++ front), used', by simp,
      by simpa [Nat.add_assoc] using hf⟩
  case case7 =>
    intro t room ts t' ht ihTier e rest h
    rw [operand_of_tighter ht] at h
    obtain ⟨front, used, rfl, hf⟩ := ihTier _ _ h
    exact ⟨front, used, rfl, by simpa only [operands, ht] using hf⟩
  case case8 =>
    intro t room ts ht ihUnary e rest h
    rw [operand_of_tightest ht] at h
    obtain ⟨front, rfl, hf⟩ := ihUnary _ _ h
    exact ⟨front, 0, rfl, by simpa only [operands, ht] using hf⟩
  case case9 =>
    intro ts op us hsign e rest h
    rw [unary, hsign] at h
    cases h
  case case10 =>
    intro ts op us hsign room ih e rest h
    cases signOf?_eq_some_iff.1 hsign
    rw [unary_sign, bind_eq_ok] at h
    obtain ⟨⟨operand, vs⟩, ho, h⟩ := h
    cases h
    obtain ⟨front, rfl, hf⟩ := ih _ _ ho
    exact ⟨_, rfl, .sign hf⟩
  case case11 =>
    intro room ts hsign ihExpression e rest h
    rw [unary_unsigned hsign, bind_eq_ok] at h
    obtain ⟨⟨base, us⟩, hb, h⟩ := h
    obtain ⟨before, rfl, hbefore⟩ := fronts_primary (fun ts => ihExpression ts) _ _ _ hb
    have hbase : Nests (room + 0) .powered 0 before base := .base hbefore
    obtain ⟨front, used, rfl, hf⟩ := fronts_powers h hbase
    exact ⟨before ++ front, by simp, .unsigned hf⟩

end ProductFormula.Grammar
