/-
  Derivations within an allowance.

  `Nests room c used ts e` is a derivation (`Derives`) that is paid for from
  `room` levels: an expression and a sign take one level of what they are
  given, and the operators of a chain and the powers behind a primary take one
  each, the first from what the chain is given, the second from what is left
  then, and so on.  `used` counts those that the phrase itself has taken, and
  is zero for phrases that are no chain.

  * `Nests.mono`: more room does no harm;
  * `Nests.of_primary`: a primary is an expression where there is a level for it;
  * `Nests.derives` and `Derives.nests`: leaving the allowance out, and paying
    for any derivation with as many levels as it has tokens.
-/
import ProductFormula.Proofs.Grammar.Derivation

namespace ProductFormula.Grammar

open ProductFormula.Parser

/-- A derivation that fits in the room. -/
inductive Nests : Nat → Category → Nat → List Token → Expr → Prop
  -- expressions
  | plain {room used ts e} : Nests room (.tier .or) used ts e →
      Nests (room + 1) .expression 0 ts e
  | conditional {room used ts us vs c a b} : Nests room (.tier .or) used ts c →
      Nests room .expression 0 us a → Nests room .expression 0 vs b →
      Nests (room + 1) .expression 0 (ts ++ .symbol .question :: (us ++ .symbol .colon :: vs))
        (.conditional c a b)
  -- chains of operators
  | operand {room used t ts e} : Nests room (operands t) used ts e → Nests room (.tier t) 0 ts e
  | operation {room used used' op ts us l r} :
      Nests (room + used + 1) (.tier op.tier) used ts l → Nests room (operands op.tier) used' us r →
      Nests (room + used + 1) (.tier op.tier) (used + 1) (ts ++ .symbol op.symbol :: us)
        (.binary op l r)
  -- signs and powers
  | unsigned {room used ts e} : Nests room .powered used ts e → Nests room .signed 0 ts e
  | sign {room op ts e} : Nests room .signed 0 ts e →
      Nests (room + 1) .signed 0 (.symbol op.symbol :: ts) (.unary op e)
  | base {room ts e} : Nests room .primary 0 ts e → Nests room .powered 0 ts e
  | power {room used s ts e} : Nests (room + used + 1) .powered used ts e →
      Nests (room + used + 1) .powered (used + 1) (ts ++ [.superscript s false])
        (.exponent e s.power)
  -- literals and names
  | number {room n} : Nests room .primary 0 [.number n] (.number n)
  | string {room s} : Nests room .primary 0 [.string s] (.string s)
  | trueWord {room} : Nests room .primary 0 [.name "true"] (.boolean true)
  | falseWord {room} : Nests room .primary 0 [.name "false"] (.boolean false)
  | constant {room name n} : constant? name = some n →
      Nests room .primary 0 [.name name] (.number n)
  -- references
  | reference {room name optional} :
      Nests room .primary 0 [.reference name optional] (.reference name optional)
  | range {room name optional ts us min max} : Nests room .expression 0 ts min →
      Nests room .expression 0 us max →
      Nests room .primary 0
        (.reference name optional :: .symbol .leftBracket ::
          (ts ++ .symbol .comma :: (us ++ [.symbol .rightBracket])))
        (.between (.reference name optional) min max)
  -- parentheses and glyphs
  | group {room ts e} : Nests room .expression 0 ts e →
      Nests room .primary 0 (.symbol .leftParen :: (ts ++ [.symbol .rightParen])) e
  | rounding {room s ts e} : Nests room .expression 0 ts e →
      Nests room .primary 0
        (.superscript s true :: .symbol .leftParen :: (ts ++ [.symbol .rightParen]))
        (.glyph s.toGlyph e)
  | glyph {room g ts e} : Nests room .expression 0 ts e →
      Nests room .primary 0
        (.glyph g true :: .symbol .leftParen :: (ts ++ [.symbol .rightParen])) (.glyph g e)
  -- calls
  | grouping {room ts e} : Nests room .expression 0 ts e →
      Nests room .primary 0
        (.name "SE" :: .symbol .leftParen :: (ts ++ [.symbol .rightParen])) e
  | selection {room ts us vs c a b} : Nests room .expression 0 ts c →
      Nests room .expression 0 us a → Nests room .expression 0 vs b →
      Nests room .primary 0
        (.name "SE" :: .symbol .leftParen ::
          (ts ++ .symbol .comma :: (us ++ .symbol .comma :: (vs ++ [.symbol .rightParen]))))
        (.conditional c a b)
  | call {room name} {args : List (List Token × Expr)} : name ≠ "SE" →
      (∀ arg ∈ args, Nests room .expression 0 arg.1 arg.2) →
      Nests room .primary 0
        (.name name :: .symbol .leftParen ::
          ([.symbol .comma].intercalate (args.map (·.1)) ++ [.symbol .rightParen]))
        (.call (canonicalName name) (args.map (·.2)))

namespace Nests

variable {room used : Nat} {c : Category} {ts : List Token} {e : Expr}

theorem derives (h : Nests room c used ts e) : Derives c ts e := by
  induction h with
  | plain _ ih => exact .plain ih
  | conditional _ _ _ ih₁ ih₂ ih₃ => exact .conditional ih₁ ih₂ ih₃
  | operand _ ih => exact .operand ih
  | operation _ _ ih₁ ih₂ => exact .operation ih₁ ih₂
  | unsigned _ ih => exact .unsigned ih
  | sign _ ih => exact .sign ih
  | base _ ih => exact .base ih
  | power _ ih => exact .power ih
  | number => exact .number
  | string => exact .string
  | trueWord => exact .trueWord
  | falseWord => exact .falseWord
  | constant h => exact .constant h
  | reference => exact .reference
  | range _ _ ih₁ ih₂ => exact .range ih₁ ih₂
  | group _ ih => exact .group ih
  | rounding _ ih => exact .rounding ih
  | glyph _ ih => exact .glyph ih
  | grouping _ ih => exact .grouping ih
  | selection _ _ _ ih₁ ih₂ ih₃ => exact .selection ih₁ ih₂ ih₃
  | call hname _ ih => exact .call hname ih

theorem mono (h : Nests room c used ts e) : ∀ {room'}, room ≤ room' → Nests room' c used ts e := by
  induction h with
  | plain _ ih =>
    intro room' hle
    obtain ⟨more, rfl⟩ : ∃ more, room' = more + 1 := ⟨room' - 1, by omega⟩
    exact .plain (ih (by omega))
  | conditional _ _ _ ih₁ ih₂ ih₃ =>
    intro room' hle
    obtain ⟨more, rfl⟩ : ∃ more, room' = more + 1 := ⟨room' - 1, by omega⟩
    exact .conditional (ih₁ (by omega)) (ih₂ (by omega)) (ih₃ (by omega))
  | operand _ ih => exact fun hle => .operand (ih hle)
  | @operation _ used _ _ _ _ _ _ _ _ ih₁ ih₂ =>
    intro room' hle
    obtain ⟨more, rfl⟩ : ∃ more, room' = more + used + 1 := ⟨room' - used - 1, by omega⟩
    exact .operation (ih₁ hle) (ih₂ (by omega))
  | unsigned _ ih => exact fun hle => .unsigned (ih hle)
  | sign _ ih =>
    intro room' hle
    obtain ⟨more, rfl⟩ : ∃ more, room' = more + 1 := ⟨room' - 1, by omega⟩
    exact .sign (ih (by omega))
  | base _ ih => exact fun hle => .base (ih hle)
  | @power _ used _ _ _ _ ih =>
    intro room' hle
    obtain ⟨more, rfl⟩ : ∃ more, room' = more + used + 1 := ⟨room' - used - 1, by omega⟩
    exact .power (ih hle)
  | number => exact fun _ => .number
  | string => exact fun _ => .string
  | trueWord => exact fun _ => .trueWord
  | falseWord => exact fun _ => .falseWord
  | constant h => exact fun _ => .constant h
  | reference => exact fun _ => .reference
  | range _ _ ih₁ ih₂ => exact fun hle => .range (ih₁ hle) (ih₂ hle)
  | group _ ih => exact fun hle => .group (ih hle)
  | rounding _ ih => exact fun hle => .rounding (ih hle)
  | glyph _ ih => exact fun hle => .glyph (ih hle)
  | grouping _ ih => exact fun hle => .grouping (ih hle)
  | selection _ _ _ ih₁ ih₂ ih₃ => exact fun hle => .selection (ih₁ hle) (ih₂ hle) (ih₃ hle)
  | call hname _ ih => exact fun hle => .call hname fun arg harg => ih arg harg hle

/-- A chain takes no more levels than it is given. -/
theorem used_le (h : Nests room c used ts e) : used ≤ room := by
  cases h <;> omega

/-- Only chains of operators and powers take levels of their own. -/
theorem used_expression (h : Nests room .expression used ts e) : used = 0 := by
  cases h <;> rfl

theorem used_signed (h : Nests room .signed used ts e) : used = 0 := by
  cases h <;> rfl

theorem used_primary (h : Nests room .primary used ts e) : used = 0 := by
  cases h <;> rfl

/-- A phrase with signs, or none, is an operand and a chain of every tier. -/
theorem of_signed (h : Nests room .signed 0 ts e) (t : Tier) :
    Nests room (operands t) 0 ts e ∧ Nests room (.tier t) 0 ts e := by
  have hoperand : Nests room (operands t) 0 ts e := by
    unfold operands
    cases ht : t.tighter? with
    | some t' => exact (of_signed h t').2
    | none => exact h
  exact ⟨hoperand, .operand hoperand⟩
termination_by t.rank
decreasing_by
  have := Tier.rank_of_tighter? ht
  omega

/-- A primary is an expression one level further up. -/
theorem of_primary (h : Nests room .primary 0 ts e) : Nests (room + 1) .expression 0 ts e :=
  .plain (of_signed (.unsigned (.base h)) .or).2

end Nests

/-- The levels that pay for any phrase with so many tokens: a phrase that is no
    expression has one to spare. -/
def Category.levels : Category → Nat → Nat
  | expression, tokens => tokens
  | _, tokens => tokens - 1

theorem Category.levels_of_ne {c : Category} (h : c ≠ .expression) (tokens : Nat) :
    c.levels tokens = tokens - 1 := by
  cases c <;> first | rfl | exact absurd rfl h

theorem operands_ne_expression (t : Tier) : operands t ≠ .expression := by
  cases t <;> exact Category.noConfusion

/-- The tokens pay for the phrase. -/
def Paid (c : Category) (ts : List Token) (e : Expr) : Prop :=
  ∀ room, c.levels ts.length ≤ room → ∃ used, used < ts.length ∧ Nests room c used ts e

theorem Paid.nested {ts : List Token} {e : Expr} (h : Paid .expression ts e) {room : Nat}
    (hle : ts.length ≤ room) : Nests room .expression 0 ts e := by
  obtain ⟨_, -, hn⟩ := h room hle
  cases hn.used_expression
  exact hn

/-- **As many levels as there are tokens pay for any derivation.** -/
theorem Derives.paid {c : Category} {ts : List Token} {e : Expr} (h : Derives c ts e) :
    Paid c ts e := by
  induction h with
  | plain h ih =>
    intro room hle
    have := h.length_pos
    simp only [Category.levels] at hle
    obtain ⟨more, rfl⟩ : ∃ more, room = more + 1 := ⟨room - 1, by omega⟩
    obtain ⟨used, hused, hn⟩ := ih more (by simp only [Category.levels]; omega)
    exact ⟨0, by omega, .plain hn⟩
  | conditional hc ha hb ih₁ ih₂ ih₃ =>
    intro room hle
    have := hc.length_pos
    simp only [Category.levels, List.length_append, List.length_cons] at hle ⊢
    obtain ⟨more, rfl⟩ : ∃ more, room = more + 1 := ⟨room - 1, by omega⟩
    obtain ⟨_, -, hn⟩ := ih₁ more (by simp only [Category.levels]; omega)
    exact ⟨0, by omega, .conditional hn (ih₂.nested (by omega)) (ih₃.nested (by omega))⟩
  | operand h ih =>
    intro room hle
    obtain ⟨_, -, hn⟩ := ih room (by rwa [Category.levels_of_ne (operands_ne_expression _)])
    exact ⟨0, h.length_pos, .operand hn⟩
  | operation hl hr ih₁ ih₂ =>
    intro room hle
    have := hr.length_pos
    simp only [Category.levels, List.length_append, List.length_cons] at hle ⊢
    obtain ⟨used, hused, hl⟩ := ih₁ room (by simp only [Category.levels]; omega)
    obtain ⟨more, rfl⟩ : ∃ more, room = more + used + 1 := ⟨room - used - 1, by omega⟩
    obtain ⟨_, -, hr⟩ := ih₂ more
      (by rw [Category.levels_of_ne (operands_ne_expression _)]; omega)
    exact ⟨used + 1, by omega, .operation hl hr⟩
  | unsigned h ih =>
    intro room hle
    obtain ⟨_, -, hn⟩ := ih room hle
    exact ⟨0, h.length_pos, .unsigned hn⟩
  | sign h ih =>
    intro room hle
    have := h.length_pos
    simp only [Category.levels, List.length_cons] at hle ⊢
    obtain ⟨more, rfl⟩ : ∃ more, room = more + 1 := ⟨room - 1, by omega⟩
    obtain ⟨_, -, hn⟩ := ih more (by simp only [Category.levels]; omega)
    cases hn.used_signed
    exact ⟨0, by omega, .sign hn⟩
  | base h ih =>
    intro room hle
    obtain ⟨_, -, hn⟩ := ih room hle
    cases hn.used_primary
    exact ⟨0, h.length_pos, .base hn⟩
  | power h ih =>
    intro room hle
    simp only [Category.levels, List.length_append, List.length_singleton] at hle ⊢
    obtain ⟨used, hused, hn⟩ := ih room (by simp only [Category.levels]; omega)
    obtain ⟨more, rfl⟩ : ∃ more, room = more + used + 1 := ⟨room - used - 1, by omega⟩
    exact ⟨used + 1, by omega, .power hn⟩
  | number => exact fun _ _ => ⟨0, Nat.one_pos, .number⟩
  | string => exact fun _ _ => ⟨0, Nat.one_pos, .string⟩
  | trueWord => exact fun _ _ => ⟨0, Nat.one_pos, .trueWord⟩
  | falseWord => exact fun _ _ => ⟨0, Nat.one_pos, .falseWord⟩
  | constant h => exact fun _ _ => ⟨0, Nat.one_pos, .constant h⟩
  | reference => exact fun _ _ => ⟨0, Nat.one_pos, .reference⟩
  | range _ _ ih₁ ih₂ =>
    intro room hle
    simp only [Category.levels, List.length_cons, List.length_append] at hle
    exact ⟨0, Nat.succ_pos _, .range (ih₁.nested (by omega)) (ih₂.nested (by omega))⟩
  | group _ ih =>
    intro room hle
    simp only [Category.levels, List.length_cons, List.length_append] at hle
    exact ⟨0, Nat.succ_pos _, .group (ih.nested (by omega))⟩
  | rounding _ ih =>
    intro room hle
    simp only [Category.levels, List.length_cons, List.length_append] at hle
    exact ⟨0, Nat.succ_pos _, .rounding (ih.nested (by omega))⟩
  | glyph _ ih =>
    intro room hle
    simp only [Category.levels, List.length_cons, List.length_append] at hle
    exact ⟨0, Nat.succ_pos _, .glyph (ih.nested (by omega))⟩
  | grouping _ ih =>
    intro room hle
    simp only [Category.levels, List.length_cons, List.length_append] at hle
    exact ⟨0, Nat.succ_pos _, .grouping (ih.nested (by omega))⟩
  | selection _ _ _ ih₁ ih₂ ih₃ =>
    intro room hle
    simp only [Category.levels, List.length_cons, List.length_append] at hle
    exact ⟨0, Nat.succ_pos _, .selection (ih₁.nested (by omega)) (ih₂.nested (by omega))
      (ih₃.nested (by omega))⟩
  | @call _ args hname _ ih =>
    intro room hle
    simp only [Category.levels, List.length_cons, List.length_append] at hle
    refine ⟨0, Nat.succ_pos _, .call hname fun arg harg => Paid.nested (ih arg harg) ?_⟩
    have := length_le_intercalate (.symbol .comma)
      (List.mem_map_of_mem (f := (·.1)) harg)
    omega

/-- Derivations, and derivations that fit in some room. -/
theorem derives_iff_nests {ts : List Token} {e : Expr} {room : Nat} (hle : ts.length ≤ room) :
    Derives .expression ts e ↔ Nests room .expression 0 ts e :=
  ⟨fun h => h.paid.nested hle, Nests.derives⟩

end ProductFormula.Grammar
