/-
  How high a tree can be.

  A chain pays for its operators only until it ends, and the finished chain can
  be the first operand of a chain on the next tier, which gets the whole
  allowance again.  Within a room of `r` levels each of the eight kinds of
  chains, powers included, can thus stand on the others with `r` operators of
  its own, except that a conditional has one.

  * `Nests.height_le`: what each category can be built up to (`ceiling`);
  * `highest` is the bound for expressions, and `two_mul_highest` its value.
-/
import Mathlib.Algebra.Group.Nat.Defs
import ProductFormula.Proofs.Grammar.Nesting

namespace ProductFormula

open ProductFormula.Parser

namespace Expr

theorem one_le_height (e : Expr) : 1 ≤ e.height := by
  cases e <;> simp [height]

theorem height_range (name : String) (optional : Bool) (lower upper : Expr) :
    (between (reference name optional) lower upper).height =
      max 1 (max lower.height upper.height) + 1 := rfl

theorem height_binary (op : BinaryOp) (left right : Expr) :
    (binary op left right).height = max left.height right.height + 1 := rfl

theorem height_conditional (condition chosen other : Expr) :
    (conditional condition chosen other).height =
      max condition.height (max chosen.height other.height) + 1 := rfl

theorem greatestHeight_le {es : List Expr} {bound : Nat} (h : ∀ e ∈ es, e.height ≤ bound) :
    greatestHeight es ≤ bound := by
  induction es with
  | nil => exact Nat.zero_le _
  | cons e es ih =>
    rw [greatestHeight]
    exact Nat.max_le.2 ⟨h e List.mem_cons_self, ih fun e' he => h e' (List.mem_cons_of_mem _ he)⟩

end Expr

namespace Grammar

/-! ## The bounds -/

/-- The height of the highest expression in a room: seven chains of operators
    and powers on a primary, and a conditional on them. -/
def highest : Nat → Nat
  | 0 => 0
  | 1 => 1
  | room + 2 => highest (room + 1) + 7 * (room + 1) + 2

theorem highest_succ_le (room : Nat) : highest room + 7 * room + 1 ≤ highest (room + 1) := by
  cases room with
  | zero => decide
  | succ room =>
    rw [highest]
    omega

theorem highest_mono {room room' : Nat} (h : room ≤ room') : highest room ≤ highest room' := by
  induction h with
  | refl => exact Nat.le_refl _
  | @step room' _ ih =>
    have := highest_succ_le room'
    rw [Nat.succ_eq_add_one]
    omega

theorem two_mul_highest (room : Nat) :
    2 * highest (room + 1) + 3 * (room + 1) + 2 = 7 * (room + 1) ^ 2 := by
  induction room with
  | zero => rfl
  | succ room ih =>
    have hsquare : (room + 1 + 1) ^ 2 = (room + 1) ^ 2 + 2 * (room + 1) + 1 := by
      simp only [Nat.pow_two, Nat.add_mul, Nat.mul_add]
      omega
    rw [highest, hsquare]
    omega

/-- The height that a phrase with so many operators or powers of its own can
    have. -/
def ceiling (room : Nat) : Category → (used : Nat) → Nat
  | .expression, _ => highest room
  | .tier t, used => highest room + 1 + room + t.rank * room + used
  | .signed, _ => highest room + 1 + room
  | .powered, used => highest room + 1 + used
  | .primary, _ => highest room + 1

theorem ceiling_operands_le {room used : Nat} (h : used ≤ room) (t : Tier) :
    ceiling room (operands t) used ≤ ceiling room (.tier t) 0 := by
  cases t <;> simp only [operands, Tier.tighter?, ceiling, Tier.rank] <;> omega

theorem ceiling_tier_mono {room room' : Nat} (h : room ≤ room') (t : Tier) (used : Nat) :
    ceiling room (.tier t) used ≤ ceiling room' (.tier t) used := by
  have hhighest := highest_mono h
  have hrank := Nat.mul_le_mul_left t.rank h
  simp only [ceiling]
  omega

/-! ## The bounds hold -/

/-- **No tree is higher than its room allows.** -/
theorem Nests.height_le {room used : Nat} {c : Category} {ts : List Token} {e : Expr}
    (h : Nests room c used ts e) : e.height ≤ ceiling room c used := by
  induction h with
  | @plain room used _ _ h ih =>
    have hused := h.used_le
    have hnext := highest_succ_le room
    simp only [ceiling, Tier.rank] at ih ⊢
    omega
  | @conditional room used _ _ _ _ _ _ hc ha hb ih₁ ih₂ ih₃ =>
    have hused := hc.used_le
    cases room with
    | zero => cases ha
    | succ room =>
      simp only [ceiling, Tier.rank, Expr.height_conditional, highest] at ih₁ ih₂ ih₃ ⊢
      omega
  | operand h ih => exact Nat.le_trans ih (ceiling_operands_le h.used_le _)
  | @operation room used used' op _ _ _ _ hl hr ih₁ ih₂ =>
    have hright : _ ≤ ceiling (room + used + 1) (.tier op.tier) 0 :=
      Nat.le_trans ih₂ (Nat.le_trans (ceiling_operands_le hr.used_le _)
        (ceiling_tier_mono (by omega) _ _))
    simp only [ceiling, Expr.height_binary] at ih₁ hright ⊢
    omega
  | unsigned h ih =>
    have := h.used_le
    simp only [ceiling] at ih ⊢
    omega
  | @sign room _ _ _ _ ih =>
    have := highest_succ_le room
    simp only [ceiling, Expr.height] at ih ⊢
    omega
  | base _ ih => exact ih
  | power _ ih =>
    simp only [ceiling, Expr.height] at ih ⊢
    omega
  | @range _ _ _ _ _ lower _ _ _ ih₁ ih₂ =>
    have := lower.one_le_height
    simp only [ceiling, Expr.height_range] at ih₁ ih₂ ⊢
    omega
  | group _ ih | grouping _ ih =>
    simp only [ceiling] at ih ⊢
    omega
  | rounding _ ih | glyph _ ih =>
    simp only [ceiling, Expr.height] at ih ⊢
    omega
  | selection _ _ _ ih₁ ih₂ ih₃ =>
    simp only [ceiling, Expr.height_conditional] at ih₁ ih₂ ih₃ ⊢
    omega
  | call _ _ ih =>
    simp only [ceiling, Expr.height] at ih ⊢
    exact Nat.succ_le_succ (Expr.greatestHeight_le (List.forall_mem_map.2 ih))
  | _ =>
    simp only [ceiling, Expr.height]
    omega

end Grammar

end ProductFormula
