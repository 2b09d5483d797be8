/-
  Comparisons of values.

  Two texts are compared by their characters, and all other values as numbers.
  In both ways the six operators that coerce their operands are read off one
  order of the two values (`Value.compare?`), which turns round with them; there
  is none exactly if one of the numbers is NaN (`Value.ComparesNaN`).  The two
  operators that coerce nothing find fewer values equal.

  * `BinaryOp.apply_comparison`: what each operator says of the order;
  * `Expr.coherent_of_evaluate`: the comparisons of two expressions that have
    values fit together (`Expr.Coherent`).
-/
import ProductFormula.Expr.Evaluation
import ProductFormula.Proofs.Number.Nearest
import ProductFormula.Proofs.Number.Order

namespace ProductFormula

/-! ## Values -/

namespace Value

variable {l r : Value}

/-- One of the two values is compared as a number and is none. -/
def ComparesNaN (l r : Value) : Prop :=
  ¬ (l.isText ∧ r.isText) ∧ (l.toNumber = .nan ∨ r.toNumber = .nan)

theorem compare?_of_not_texts (h : ¬ (l.isText ∧ r.isText)) :
    l.compare? r = l.toNumber.compare? r.toNumber := by
  unfold compare?
  split
  · exact absurd ⟨rfl, rfl⟩ h
  · rfl

theorem looseEquals_of_not_texts (h : ¬ (l.isText ∧ r.isText)) :
    l.looseEquals r = l.toNumber.equals r.toNumber := by
  unfold looseEquals
  split
  · exact absurd ⟨rfl, rfl⟩ h
  · rfl

theorem exists_texts (h : l.isText ∧ r.isText) : ∃ s t, l = text s ∧ r = text t := by
  cases l with
  | text s =>
    cases r with
    | text t => exact ⟨s, t, rfl, rfl⟩
    | number | boolean => cases h.2
  | number | boolean => cases h.1

theorem compare?_eq_eq_iff : l.compare? r = some .eq ↔ l.looseEquals r := by
  by_cases h : l.isText ∧ r.isText
  · obtain ⟨s, t, rfl, rfl⟩ := exists_texts h
    simp only [compare?, looseEquals, Option.some.injEq, beq_iff_eq, Std.compare_eq_iff_eq]
  · rw [compare?_of_not_texts h, looseEquals_of_not_texts h, Number.equals_iff]

theorem compare?_swap (l r : Value) : r.compare? l = (l.compare? r).map Ordering.swap := by
  by_cases h : l.isText ∧ r.isText
  · obtain ⟨s, t, rfl, rfl⟩ := exists_texts h
    exact congrArg some Std.OrientedOrd.eq_swap
  · rw [compare?_of_not_texts h, compare?_of_not_texts fun hswap => h hswap.symm,
      Number.compare?_swap]

theorem compare?_eq_none_iff : l.compare? r = none ↔ l.ComparesNaN r := by
  by_cases h : l.isText ∧ r.isText
  · obtain ⟨s, t, rfl, rfl⟩ := exists_texts h
    simp [compare?, ComparesNaN, isText]
  · rw [compare?_of_not_texts h, Number.compare?_eq_none_iff, ComparesNaN, and_iff_right h]

theorem compare?_eq_gt_iff : l.compare? r = some .gt ↔ r.compare? l = some .lt := by
  rw [compare?_swap r l, Option.map_eq_some_iff]
  simp only [Ordering.swap_eq_gt, exists_eq_right]

theorem looseEquals_comm (l r : Value) : l.looseEquals r = r.looseEquals l := by
  rw [Bool.eq_iff_iff, ← compare?_eq_eq_iff, ← compare?_eq_eq_iff, compare?_swap r l,
    Option.map_eq_some_iff]
  simp only [Ordering.swap_eq_eq, exists_eq_right]

theorem strictEquals_comm (l r : Value) : l.strictEquals r = r.strictEquals l := by
  cases l with
  | number n =>
    cases r with
    | number m =>
      show n.equals m = m.equals n
      exact looseEquals_comm (number n) (number m)
    | boolean | text => rfl
  | boolean b =>
    cases r with
    | boolean c => exact Bool.beq_comm
    | number | text => rfl
  | text s =>
    cases r with
    | text t => exact BEq.comm
    | number | boolean => rfl

theorem toNumber_boolean_ne_nan (b : Bool) : (boolean b).toNumber ≠ .nan := by
  cases b with
  | false => exact Number.noConfusion
  | true =>
    rw [toNumber, asNumber?, Option.getD_some, Number.ofNat]
    exact Number.nearest_ne_nan false _ 1

/-- Values of one kind that are equal are loosely equal. -/
theorem looseEquals_of_strictEquals (h : l.strictEquals r) : l.looseEquals r := by
  cases l with
  | number n =>
    cases r with
    | number m => exact h
    | boolean | text => cases h
  | boolean b =>
    cases r with
    | boolean c =>
      obtain rfl : b = c := eq_of_beq h
      exact Number.equals_self (toNumber_boolean_ne_nan b)
    | number | text => cases h
  | text s =>
    cases r with
    | text t => exact h
    | number | boolean => cases h

end Value

/-! ## Operators -/

namespace BinaryOp

variable {op : BinaryOp} {l r : Value}

/-- The operators that compare. -/
def comparisons : List BinaryOp :=
  [equal, notEqual, strictEqual, strictNotEqual, lessThan, lessEqual, greaterThan, greaterEqual]

/-- What a comparison says of two values, most of it in terms of their order. -/
def Says : BinaryOp → Value → Value → Prop
  | equal, l, r => l.compare? r = some .eq
  | notEqual, l, r => l.compare? r ≠ some .eq
  | strictEqual, l, r => l.strictEquals r
  | strictNotEqual, l, r => ¬ l.strictEquals r
  | lessThan, l, r => l.compare? r = some .lt
  | lessEqual, l, r => l.compare? r = some .lt ∨ l.compare? r = some .eq
  | greaterThan, l, r => l.compare? r = some .gt
  | greaterEqual, l, r => l.compare? r = some .gt ∨ l.compare? r = some .eq
  | _, _, _ => False

/-- A comparison is true or false, and true if what it says is so. -/
theorem apply_comparison (hop : op ∈ comparisons) (l r : Value) :
    ∃ b, op.apply l r = .boolean b ∧ (b = true ↔ op.Says l r) := by
  cases op with
  | add | subtract | multiply | divide | modulo | and | or => exact absurd hop (by decide)
  | equal => exact ⟨_, rfl, Value.compare?_eq_eq_iff.symm⟩
  | notEqual => exact ⟨_, rfl, by simp [Says, Value.compare?_eq_eq_iff]⟩
  | strictEqual => exact ⟨_, rfl, Iff.rfl⟩
  | strictNotEqual => exact ⟨_, rfl, by simp [Says]⟩
  | lessThan | lessEqual | greaterThan | greaterEqual => exact ⟨_, rfl, by simp [Says]⟩

theorem shortcut?_of_mem_comparisons (hop : op ∈ comparisons) (l : Value) :
    op.shortcut? l = none := by
  cases op with
  | and | or => exact absurd hop (by decide)
  | _ => rfl

end BinaryOp

/-! ## Expressions -/

namespace Expr

variable {ctx : Context} {left right : Expr} {l r : Value} {op : BinaryOp}

/-- The expressions compare in this way. -/
def Holds (ctx : Context) (op : BinaryOp) (left right : Expr) : Prop :=
  (binary op left right).evaluate ctx = .ok (.boolean true)

/-- How the comparisons of two expressions fit together; `nan` says that one of
    the two values is compared as a number and is none. -/
structure Coherent (ctx : Context) (left right : Expr) (nan : Prop) : Prop where
  /-- a comparison is true or false, and nothing else -/
  boolean : ∀ op ∈ BinaryOp.comparisons,
    ∃ b, (binary op left right).evaluate ctx = .ok (.boolean b)
  lessEqual_iff : Holds ctx .lessEqual left right ↔
    Holds ctx .lessThan left right ∨ Holds ctx .equal left right
  greaterEqual_iff : Holds ctx .greaterEqual left right ↔
    Holds ctx .greaterThan left right ∨ Holds ctx .equal left right
  lessThan_iff : Holds ctx .lessThan left right ↔ Holds ctx .greaterThan right left
  /-- at most one of `<`, `==` and `>` is true -/
  atMostOne : ¬ (Holds ctx .lessThan left right ∧ Holds ctx .equal left right) ∧
    ¬ (Holds ctx .lessThan left right ∧ Holds ctx .greaterThan left right) ∧
    ¬ (Holds ctx .equal left right ∧ Holds ctx .greaterThan left right)
  /-- one of them is, unless NaN is compared -/
  exists_iff : Holds ctx .lessThan left right ∨ Holds ctx .equal left right ∨
    Holds ctx .greaterThan left right ↔ ¬ nan
  notEqual_iff : Holds ctx .notEqual left right ↔ ¬ Holds ctx .equal left right
  strictNotEqual_iff : Holds ctx .strictNotEqual left right ↔
    ¬ Holds ctx .strictEqual left right
  equal_of_strictEqual : Holds ctx .strictEqual left right → Holds ctx .equal left right
  equal_comm : Holds ctx .equal left right ↔ Holds ctx .equal right left
  strictEqual_comm : Holds ctx .strictEqual left right ↔ Holds ctx .strictEqual right left

/-- An operator whose left operand never decides alone evaluates both. -/
theorem evaluate_binary (hop : ∀ l, op.shortcut? l = none) (left right : Expr) :
    (binary op left right).evaluate ctx = do
      let l ← left.evaluate ctx
      let r ← right.evaluate ctx
      return op.apply l r := by
  rw [evaluate]
  refine bind_congr fun l => ?_
  rw [hop l]

theorem evaluate_comparison (hl : left.evaluate ctx = .ok l) (hr : right.evaluate ctx = .ok r)
    (hop : op ∈ BinaryOp.comparisons) :
    (binary op left right).evaluate ctx = .ok (op.apply l r) := by
  rw [evaluate_binary (BinaryOp.shortcut?_of_mem_comparisons hop), hl, hr]
  rfl

theorem holds_iff (hl : left.evaluate ctx = .ok l) (hr : right.evaluate ctx = .ok r)
    (hop : op ∈ BinaryOp.comparisons) : Holds ctx op left right ↔ op.Says l r := by
  obtain ⟨b, hb, hsays⟩ := BinaryOp.apply_comparison hop l r
  rw [Holds, evaluate_comparison hl hr hop, hb, ← hsays, Except.ok.injEq, Value.boolean.injEq]

/-- **Comparisons are coherent**, whatever the kinds of the values. -/
theorem coherent_of_evaluate (hl : left.evaluate ctx = .ok l) (hr : right.evaluate ctx = .ok r) :
    Coherent ctx left right (l.ComparesNaN r) where
  boolean op hop := by
    obtain ⟨b, hb, -⟩ := BinaryOp.apply_comparison hop l r
    exact ⟨b, by rw [evaluate_comparison hl hr hop, hb]⟩
  lessEqual_iff := by
    simp (disch := decide) only [holds_iff hl hr, BinaryOp.Says]
  greaterEqual_iff := by
    simp (disch := decide) only [holds_iff hl hr, BinaryOp.Says]
  lessThan_iff := by
    simp (disch := decide) only [holds_iff hl hr, holds_iff hr hl, BinaryOp.Says]
    exact Value.compare?_eq_gt_iff.symm
  atMostOne := by
    simp (disch := decide) only [holds_iff hl hr, BinaryOp.Says]
    simp +contextual
  exists_iff := by
    simp (disch := decide) only [holds_iff hl hr, BinaryOp.Says, ← Value.compare?_eq_none_iff]
    cases l.compare? r with
    | none => simp
    | some order => cases order <;> simp
  notEqual_iff := by
    simp (disch := decide) only [holds_iff hl hr, BinaryOp.Says, ne_eq]
  strictNotEqual_iff := by
    simp (disch := decide) only [holds_iff hl hr, BinaryOp.Says]
  equal_of_strictEqual := by
    simp (disch := decide) only [holds_iff hl hr, BinaryOp.Says]
    exact fun h => Value.compare?_eq_eq_iff.2 (Value.looseEquals_of_strictEquals h)
  equal_comm := by
    simp (disch := decide) only [holds_iff hl hr, holds_iff hr hl, BinaryOp.Says,
      Value.compare?_eq_eq_iff, Value.looseEquals_comm l r]
  strictEqual_comm := by
    simp (disch := decide) only [holds_iff hl hr, holds_iff hr hl, BinaryOp.Says,
      Value.strictEquals_comm l r]

/-- A text that holds no number is neither below nor above a boolean, nor equal
    to it. -/
theorem coherent_text_with_boolean :
    (string "x").evaluate ⟨.empty, true⟩ = .ok (.text "x") ∧
      (boolean true).evaluate ⟨.empty, true⟩ = .ok (.boolean true) ∧
      (Value.text "x").ComparesNaN (.boolean true) ∧
      Coherent ⟨.empty, true⟩ (string "x") (boolean true)
        ((Value.text "x").ComparesNaN (.boolean true)) :=
  ⟨rfl, rfl, ⟨by decide, .inl (by decide +kernel)⟩, coherent_of_evaluate rfl rfl⟩

end Expr

end ProductFormula
