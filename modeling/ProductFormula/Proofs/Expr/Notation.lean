/-
  Notations and what they stand for.

  A range test stands for two comparisons that both hold (`Expr.withinBounds`),
  and a glyph for calls and operators (`Glyph.expansion`).  Glyphs are evaluated
  as what they stand for.  A range test is too, but for one case: it evaluates
  both bounds, where the conjunction leaves the upper one alone if the operand
  is not above the lower one.

  * `Expr.evaluate_between_eq_iff`: the range tests that are evaluated as the
    conjunction;
  * `Expr.evaluate_glyph`: the same for glyphs, which are all.
-/
import ProductFormula.Proofs.Expr.Calls
import ProductFormula.Proofs.Expr.Comparisons

namespace ProductFormula

namespace Value

theorem toNumber_number (n : Number) : (number n).toNumber = n := rfl

theorem add_number (n m : Number) : (number n).add (number m) = .number (n.add m) := rfl

end Value

namespace Expr

variable {ctx : Context} {operand min max left right x : Expr} {v lower : Value}
  {op : BinaryOp}

/-! ## Range tests -/

/-- `(operand > min) && (operand < max)` -/
def withinBounds (operand min max : Expr) : Expr :=
  binary .and (binary .greaterThan operand min) (binary .lessThan operand max)

/-- A conjunction answers with the operand that decides. -/
theorem evaluate_and (left right : Expr) :
    (binary .and left right).evaluate ctx = do
      let l ← left.evaluate ctx
      if l.isTruthy then right.evaluate ctx else return l := by
  rw [evaluate]
  refine bind_congr fun l => ?_
  cases hl : l.isTruthy with
  | true =>
    simp only [BinaryOp.shortcut?, hl, if_true]
    exact bind_pure (right.evaluate ctx)
  | false => simp only [BinaryOp.shortcut?, hl, Bool.false_eq_true, if_false]

/-- What a range test is once its operand and its lower bound have values. -/
theorem evaluate_between (hv : operand.evaluate ctx = .ok v)
    (hlower : min.evaluate ctx = .ok lower) :
    (between operand min max).evaluate ctx = do
      let upper ← max.evaluate ctx
      return .boolean (v.compare? lower == some .gt && v.compare? upper == some .lt) := by
  rw [evaluate, hv, hlower]
  rfl

/-- The conjunction asks for the upper bound only above the lower one. -/
theorem evaluate_withinBounds (hv : operand.evaluate ctx = .ok v)
    (hlower : min.evaluate ctx = .ok lower) :
    (withinBounds operand min max).evaluate ctx =
      if v.compare? lower == some .gt then do
        let upper ← max.evaluate ctx
        return .boolean (v.compare? upper == some .lt)
      else
        .ok (.boolean false) := by
  have habove : (binary .greaterThan operand min).evaluate ctx =
      .ok (.boolean (v.compare? lower == some .gt)) := evaluate_comparison hv hlower (by decide)
  rw [withinBounds, evaluate_and, habove, evaluate_binary (fun _ => rfl), hv]
  cases v.compare? lower == some .gt with
  | true => rfl
  | false => rfl

/-- An error of the operand or of the lower bound is the error of both. -/
theorem evaluate_of_lower_error {err : Error}
    (h : (binary .greaterThan operand min).evaluate ctx = .error err) :
    (between operand min max).evaluate ctx = .error err ∧
      (withinBounds operand min max).evaluate ctx = .error err := by
  constructor
  · rw [evaluate_binary (fun _ => rfl), bind_eq_error] at h
    rw [evaluate]
    rcases h with hv | ⟨v, hv, h⟩
    · rw [hv]
      rfl
    · rcases bind_eq_error.1 h with hlower | ⟨lower, -, hok⟩
      · rw [hv, hlower]
        rfl
      · cases hok
  · rw [withinBounds, evaluate_and, h]
    rfl

/-- **A range test is evaluated as the conjunction of its comparisons** unless
    the upper bound fails while the operand is not above the lower one: then the
    range test fails, and the conjunction is false. -/
theorem evaluate_between_eq_iff (ctx : Context) (operand min max : Expr) :
    ((between operand min max).evaluate ctx = (withinBounds operand min max).evaluate ctx ↔
      ∀ err, max.evaluate ctx = .error err →
        (binary .greaterThan operand min).evaluate ctx ≠ .ok (.boolean false)) ∧
    ∀ err, max.evaluate ctx = .error err →
      (binary .greaterThan operand min).evaluate ctx = .ok (.boolean false) →
        (between operand min max).evaluate ctx = .error err ∧
          (withinBounds operand min max).evaluate ctx = .ok (.boolean false) := by
  cases habove : (binary .greaterThan operand min).evaluate ctx with
  | error err =>
    obtain ⟨hbetween, hwithin⟩ := @evaluate_of_lower_error _ _ _ max _ habove
    simp [hbetween, hwithin]
  | ok above =>
    rw [evaluate_binary (fun _ => rfl)] at habove
    obtain ⟨v, hv, hrest⟩ := bind_eq_ok.1 habove
    obtain ⟨lower, hlower, hsays⟩ := bind_eq_ok.1 hrest
    obtain rfl := Except.ok.inj hsays
    rw [evaluate_between hv hlower, evaluate_withinBounds hv hlower, BinaryOp.apply]
    cases v.compare? lower == some .gt with
    | true => simp
    | false =>
      -- the conjunction is false, and the range test fails if the upper bound does
      cases max.evaluate ctx with
      | error err => simp [bind, Except.bind]
      | ok upper => simp [bind, Except.bind, pure, Except.pure]

/-- Zero is not above one, whatever fails in the upper bound. -/
theorem between_unknown_function :
    (between (reference "A" true) (number (.ofNat 1)) (call "F" [])).evaluate ⟨.empty, true⟩ =
        .error (.unknownFunction "F") ∧
      (withinBounds (reference "A" true) (number (.ofNat 1)) (call "F" [])).evaluate
        ⟨.empty, true⟩ = .ok (.boolean false) := by
  decide +kernel

/-! ## Glyphs -/

theorem evaluate_round (x : Expr) :
    (call "ROUND" [x]).evaluate ctx = do
      let v ← x.evaluate ctx
      return .number v.toNumber.roundHalfUp :=
  evaluate_call_unary (List.mem_of_getElem? (i := 0) rfl) x

theorem evaluate_number_left (hop : ∀ l, op.shortcut? l = none) (n : Number) (x : Expr) :
    (binary op (number n) x).evaluate ctx = do
      let v ← x.evaluate ctx
      return op.apply (.number n) v := by
  rw [evaluate_binary hop, evaluate]
  rfl

theorem evaluate_number_right (hop : ∀ l, op.shortcut? l = none) (x : Expr) (n : Number) :
    (binary op x (number n)).evaluate ctx = do
      let v ← x.evaluate ctx
      return op.apply v (.number n) := by
  rw [evaluate_binary hop]
  refine bind_congr fun v => ?_
  rw [evaluate]
  rfl

/-- `2 * ROUND(x / 2)` -/
def twiceRoundedHalf (x : Expr) : Expr :=
  binary .multiply (number (.ofNat 2)) (call "ROUND" [binary .divide x (number (.ofNat 2))])

theorem evaluate_twiceRoundedHalf (x : Expr) :
    (twiceRoundedHalf x).evaluate ctx = do
      let v ← x.evaluate ctx
      return .number v.toNumber.nearestEven := by
  rw [twiceRoundedHalf, evaluate_number_left (fun _ => rfl), evaluate_round,
    evaluate_number_right (fun _ => rfl)]
  simp only [bind_assoc, pure_bind, BinaryOp.apply, Value.toNumber_number, Number.nearestEven]

theorem evaluate_succ_twiceRoundedHalf (x : Expr) :
    (binary .add (twiceRoundedHalf x) (number (.ofNat 1))).evaluate ctx = do
      let v ← x.evaluate ctx
      return .number v.toNumber.nearestOdd := by
  rw [evaluate_number_right (fun _ => rfl), evaluate_twiceRoundedHalf]
  simp only [bind_assoc, pure_bind, BinaryOp.apply, Value.add_number, Number.nearestOdd]

end Expr

/-- What a glyph stands for in front of an operand. -/
def Glyph.expansion : Glyph → Expr → Expr
  | round, x => .call "ROUND" [x]
  | ceil, x => .call "CEIL" [x]
  | floor, x => .call "FLOOR" [x]
  | squareRoot, x => .call "SQRT" [x]
  | cubeRoot, x => .call "CBRT" [x]
  | nearestEven, x => x.twiceRoundedHalf
  | nearestOdd, x => .binary .add x.twiceRoundedHalf (.number (.ofNat 1))

namespace Expr

/-- **Glyphs are evaluated as what they stand for**, in values and in errors. -/
theorem evaluate_glyph (ctx : Context) (g : Glyph) (x : Expr) :
    (glyph g x).evaluate ctx = (g.expansion x).evaluate ctx := by
  rw [evaluate]
  cases g with
  | round => exact (evaluate_round x).symm
  | ceil => exact (evaluate_call_unary (List.mem_of_getElem? (i := 1) rfl) x).symm
  | floor => exact (evaluate_call_unary (List.mem_of_getElem? (i := 2) rfl) x).symm
  | squareRoot => exact (evaluate_call_unary (List.mem_of_getElem? (i := 3) rfl) x).symm
  | cubeRoot => exact (evaluate_call_unary (List.mem_of_getElem? (i := 4) rfl) x).symm
  | nearestEven => exact (evaluate_twiceRoundedHalf x).symm
  | nearestOdd => exact (evaluate_succ_twiceRoundedHalf x).symm

end Expr

end ProductFormula
