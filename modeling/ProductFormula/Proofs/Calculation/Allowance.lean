/-
  Calculations at a higher limit.

  The limit of nesting reaches a calculation through the parser alone, so a
  statement whose expression is not cut off does the same at any higher limit
  (`persists_perform`), and a run goes on with the same environments
  (`run_persists`).  A statement that is cut off ends the run with code 5.

  * `limit_only_cuts_off` says this of texts and of calculations together.
-/
import ProductFormula.Calculation
import ProductFormula.Proofs.Grammar.Allowance

namespace ProductFormula

open Error

/-- Options with another limit. -/
def Options.withLimit (options : Options) (limit : Nat) : Options :=
  { options with maxDepth := limit }

theorem code_atLine (e : Error) (line : Nat) : (e.atLine line).code = e.code := by
  cases e <;> rfl

theorem code_of_nestsTooDeep {e : Error} (h : e.NestsTooDeep) : e.code = 5 := by
  obtain ⟨limit, rfl⟩ := h
  rfl

namespace Calculation

variable {limit limit' : Nat} {options : Options}

/-! ## One statement -/

theorem persists_evaluateText (h : limit ≤ limit') (ctx : Context) (expression : List Char) :
    Persists NestsTooDeep (evaluateText limit ctx expression)
      (evaluateText limit' ctx expression) :=
  (Expr.persists_parse h _).bind fun e => .refl (e.evaluate ctx)

/-- **A statement that is not cut off does the same at any higher limit.** -/
theorem persists_perform (h : limit ≤ limit') (ctx : Context) (statement : Statement) :
    Persists NestsTooDeep (perform limit ctx statement) (perform limit' ctx statement) := by
  cases statement with
  | returnText text => exact .refl _
  | returnValue expression => exact (persists_evaluateText h ctx expression).bind fun _ => .refl _
  | assignment name expression =>
    exact (persists_evaluateText h ctx expression).bind fun _ => .refl _
  | other => exact .refl _

/-! ## Runs -/

/-- **A run that is not cut off is the same run at any higher limit.** -/
theorem run_persists (h : options.maxDepth ≤ limit) (line : Nat) (env : Environment)
    (ss : List (List Char)) (hcode : FailsWith (·.code ≠ 5) (run options line env ss).outcome) :
    run (options.withLimit limit) line env ss = run options line env ss := by
  induction ss generalizing line env with
  | nil => rfl
  | cons s ss ih =>
    rw [run] at hcode
    rw [run, run]
    dsimp only [Options.withLimit] at hcode ⊢
    generalize (⟨env, options.stripDots⟩ : Context) = ctx at hcode ⊢
    cases hcheck : checkBound ctx (requiredNames s) with
    | error e => rfl
    | ok =>
      rw [hcheck] at hcode
      dsimp only at hcode ⊢
      have hperform : perform limit ctx (.ofText s) = perform options.maxDepth ctx (.ofText s) := by
        refine persists_perform h ctx _ fun e he hdeep => ?_
        rw [he] at hcode
        exact hcode _ rfl (by rw [code_atLine, code_of_nestsTooDeep hdeep])
      rw [hperform]
      cases heffect : perform options.maxDepth ctx (.ofText s) with
      | error e => rfl
      | ok x =>
        rw [heffect] at hcode
        cases x with
        | returns v => rfl
        | assigns name v => exact congrArg (Run.logged _) (ih (line + 1) (env.set name v) hcode)
        | nothing => exact congrArg (Run.logged _) (ih (line + 1) env hcode)

end Calculation

/-! ## Formulas -/

/-- A calculation that does not end with code 5 is the same one at any higher
    limit. -/
theorem calculate_persists {options : Options} {limit : Nat} (h : options.maxDepth ≤ limit)
    {formula : String} {env : Environment}
    (hcode : (calculate options formula env).record.code ≠ 5) :
    calculate (options.withLimit limit) formula env = calculate options formula env := by
  unfold calculate at hcode ⊢
  split
  · rfl
  next hblank =>
    rw [if_neg hblank] at hcode
    dsimp only at hcode ⊢
    rw [Calculation.run_persists h]
    intro e he hdeep
    rw [he] at hcode
    exact hcode hdeep

/-- What a higher limit may change. -/
structure OnlyCutsOff (limit limit' : Nat) : Prop where
  accepted : ∀ text e, Expr.parse limit text = .ok e → Expr.parse limit' text = .ok e
  refused : ∀ text detail, Expr.parse limit text = .error (.parse detail) →
    Expr.parse limit' text = .error (.parse detail)
  /-- the error names the limit that was given -/
  exceeded : ∀ text bound, Expr.parse limit text = .error (.depthExceeded bound) → bound = limit
  affordable : ∀ text bound, text.length < limit →
    Expr.parse limit text ≠ .error (.depthExceeded bound)
  calculated : ∀ (options : Options) formula env, options.maxDepth = limit →
    (calculate options formula env).record.code ≠ 5 →
      calculate (options.withLimit limit') formula env = calculate options formula env

/-- **The limit of nesting only ever cuts off.** -/
theorem limit_only_cuts_off {limit limit' : Nat} (h : limit ≤ limit') :
    OnlyCutsOff limit limit' where
  accepted text e he := by
    have hsame := Expr.persists_parse h text
    rw [he] at hsame
    exact hsame (failsWith_ok e)
  refused text detail hdetail := by
    have hsame := Expr.persists_parse h text
    rw [hdetail] at hsame
    exact hsame (failsWith_error fun ⟨_, hdeep⟩ => Error.noConfusion hdeep)
  exceeded text bound := Expr.limit_of_depthExceeded
  affordable text bound hlength hdeep := Expr.affords_parse hlength _ hdeep ⟨bound, rfl⟩
  calculated options formula env hlimit hcode := calculate_persists (hlimit ▸ h) hcode

/-- `=!true` needs two levels, and does the same with 128 of them. -/
theorem calculate_negation_within_two :
    2 ≤ 128 ∧ (calculate { maxDepth := 1 } "=!true" .empty).record.code = 5 ∧
      (calculate { maxDepth := 2 } "=!true" .empty).record.code ≠ 5 ∧
      calculate { maxDepth := 128 } "=!true" .empty =
        calculate { maxDepth := 2 } "=!true" .empty := by
  have hcode : (calculate { maxDepth := 2 } "=!true" .empty).record.code ≠ 5 := by decide +kernel
  have honly : OnlyCutsOff 2 128 := limit_only_cuts_off (by decide)
  exact ⟨by decide, by decide +kernel, hcode, honly.calculated { maxDepth := 2 } _ _ rfl hcode⟩

end ProductFormula
