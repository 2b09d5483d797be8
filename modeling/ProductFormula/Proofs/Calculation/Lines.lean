/-
  Errors without a line.

  What the parser, the evaluator and the check of references report knows no
  statement (`Error.Bare`), so the number that a run attaches to it is the one
  it carries afterwards (`Calculation.bare_effect`).
-/
import ProductFormula.Proofs.Calculation.Steps
import ProductFormula.Proofs.Expr.Causes
import ProductFormula.Proofs.Reference.Templates

namespace ProductFormula

/-- The number of the statement that an error is about, if it carries one. -/
def Error.line? : Error → Option Nat
  | unresolvedVariable _ line | malformed line _ | nestingLimit line _ => some line
  | _ => none

/-- An error that takes the number it is given. -/
def Error.Bare (e : Error) : Prop := ∀ line, (e.atLine line).line? = some line

open Error

/-! ## References -/

theorem bare_resolve (ctx : Context) (name : String) (optional : Bool) :
    FailsWith Bare (ctx.resolve name optional) := by
  unfold Context.resolve
  split
  · exact failsWith_ok _
  · split
    · exact failsWith_ok _
    · exact failsWith_error fun _ => rfl

theorem bare_fill (ctx : Context) (segment : Segment) : FailsWith Bare (segment.fill ctx) := by
  cases segment with
  | plain => exact failsWith_ok _
  | braced inner => exact (bare_resolve ctx _ _).bind fun _ => failsWith_ok _

/-! ## Expressions -/

namespace Expr

theorem bare_parse (limit : Nat) (text : String) : FailsWith Bare (parse limit text) := by
  unfold parse
  split
  · exact failsWith_ok _
  · exact failsWith_error fun _ => rfl
  next failure _ => cases failure <;> exact failsWith_error fun _ => rfl

/-- An evaluation fails for a cause in the tree, whatever the statement. -/
theorem bare_evaluate (ctx : Context) (e : Expr) : FailsWith Bare (e.evaluate ctx) := by
  intro error herror line
  cases failsWith_evaluate e (List.Subset.refl _) error herror <;> rfl

end Expr

/-! ## Statements -/

namespace Calculation

theorem bare_checkBound (ctx : Context) (names : List String) :
    FailsWith Bare (checkBound ctx names) := by
  induction names with
  | nil => exact failsWith_ok _
  | cons name names ih => exact (bare_resolve ctx name false).bind fun _ => ih

theorem bare_evaluateText (maxDepth : Nat) (ctx : Context) (expression : List Char) :
    FailsWith Bare (evaluateText maxDepth ctx expression) :=
  (Expr.bare_parse _ _).bind fun e => Expr.bare_evaluate ctx e

theorem bare_perform (maxDepth : Nat) (ctx : Context) (statement : Statement) :
    FailsWith Bare (perform maxDepth ctx statement) := by
  cases statement with
  | returnText text =>
    have hfill : FailsWith Bare (interpolate ctx text) :=
      (Segment.failsWith_fillAll fun s _ => bare_fill ctx s).bind fun _ => failsWith_ok _
    exact hfill.bind fun _ => failsWith_ok _
  | returnValue expression => exact (bare_evaluateText _ _ _).bind fun _ => failsWith_ok _
  | assignment name expression => exact (bare_evaluateText _ _ _).bind fun _ => failsWith_ok _
  | other => exact failsWith_ok _

/-- **What a statement reports carries no line yet.** -/
theorem bare_effect (options : Options) (env : Environment) (s : List Char) :
    FailsWith Bare (effect options env s) :=
  (bare_checkBound _ _).bind fun _ => bare_perform _ _ _

end Calculation

end ProductFormula
