/-
  Calls of functions.

  A built-in function is found under its name, so a call of it with as many
  arguments as it takes applies it to their values (`Expr.evaluate_call_builtin`).
  The arguments have values one by one, and the same values in any order
  (`Expr.exists_evaluateAll_of_perm`).

  * `Expr.findsFirst_extremes`: `MIN` and `MAX` answer with the least and the
    greatest of the numbers that their arguments stand for, in whatever order
    these are written, and with NaN if one of them is.
-/
import Mathlib.Data.List.Perm.Basic
import ProductFormula.Expr.Evaluation
import ProductFormula.Proofs.Function.Extremes
import ProductFormula.Proofs.Function.Registrations
import ProductFormula.Proofs.Outcome

namespace ProductFormula.Expr

variable {ctx : Context} {args args' : List Expr} {values : List Value} {name : String}
  {g : Number → Number} {before : Number → Number → Prop}
  {pick : Number → Number → Number} {seed : Number}

/-! ## Built-in functions -/

/-- The call of a built-in function with as many arguments as it takes. -/
theorem evaluate_call_builtin {f : Function} (hf : f ∈ Function.builtins)
    (hcount : f.refusal? args.length = none) :
    (call f.name args).evaluate ctx = do
      let values ← evaluateAll ctx args
      return f.apply values := by
  have hcallee : callee f.name args.length = .ok f := by
    simp only [callee, Registry.get?_builtin hf, hcount]
  rw [evaluate, hcallee]
  rfl

theorem evaluate_call_unary (h : Function.ofUnary name g ∈ Function.builtins) (x : Expr) :
    (call name [x]).evaluate ctx = do
      let v ← x.evaluate ctx
      return .number (g v.toNumber) := by
  have hcount : (Function.ofUnary name g).refusal? [x].length = none := rfl
  refine (evaluate_call_builtin h hcount).trans ?_
  rw [evaluateAll]
  cases x.evaluate ctx with
  | error err => rfl
  | ok v => rfl

/-! ## Arguments -/

theorem evaluateAll_eq_ok_iff : evaluateAll ctx args = .ok values ↔
    List.Forall₂ (fun e v => e.evaluate ctx = .ok v) args values := by
  induction args generalizing values with
  | nil =>
    rw [evaluateAll, List.forall₂_nil_left_iff, Except.ok.injEq]
    exact eq_comm
  | cons e es ih =>
    rw [evaluateAll, bind_eq_ok]
    constructor
    · rintro ⟨v, hv, hrest⟩
      obtain ⟨vs, hvs, heq⟩ := bind_eq_ok.1 hrest
      obtain rfl := Except.ok.inj heq
      exact .cons hv (ih.1 hvs)
    · intro h
      obtain ⟨v, vs, hv, hvs, rfl⟩ := List.forall₂_cons_left_iff.1 h
      exact ⟨v, hv, bind_eq_ok.2 ⟨vs, ih.2 hvs, rfl⟩⟩

/-- Arguments in another order have the same values in another order. -/
theorem exists_evaluateAll_of_perm (hperm : args.Perm args')
    (hvalues : evaluateAll ctx args = .ok values) :
    ∃ values', evaluateAll ctx args' = .ok values' ∧ values.Perm values' := by
  obtain ⟨values', hvalues', hperm'⟩ :=
    List.perm_comp_forall₂ hperm.symm (evaluateAll_eq_ok_iff.1 hvalues)
  exact ⟨values', evaluateAll_eq_ok_iff.2 hvalues', hperm'.symm⟩

/-! ## Extremes -/

/-- The call answers with the first of the numbers that the values of its
    arguments stand for, in an order, and with NaN if one of them is.  The order
    of the arguments does not count, but for the sign of a zero. -/
structure FindsFirst (ctx : Context) (before : Number → Number → Prop) (name : String)
    (args : List Expr) (values : List Value) : Prop where
  nan : (∃ v ∈ values, v.toNumber = .nan) → (call name args).evaluate ctx = .ok (.number .nan)
  first : (∀ v ∈ values, v.toNumber ≠ .nan) →
    ∃ n, (call name args).evaluate ctx = .ok (.number n) ∧
      Function.First before (values.map Value.toNumber) n
  perm : ∀ args', args.Perm args' → ∃ n n', (call name args).evaluate ctx = .ok (.number n) ∧
    (call name args').evaluate ctx = .ok (.number n') ∧ (n.equals n' ∨ n = .nan ∧ n' = .nan)

/-- A function that keeps the first of its arguments finds it in every call. -/
theorem findsFirst_of_selects (hselects : Function.Selects before pick seed)
    (hf : ⟨name, 1, none, fun values =>
      .number (Function.extreme seed pick (values.map Value.toNumber))⟩ ∈ Function.builtins)
    (hne : args ≠ []) (hvalues : evaluateAll ctx args = .ok values) :
    FindsFirst ctx before name args values := by
  have hanswer {args : List Expr} {values : List Value} (hne : args ≠ [])
      (hvalues : evaluateAll ctx args = .ok values) : (call name args).evaluate ctx =
        .ok (.number (Function.extreme seed pick (values.map Value.toNumber))) := by
    have hcount : ¬ args.length < 1 := by simpa using hne
    refine (evaluate_call_builtin hf (if_neg hcount)).trans ?_
    rw [hvalues]
    rfl
  constructor
  case nan =>
    intro hnan
    rw [hanswer hne hvalues, Function.extreme_nan (List.mem_map.2 hnan)]
  case first =>
    intro hnan
    have hsome : values.map Value.toNumber ≠ [] := by
      have hlength := (evaluateAll_eq_ok_iff.1 hvalues).length_eq
      rwa [ne_eq, List.map_eq_nil_iff, ← List.length_eq_zero_iff, ← hlength,
        List.length_eq_zero_iff]
    have hnan' : Number.nan ∉ values.map Value.toNumber := by
      intro hmem
      obtain ⟨v, hv, heq⟩ := List.mem_map.1 hmem
      exact hnan v hv heq
    exact ⟨_, hanswer hne hvalues, hselects.first_extreme hsome hnan'⟩
  case perm =>
    intro args' hperm
    obtain ⟨values', hvalues', hperm'⟩ := exists_evaluateAll_of_perm hperm hvalues
    have hne' : args' ≠ [] := fun heq => hne (heq ▸ hperm).eq_nil
    refine ⟨_, _, hanswer hne hvalues, hanswer hne' hvalues', ?_⟩
    exact Number.equals_or_nan_of_position?
      (hselects.position?_extreme_of_perm (hperm'.map Value.toNumber))

/-- **`MIN` and `MAX` answer with an extreme of their arguments**, in whatever
    order these are written. -/
theorem findsFirst_extremes (hne : args ≠ []) (hvalues : evaluateAll ctx args = .ok values) :
    FindsFirst ctx (fun a b => a.le b) "MIN" args values ∧
      FindsFirst ctx (fun a b => b.le a) "MAX" args values := by
  constructor
  · refine findsFirst_of_selects Function.selects_min ?_ hne hvalues
    exact List.mem_of_getElem? (i := 9) rfl
  · refine findsFirst_of_selects Function.selects_max ?_ hne hvalues
    exact List.mem_of_getElem? (i := 10) rfl

/-- A text, a boolean and both zeros. -/
theorem findsFirst_mixed :
    [string " -1e1 ", boolean true, number (.zero false), number (.zero true)] ≠ [] ∧
      evaluateAll ⟨.empty, true⟩
          [string " -1e1 ", boolean true, number (.zero false), number (.zero true)] =
        .ok [.text " -1e1 ", .boolean true, .number (.zero false), .number (.zero true)] ∧
      FindsFirst ⟨.empty, true⟩ (fun a b => a.le b) "MIN"
          [string " -1e1 ", boolean true, number (.zero false), number (.zero true)]
          [.text " -1e1 ", .boolean true, .number (.zero false), .number (.zero true)] ∧
        FindsFirst ⟨.empty, true⟩ (fun a b => b.le a) "MAX"
          [string " -1e1 ", boolean true, number (.zero false), number (.zero true)]
          [.text " -1e1 ", .boolean true, .number (.zero false), .number (.zero true)] :=
  ⟨List.cons_ne_nil _ _, rfl, findsFirst_extremes (List.cons_ne_nil _ _) rfl⟩

end ProductFormula.Expr
