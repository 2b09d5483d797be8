/-
  Why an expression has no value.

  An evaluation fails for a cause in the tree (`Expr.Cause`): a required name
  that is not bound, a function that does not exist, or a call with too few or
  too many arguments.  It never fails for the values on the way: operators,
  glyphs and functions have a value for every list of operands.

  * `Expr.failsWith_evaluate`: every error has its cause among the nodes;
  * `Expr.evaluate_fails_for_cause`: hence a tree without a cause has a value,
    although some nodes may never be reached.
-/
import ProductFormula.Proofs.Expr.Leaves
import ProductFormula.Proofs.Outcome

namespace ProductFormula.Expr

variable {ctx : Context} {nodes : List Expr} {e : Expr}

/-! ## Causes -/

/-- One of these nodes gives rise to the error. -/
inductive Cause (ctx : Context) (nodes : List Expr) : Error → Prop
  | unbound {name} : .reference name false ∈ nodes →
      ctx.env.get? (ctx.lookupName name) = none → Cause ctx nodes (.missingVariable name)
  | unknown {name args} : .call name args ∈ nodes → Registry.standard.get? name = none →
      Cause ctx nodes (.unknownFunction name)
  | tooFew {name args f} : .call name args ∈ nodes → Registry.standard.get? name = some f →
      args.length < f.minArgs →
      Cause ctx nodes (.argumentCount f.name ("at least " ++ toString f.minArgs) args.length)
  | tooMany {name args f most} : .call name args ∈ nodes →
      Registry.standard.get? name = some f → f.maxArgs = some most → most < args.length →
      Cause ctx nodes (.argumentCount f.name ("at most " ++ toString most) args.length)

/-- Required names are bound, and functions called as they are defined. -/
structure Evaluable (ctx : Context) (e : Expr) : Prop where
  bound : ∀ name, .reference name false ∈ e.nodes →
    ∃ v, ctx.env.get? (ctx.lookupName name) = some v
  callable : ∀ name args, .call name args ∈ e.nodes → ∃ f, Registry.standard.get? name = some f ∧
    f.minArgs ≤ args.length ∧ ∀ most, f.maxArgs = some most → args.length ≤ most

/-- No node of an evaluable tree is a cause. -/
theorem Evaluable.not_cause (h : Evaluable ctx e) (err : Error) : ¬ Cause ctx e.nodes err := by
  intro hcause
  cases hcause with
  | @unbound name hmem hnone =>
    obtain ⟨v, hv⟩ := h.bound name hmem
    rw [hv] at hnone
    cases hnone
  | unknown hmem hnone =>
    obtain ⟨f, hf, -⟩ := h.callable _ _ hmem
    rw [hf] at hnone
    cases hnone
  | tooFew hmem hf hlt =>
    obtain ⟨f, hf', hmin, -⟩ := h.callable _ _ hmem
    cases hf.symm.trans hf'
    exact Nat.not_lt.2 hmin hlt
  | tooMany hmem hf hmost hlt =>
    obtain ⟨f, hf', -, hmax⟩ := h.callable _ _ hmem
    cases hf.symm.trans hf'
    exact Nat.not_lt.2 (hmax _ hmost) hlt

/-! ## Errors of single nodes -/

theorem failsWith_resolve {name : String} {optional : Bool}
    (hmem : .reference name optional ∈ nodes) :
    FailsWith (Cause ctx nodes) (ctx.resolve name optional) := by
  unfold Context.resolve
  split
  · exact failsWith_ok _
  next hrequired =>
    obtain rfl : optional = false := by simpa using hrequired
    split
    · exact failsWith_ok _
    next hnone => exact failsWith_error (.unbound hmem hnone)

theorem failsWith_callee {name : String} {args : List Expr} (hmem : .call name args ∈ nodes) :
    FailsWith (Cause ctx nodes) (callee name args.length) := by
  unfold callee
  split
  next hnone => exact failsWith_error (.unknown hmem hnone)
  next f hf =>
    split
    next expected hrefusal =>
      refine failsWith_error ?_
      unfold Function.refusal? at hrefusal
      split at hrefusal
      next hlt =>
        cases hrefusal
        exact .tooFew hmem hf hlt
      · split at hrefusal
        next most hmost =>
          split at hrefusal
          next hlt =>
            cases hrefusal
            exact .tooMany hmem hf hmost hlt
          · cases hrefusal
        · cases hrefusal
    · exact failsWith_ok _

/-! ## Errors of trees -/

mutual

/-- **An evaluation fails for a cause among the nodes.** -/
theorem failsWith_evaluate : ∀ e : Expr, e.nodes ⊆ nodes →
    FailsWith (Cause ctx nodes) (e.evaluate ctx)
  | .number _, _ | .string _, _ | .boolean _, _ => failsWith_ok _
  | .reference _ _, h => failsWith_resolve (h List.mem_cons_self)
  | .between operand min max, h => by
    obtain ⟨-, hoperands⟩ := List.cons_subset.1 h
    obtain ⟨hoperand, hbounds⟩ := List.append_subset.1 hoperands
    obtain ⟨hmin, hmax⟩ := List.append_subset.1 hbounds
    refine (failsWith_evaluate operand hoperand).bind fun _ => ?_
    refine (failsWith_evaluate min hmin).bind fun _ => ?_
    exact (failsWith_evaluate max hmax).bind fun _ => failsWith_ok _
  | .glyph _ operand, h =>
    (failsWith_evaluate operand (List.cons_subset.1 h).2).bind fun _ => failsWith_ok _
  | .exponent base _, h =>
    (failsWith_evaluate base (List.cons_subset.1 h).2).bind fun _ => failsWith_ok _
  | .binary op left right, h => by
    obtain ⟨-, hoperands⟩ := List.cons_subset.1 h
    obtain ⟨hleft, hright⟩ := List.append_subset.1 hoperands
    refine (failsWith_evaluate left hleft).bind fun l => ?_
    split
    · exact failsWith_ok _
    · exact (failsWith_evaluate right hright).bind fun _ => failsWith_ok _
  | .unary _ operand, h =>
    (failsWith_evaluate operand (List.cons_subset.1 h).2).bind fun _ => failsWith_ok _
  | .conditional condition chosen other, h => by
    obtain ⟨-, hparts⟩ := List.cons_subset.1 h
    obtain ⟨hcondition, hbranches⟩ := List.append_subset.1 hparts
    obtain ⟨hchosen, hother⟩ := List.append_subset.1 hbranches
    refine (failsWith_evaluate condition hcondition).bind fun v => ?_
    split
    · exact failsWith_evaluate chosen hchosen
    · exact failsWith_evaluate other hother
  | .call _ args, h => by
    obtain ⟨hcall, hargs⟩ := List.cons_subset.1 h
    refine (failsWith_callee hcall).bind fun f => ?_
    exact (failsWith_evaluateAll args hargs).bind fun _ => failsWith_ok _

theorem failsWith_evaluateAll : ∀ es : List Expr, allNodes es ⊆ nodes →
    FailsWith (Cause ctx nodes) (evaluateAll ctx es)
  | [], _ => failsWith_ok _
  | e :: es, h => by
    obtain ⟨he, hes⟩ := List.append_subset.1 h
    refine (failsWith_evaluate e he).bind fun _ => ?_
    exact (failsWith_evaluateAll es hes).bind fun _ => failsWith_ok _

end

/-- **Evaluation fails only for a cause in the tree**, and has a value where
    there is none. -/
theorem evaluate_fails_for_cause (ctx : Context) (e : Expr) :
    (∀ err, e.evaluate ctx = .error err → Cause ctx e.nodes err) ∧
      (Evaluable ctx e → ∃ v, e.evaluate ctx = .ok v) := by
  have hcause : FailsWith (Cause ctx e.nodes) (e.evaluate ctx) :=
    failsWith_evaluate e (List.Subset.refl _)
  refine ⟨hcause, fun hevaluable => ?_⟩
  cases houtcome : e.evaluate ctx with
  | ok v => exact ⟨v, rfl⟩
  | error err => exact absurd (hcause err houtcome) (hevaluable.not_cause err)

/-- A call in small letters, of a name with a dot and one that is not bound. -/
theorem evaluate_call_of_references :
    Evaluable ⟨.ofList [("AB", .text "x")], true⟩
        (.call "max" [.reference "A.B" false, .reference "C" true]) ∧
      ∃ v, (call "max" [.reference "A.B" false, .reference "C" true]).evaluate
        ⟨.ofList [("AB", .text "x")], true⟩ = .ok v := by
  have hevaluable : Evaluable ⟨.ofList [("AB", .text "x")], true⟩
      (.call "max" [.reference "A.B" false, .reference "C" true]) := by
    constructor
    · intro name hname
      obtain rfl : name = "A.B" := by simpa [Expr.nodes, allNodes] using hname
      exact ⟨.text "x", by decide +kernel⟩
    · intro name args hcall
      obtain ⟨rfl, rfl⟩ : name = "max" ∧ args = [.reference "A.B" false, .reference "C" true] := by
        simpa [Expr.nodes, allNodes] using hcall
      exact ⟨_, rfl, by decide, nofun⟩
  exact ⟨hevaluable, (evaluate_fails_for_cause _ _).2 hevaluable⟩

end ProductFormula.Expr
