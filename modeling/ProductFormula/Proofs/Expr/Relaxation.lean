/-
  References made optional.

  Any of the required references of a tree can be made optional (`Relaxes`).
  This changes no value that the tree has, as long as each of the names stands
  for the same value with its dots, which an optional reference keeps, as in
  the way in which a required one is looked up (`Context.ReadsAlike`).

  * `Expr.persists_evaluate`: the relaxed tree ends as the tree does, unless the
    tree fails;
  * `Expr.evaluate_relaxed_iff`: for no other names is this so.
-/
import Mathlib.Data.List.Forall2
import ProductFormula.Proofs.Outcome
import ProductFormula.Proofs.Reference.Dots

namespace ProductFormula

namespace Expr

/-! ## Relaxed trees -/

/-- The same tree, where some of the required references to these names are made
    optional. -/
inductive Relaxes (names : String → Prop) : Expr → Expr → Prop
  | optional {name} : names name → Relaxes names (.reference name false) (.reference name true)
  | reference {name optional} :
      Relaxes names (.reference name optional) (.reference name optional)
  | number {n} : Relaxes names (.number n) (.number n)
  | string {s} : Relaxes names (.string s) (.string s)
  | boolean {b} : Relaxes names (.boolean b) (.boolean b)
  | between {operand operand' min min' max max'} : Relaxes names operand operand' →
      Relaxes names min min' → Relaxes names max max' →
      Relaxes names (.between operand min max) (.between operand' min' max')
  | glyph {g operand operand'} : Relaxes names operand operand' →
      Relaxes names (.glyph g operand) (.glyph g operand')
  | exponent {base base' power} : Relaxes names base base' →
      Relaxes names (.exponent base power) (.exponent base' power)
  | binary {op left left' right right'} : Relaxes names left left' → Relaxes names right right' →
      Relaxes names (.binary op left right) (.binary op left' right')
  | unary {op operand operand'} : Relaxes names operand operand' →
      Relaxes names (.unary op operand) (.unary op operand')
  | conditional {condition condition' chosen chosen' other other'} :
      Relaxes names condition condition' → Relaxes names chosen chosen' →
      Relaxes names other other' →
      Relaxes names (.conditional condition chosen other) (.conditional condition' chosen' other')
  | call {name args args'} : List.Forall₂ (Relaxes names) args args' →
      Relaxes names (.call name args) (.call name args')

end Expr

/-! ## Names that read alike -/

/-- An optional reference to the name, which keeps its dots, has the value that
    a required one has without them; zero is the value of a name that is not
    bound. -/
def Context.ReadsAlike (ctx : Context) (n : String) : Prop :=
  ctx.stripDots = true → '.' ∈ n.toList → ∀ v, ctx.env.get? (undotted n) = some v →
    (ctx.env.get? n).getD (.number (.zero false)) = v

/-- A name reads alike iff no value is lost when its reference is made optional. -/
theorem Context.readsAlike_iff {ctx : Context} {n : String} :
    ctx.ReadsAlike n ↔ ∀ v, ctx.resolve n false = .ok v → ctx.resolve n true = .ok v := by
  have hrequired (v : Value) :
      ctx.resolve n false = .ok v ↔ ctx.env.get? (ctx.lookupName n) = some v := by
    rw [resolve, if_neg Bool.false_ne_true]
    cases ctx.env.get? (ctx.lookupName n) <;> simp
  have hoptional (v : Value) :
      ctx.resolve n true = .ok v ↔ (ctx.env.get? n).getD (.number (.zero false)) = v := by
    rw [resolve, if_pos rfl, Except.ok.injEq]
  simp only [hrequired, hoptional, ReadsAlike]
  by_cases hdots : ctx.stripDots = true ∧ '.' ∈ n.toList
  · simp only [hdots, lookupName_of_strip hdots.1, forall_const]
  · -- the name is looked up as it is written, in both ways
    have hlookup : ctx.lookupName n = n := lookupName_eq_self fun hstrip hdot => hdots ⟨hstrip, hdot⟩
    constructor
    · intro _ v hv
      rw [← hlookup, hv, Option.getD_some]
    · intro _ hstrip hdot
      exact absurd ⟨hstrip, hdot⟩ hdots

/-! ## Evaluation -/

namespace Expr

variable {ctx : Context} {names : String → Prop}

mutual

/-- **A relaxed tree ends as the tree does, unless the tree fails.** -/
theorem persists_evaluate (halike : ∀ n, names n → ctx.ReadsAlike n) : ∀ (e : Expr) {e' : Expr},
    Relaxes names e e' → Persists (fun _ => True) (e.evaluate ctx) (e'.evaluate ctx)
  | .number _, _, .number | .string _, _, .string | .boolean _, _, .boolean
  | .reference _ _, _, .reference => .refl _
  | .reference name _, _, .optional hname => by
    intro hok
    cases hv : ctx.resolve name false with
    | ok v =>
      rw [evaluate, evaluate, hv]
      exact Context.readsAlike_iff.1 (halike name hname) v hv
    | error err => exact absurd trivial (hok err hv)
  | .between operand min max, _, .between hoperand hmin hmax => by
    rw [evaluate, evaluate]
    refine (persists_evaluate halike operand hoperand).bind fun _ => ?_
    refine (persists_evaluate halike min hmin).bind fun _ => ?_
    exact (persists_evaluate halike max hmax).bind fun _ => .refl _
  | .glyph _ operand, _, .glyph hoperand => by
    rw [evaluate, evaluate]
    exact (persists_evaluate halike operand hoperand).bind fun _ => .refl _
  | .exponent base _, _, .exponent hbase => by
    rw [evaluate, evaluate]
    exact (persists_evaluate halike base hbase).bind fun _ => .refl _
  | .binary op left right, _, .binary hleft hright => by
    rw [evaluate, evaluate]
    refine (persists_evaluate halike left hleft).bind fun l => ?_
    split
    · exact .refl _
    · exact (persists_evaluate halike right hright).bind fun _ => .refl _
  | .unary _ operand, _, .unary hoperand => by
    rw [evaluate, evaluate]
    exact (persists_evaluate halike operand hoperand).bind fun _ => .refl _
  | .conditional condition chosen other, _, .conditional hcondition hchosen hother => by
    rw [evaluate, evaluate]
    refine (persists_evaluate halike condition hcondition).bind fun v => ?_
    split
    · exact persists_evaluate halike chosen hchosen
    · exact persists_evaluate halike other hother
  | .call name args, _, .call hargs => by
    -- the callee is asked for the count of the arguments, which stays
    rw [evaluate, evaluate, hargs.length_eq]
    refine (Persists.refl _).bind fun f => ?_
    exact (persists_evaluateAll halike args hargs).bind fun _ => .refl _

theorem persists_evaluateAll (halike : ∀ n, names n → ctx.ReadsAlike n) :
    ∀ (es : List Expr) {es' : List Expr}, List.Forall₂ (Relaxes names) es es' →
      Persists (fun _ => True) (evaluateAll ctx es) (evaluateAll ctx es')
  | [], _, .nil => .refl _
  | e :: es, _, .cons he hes => by
    rw [evaluateAll, evaluateAll]
    refine (persists_evaluate halike e he).bind fun _ => ?_
    exact (persists_evaluateAll halike es hes).bind fun _ => .refl _

end

/-- **References can be made optional without a change to any value iff their
    names read alike**: dots are kept, or the name has none, or it stands for
    the same value with them. -/
theorem evaluate_relaxed_iff (ctx : Context) (names : String → Prop) :
    (∀ e e' v, Relaxes names e e' → e.evaluate ctx = .ok v → e'.evaluate ctx = .ok v) ↔
      ∀ n, names n → ctx.ReadsAlike n := by
  constructor
  · intro h n hn
    exact Context.readsAlike_iff.2 fun v hv => h _ _ v (.optional hn) hv
  · intro halike e e' v hrelaxes hv
    have hsame := persists_evaluate halike e hrelaxes
    rw [hv] at hsame
    exact hsame (failsWith_ok v)

/-- With a dot in its name, a reference that has a value is zero when it is made
    optional. -/
theorem optional_dotted_zero :
    Relaxes (fun _ => True) (.reference "A.B" false) (.reference "A.B" true) ∧
      (reference "A.B" false).evaluate ⟨.ofList [("AB", .number (.ofNat 5))], true⟩ =
        .ok (.number (.ofNat 5)) ∧
      (reference "A.B" true).evaluate ⟨.ofList [("AB", .number (.ofNat 5))], true⟩ =
        .ok (.number (.zero false)) ∧
      Value.number (.zero false) ≠ .number (.ofNat 5) :=
  ⟨.optional trivial, by decide +kernel, by decide +kernel, by decide +kernel⟩

end Expr

end ProductFormula
