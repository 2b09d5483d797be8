/-
  Values put in the place of references.

  A tree can be evaluated in two ways: its references are looked up when they
  are reached, or the values they resolve to are first written into the tree as
  literals (`Expr.inline`), and the tree is then evaluated with nothing bound.
  Both come to the same value or the same error (`Expr.evaluate_inline`).

  * `Expr.substitute` puts a tree in the place of every reference;
  * `Expr.leaves_substitute` says what leaves there are then, and
    `Expr.evaluate_substitute` that a tree put in counts by its value only.
-/
import ProductFormula.Proofs.Expr.Leaves

namespace ProductFormula

/-! ## Literals -/

/-- The tree that stands for a value. -/
def Value.literal : Value → Expr
  | number n => .number n
  | boolean b => .boolean b
  | text s => .string s

theorem Value.evaluate_literal (ctx : Context) (v : Value) : v.literal.evaluate ctx = .ok v := by
  cases v <;> rfl

theorem Value.reference_not_mem_leaves_literal (v : Value) (name : String) (optional : Bool) :
    .reference name optional ∉ v.literal.leaves := by
  cases v <;> simp [literal, Expr.leaves]

namespace Expr

/-! ## Substitution -/

section

variable (put : String → Bool → Expr)

mutual

/-- The tree with others in the place of its references. -/
def substitute : Expr → Expr
  | number n => .number n
  | string s => .string s
  | boolean b => .boolean b
  | reference name optional => put name optional
  | between operand min max => .between operand.substitute min.substitute max.substitute
  | glyph g operand => .glyph g operand.substitute
  | exponent base power => .exponent base.substitute power
  | binary op left right => .binary op left.substitute right.substitute
  | unary op operand => .unary op operand.substitute
  | conditional condition chosen other =>
    .conditional condition.substitute chosen.substitute other.substitute
  | call name args => .call name (substituteAll args)

/-- Every tree of a list with others in the place of its references. -/
def substituteAll : List Expr → List Expr
  | [] => []
  | e :: es => e.substitute :: substituteAll es

end

end

variable {put : String → Bool → Expr} {ctx ctx' : Context}

theorem length_substituteAll (es : List Expr) : (substituteAll put es).length = es.length := by
  induction es with
  | nil => rfl
  | cons e es ih => rw [substituteAll, List.length_cons, List.length_cons, ih]

/-- What stands in the place of a leaf. -/
def leavesFor (put : String → Bool → Expr) : Expr → List Expr
  | reference name optional => (put name optional).leaves
  | leaf => [leaf]

mutual

/-- Only the references among the leaves are replaced, each by the leaves of the
    tree put in. -/
theorem leaves_substitute : ∀ e : Expr,
    (e.substitute put).leaves = e.leaves.flatMap (leavesFor put)
  | .number _ | .string _ | .boolean _ | .reference _ _ => (List.flatMap_singleton _ _).symm
  | .between operand min max => by
    rw [substitute, leaves, leaves, leaves_substitute operand, leaves_substitute min,
      leaves_substitute max, List.flatMap_append, List.flatMap_append]
  | .glyph _ operand => leaves_substitute operand
  | .exponent base _ => leaves_substitute base
  | .binary _ left right => by
    rw [substitute, leaves, leaves, leaves_substitute left, leaves_substitute right,
      List.flatMap_append]
  | .unary _ operand => leaves_substitute operand
  | .conditional condition chosen other => by
    rw [substitute, leaves, leaves, leaves_substitute condition, leaves_substitute chosen,
      leaves_substitute other, List.flatMap_append, List.flatMap_append]
  | .call _ args => allLeaves_substituteAll args

theorem allLeaves_substituteAll : ∀ es : List Expr,
    allLeaves (substituteAll put es) = (allLeaves es).flatMap (leavesFor put)
  | [] => rfl
  | e :: es => by
    rw [substituteAll, allLeaves, allLeaves, leaves_substitute e, allLeaves_substituteAll es,
      List.flatMap_append]

end

/-- Each tree put in has the value of the reference it stands for. -/
def Represents (put : String → Bool → Expr) (ctx ctx' : Context) : Prop :=
  ∀ name optional, (put name optional).evaluate ctx' = ctx.resolve name optional

mutual

/-- **A tree has the same value with others in the place of its references**, if
    these have the values of the references. -/
theorem evaluate_substitute (h : Represents put ctx ctx') : ∀ e : Expr,
    (e.substitute put).evaluate ctx' = e.evaluate ctx
  | .number _ | .string _ | .boolean _ => rfl
  | .reference name optional => h name optional
  | .between operand min max => by
    rw [substitute, evaluate, evaluate, evaluate_substitute h operand, evaluate_substitute h min,
      evaluate_substitute h max]
  | .glyph _ operand => by rw [substitute, evaluate, evaluate, evaluate_substitute h operand]
  | .exponent base _ => by rw [substitute, evaluate, evaluate, evaluate_substitute h base]
  | .binary op left right => by
    rw [substitute, evaluate, evaluate, evaluate_substitute h left, evaluate_substitute h right]
  | .unary _ operand => by rw [substitute, evaluate, evaluate, evaluate_substitute h operand]
  | .conditional condition chosen other => by
    rw [substitute, evaluate, evaluate, evaluate_substitute h condition,
      evaluate_substitute h chosen, evaluate_substitute h other]
  | .call name args => by
    -- the callee is asked for the count of the arguments before any has a value
    rw [substitute, evaluate, evaluate, length_substituteAll, evaluateAll_substituteAll h args]

theorem evaluateAll_substituteAll (h : Represents put ctx ctx') : ∀ es : List Expr,
    evaluateAll ctx' (substituteAll put es) = evaluateAll ctx es
  | [] => rfl
  | e :: es => by
    rw [substituteAll, evaluateAll, evaluateAll, evaluate_substitute h e,
      evaluateAll_substituteAll h es]

end

end Expr

/-! ## Values in the place of references -/

/-- The literal of the value that a reference resolves to, or the reference if
    it resolves to none. -/
def Context.write (ctx : Context) (name : String) (optional : Bool) : Expr :=
  match ctx.resolve name optional with
  | .ok v => v.literal
  | .error _ => .reference name optional

/-- The tree with values in the place of its references, as far as they resolve. -/
def Expr.inline (ctx : Context) (e : Expr) : Expr := e.substitute ctx.write

namespace Context

variable {ctx : Context} {name : String} {optional : Bool} {error : Error}

/-- Only a required name that is not bound does not resolve. -/
theorem resolve_eq_error (h : ctx.resolve name optional = .error error) :
    optional = false ∧ error = .missingVariable name := by
  unfold resolve at h
  split at h
  · cases h
  next hrequired =>
    split at h
    · cases h
    · cases h
      exact ⟨by simpa using hrequired, rfl⟩

/-- What is written for a reference has its value, or its error, without any
    binding. -/
theorem represents_write (ctx : Context) :
    Expr.Represents ctx.write ctx ⟨.empty, ctx.stripDots⟩ := by
  intro name optional
  unfold write
  split
  next v hv => rw [hv, Value.evaluate_literal]
  next error herror =>
    obtain ⟨rfl, rfl⟩ := resolve_eq_error herror
    exact herror.symm

/-- A reference is left in the place of itself alone, if it does not resolve. -/
theorem mem_leavesFor_write {leaf : Expr} :
    .reference name optional ∈ Expr.leavesFor ctx.write leaf ↔
      leaf = .reference name optional ∧
        ctx.resolve name optional = .error (.missingVariable name) := by
  cases leaf with
  | reference name' optional' =>
    simp only [Expr.leavesFor, write]
    split
    next v hv =>
      simp only [v.reference_not_mem_leaves_literal, Expr.reference.injEq, false_iff, not_and,
        and_imp]
      rintro rfl rfl
      simp [hv]
    next error herror =>
      obtain ⟨rfl, rfl⟩ := resolve_eq_error herror
      simp only [Expr.leaves, List.mem_singleton, Expr.reference.injEq]
      constructor
      · rintro ⟨rfl, rfl⟩
        exact ⟨⟨rfl, rfl⟩, herror⟩
      · rintro ⟨⟨rfl, rfl⟩, -⟩
        exact ⟨rfl, rfl⟩
  | _ => simp [Expr.leavesFor]

end Context

/-- **Looking references up and writing their values into the tree come to the
    same**, where the references left in the tree are those that do not
    resolve. -/
theorem Expr.evaluate_inline (ctx : Context) (e : Expr) :
    (e.inline ctx).evaluate ⟨.empty, ctx.stripDots⟩ = e.evaluate ctx ∧
      ∀ name optional, .reference name optional ∈ (e.inline ctx).leaves ↔
        .reference name optional ∈ e.leaves ∧
          ctx.resolve name optional = .error (.missingVariable name) := by
  refine ⟨evaluate_substitute ctx.represents_write e, fun name optional => ?_⟩
  simp only [inline, leaves_substitute, List.mem_flatMap, Context.mem_leavesFor_write]
  constructor
  · rintro ⟨leaf, hleaf, rfl, hresolve⟩
    exact ⟨hleaf, hresolve⟩
  · rintro ⟨hleaf, hresolve⟩
    exact ⟨_, hleaf, rfl, hresolve⟩

end ProductFormula
