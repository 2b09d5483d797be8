/-
  Leaves and nodes of a tree.

  The strings and references among the leaves of a parsed tree (`Expr.leaves`)
  are those among its tokens, in the same order (`Derives.filter_leaves`): the
  parser neither drops one nor makes one up.

  * `Expr.nodes`: all trees in a tree, the calls among them;
  * `Expr.evaluate_congr`: a tree has the same value in two contexts that
    resolve its references alike, whatever else is bound in them.
-/
import ProductFormula.Expr.Evaluation
import ProductFormula.Proofs.Grammar.Derivation

namespace ProductFormula

/-! ## Leaves -/

namespace Expr

mutual

/-- The nodes without operands, from left to right. -/
def leaves : Expr → List Expr
  | number n => [.number n]
  | string s => [.string s]
  | boolean b => [.boolean b]
  | reference name optional => [.reference name optional]
  | between operand min max => operand.leaves ++ (min.leaves ++ max.leaves)
  | glyph _ operand => operand.leaves
  | exponent base _ => base.leaves
  | binary _ left right => left.leaves ++ right.leaves
  | unary _ operand => operand.leaves
  | conditional condition chosen other => condition.leaves ++ (chosen.leaves ++ other.leaves)
  | call _ args => allLeaves args

/-- The leaves of a list of trees. -/
def allLeaves : List Expr → List Expr
  | [] => []
  | e :: es => e.leaves ++ allLeaves es

end

theorem allLeaves_eq_flatMap (es : List Expr) : allLeaves es = es.flatMap leaves := by
  induction es with
  | nil => rfl
  | cons e es ih => rw [allLeaves, ih, List.flatMap_cons]

mutual

/-- A tree and all trees in it, each before its operands. -/
def nodes : Expr → List Expr
  | number n => [.number n]
  | string s => [.string s]
  | boolean b => [.boolean b]
  | reference name optional => [.reference name optional]
  | between operand min max =>
    .between operand min max :: (operand.nodes ++ (min.nodes ++ max.nodes))
  | glyph g operand => .glyph g operand :: operand.nodes
  | exponent base power => .exponent base power :: base.nodes
  | binary op left right => .binary op left right :: (left.nodes ++ right.nodes)
  | unary op operand => .unary op operand :: operand.nodes
  | conditional condition chosen other =>
    .conditional condition chosen other :: (condition.nodes ++ (chosen.nodes ++ other.nodes))
  | call name args => .call name args :: allNodes args

/-- The nodes of a list of trees. -/
def allNodes : List Expr → List Expr
  | [] => []
  | e :: es => e.nodes ++ allNodes es

end

variable {referred : String} {optional : Bool}

mutual

/-- The references of a tree are leaves of it. -/
theorem mem_leaves_of_mem_nodes : ∀ e : Expr, .reference referred optional ∈ e.nodes →
    .reference referred optional ∈ e.leaves
  | .number _, h | .string _, h | .boolean _, h | .reference _ _, h => h
  | .between operand min max, h => by
    simp only [nodes, leaves, List.mem_cons, List.mem_append, reduceCtorEq, false_or] at h ⊢
    exact h.imp (mem_leaves_of_mem_nodes operand)
      (Or.imp (mem_leaves_of_mem_nodes min) (mem_leaves_of_mem_nodes max))
  | .glyph _ operand, h => mem_leaves_of_mem_nodes operand (by simpa [nodes] using h)
  | .exponent base _, h => mem_leaves_of_mem_nodes base (by simpa [nodes] using h)
  | .binary _ left right, h => by
    simp only [nodes, leaves, List.mem_cons, List.mem_append, reduceCtorEq, false_or] at h ⊢
    exact h.imp (mem_leaves_of_mem_nodes left) (mem_leaves_of_mem_nodes right)
  | .unary _ operand, h => mem_leaves_of_mem_nodes operand (by simpa [nodes] using h)
  | .conditional condition chosen other, h => by
    simp only [nodes, leaves, List.mem_cons, List.mem_append, reduceCtorEq, false_or] at h ⊢
    exact h.imp (mem_leaves_of_mem_nodes condition)
      (Or.imp (mem_leaves_of_mem_nodes chosen) (mem_leaves_of_mem_nodes other))
  | .call _ args, h => mem_allLeaves_of_mem_allNodes args (by simpa [nodes] using h)

theorem mem_allLeaves_of_mem_allNodes : ∀ es : List Expr,
    .reference referred optional ∈ allNodes es → .reference referred optional ∈ allLeaves es
  | [], h => h
  | e :: es, h => by
    simp only [allNodes, allLeaves, List.mem_append] at h ⊢
    exact h.imp (mem_leaves_of_mem_nodes e) (mem_allLeaves_of_mem_allNodes es)

end

/-- A string or a reference. -/
def holdsText : Expr → Bool
  | string _ | reference _ _ => true
  | _ => false

end Expr

/-- The leaf that a string or a reference is. -/
def Token.leaf? : Token → Option Expr
  | .string s => some (.string s)
  | .reference referred optional => some (.reference referred optional)
  | _ => none

theorem Token.leaf?_injective {t t' : Token} {leaf : Expr} (h : t.leaf? = some leaf)
    (h' : t'.leaf? = some leaf) : t = t' := by
  unfold leaf? at h
  split at h
  · cases h
    cases t' <;> cases h'
    rfl
  · cases h
    cases t' <;> cases h'
    rfl
  · cases h

theorem Token.holdsText_leaf {t : Token} {leaf : Expr} (h : t.leaf? = some leaf) :
    leaf.holdsText = true := by
  unfold leaf? at h
  split at h <;> cases h <;> rfl

namespace Grammar

/-- **The strings and references of a tree are those of its tokens.** -/
theorem Derives.filter_leaves {c : Category} {ts : List Token} {e : Expr} (h : Derives c ts e) :
    e.leaves.filter Expr.holdsText = ts.filterMap Token.leaf? := by
  induction h with
  | plain _ ih | operand _ ih | unsigned _ ih | base _ ih => exact ih
  | number | string | trueWord | falseWord | constant | reference => rfl
  | conditional _ _ _ ih₁ ih₂ ih₃ | selection _ _ _ ih₁ ih₂ ih₃ =>
    simp [Expr.leaves, Token.leaf?, List.filterMap_cons, ih₁, ih₂, ih₃]
  | operation _ _ ih₁ ih₂ => simp [Expr.leaves, Token.leaf?, List.filterMap_cons, ih₁, ih₂]
  | range _ _ ih₁ ih₂ =>
    simp [Expr.leaves, Expr.holdsText, Token.leaf?, List.filter_cons, List.filterMap_cons, ih₁, ih₂]
  | sign _ ih | power _ ih | rounding _ ih | glyph _ ih | group _ ih | grouping _ ih =>
    simp [Expr.leaves, Token.leaf?, List.filterMap_cons, ih]
  | @call name args _ _ ih =>
    have hargs : args.flatMap (fun arg => arg.2.leaves.filter Expr.holdsText) =
        args.flatMap fun arg => arg.1.filterMap Token.leaf? := by
      rw [List.flatMap_def, List.flatMap_def, List.map_congr_left ih]
    have hcomma : Token.leaf? (.symbol .comma) = none := rfl
    simp [Expr.leaves, Expr.allLeaves_eq_flatMap, List.filter_flatMap, List.flatMap_map, hargs,
      Token.leaf?, List.filterMap_cons, filterMap_intercalate hcomma]

/-- A string or a reference is a leaf of the tree iff it is one of the tokens. -/
theorem Derives.mem_leaves_iff {c : Category} {ts : List Token} {e : Expr} (h : Derives c ts e)
    {t : Token} {leaf : Expr} (ht : t.leaf? = some leaf) : leaf ∈ e.leaves ↔ t ∈ ts := by
  have hfilter : leaf ∈ e.leaves ↔ leaf ∈ e.leaves.filter Expr.holdsText := by
    rw [List.mem_filter, and_iff_left (Token.holdsText_leaf ht)]
  rw [hfilter, h.filter_leaves, List.mem_filterMap]
  constructor
  · rintro ⟨t', hmem, ht'⟩
    exact Token.leaf?_injective ht ht' ▸ hmem
  · exact fun hmem => ⟨t, hmem, ht⟩

end Grammar

/-! ## Evaluation -/

namespace Expr

variable {ctx ctx' : Context}

/-- The contexts resolve these references alike. -/
def ResolvesAlike (ctx ctx' : Context) (leaves : List Expr) : Prop :=
  ∀ name optional, .reference name optional ∈ leaves →
    ctx.resolve name optional = ctx'.resolve name optional

theorem resolvesAlike_append_iff {front rest : List Expr} :
    ResolvesAlike ctx ctx' (front ++ rest) ↔
      ResolvesAlike ctx ctx' front ∧ ResolvesAlike ctx ctx' rest := by
  simp only [ResolvesAlike, List.mem_append, or_imp, forall_and]

mutual

/-- **The value of a tree depends on its references only.** -/
theorem evaluate_congr : ∀ e : Expr, ResolvesAlike ctx ctx' e.leaves →
    e.evaluate ctx = e.evaluate ctx'
  | .number _, _ | .string _, _ | .boolean _, _ => rfl
  | .reference name optional, h => h name optional List.mem_cons_self
  | .between operand min max, h => by
    obtain ⟨hoperand, hbounds⟩ := resolvesAlike_append_iff.1 h
    obtain ⟨hmin, hmax⟩ := resolvesAlike_append_iff.1 hbounds
    rw [evaluate, evaluate, evaluate_congr operand hoperand, evaluate_congr min hmin,
      evaluate_congr max hmax]
  | .glyph _ operand, h => by rw [evaluate, evaluate, evaluate_congr operand h]
  | .exponent base _, h => by rw [evaluate, evaluate, evaluate_congr base h]
  | .binary op left right, h => by
    obtain ⟨hleft, hright⟩ := resolvesAlike_append_iff.1 h
    rw [evaluate, evaluate, evaluate_congr left hleft, evaluate_congr right hright]
  | .unary _ operand, h => by rw [evaluate, evaluate, evaluate_congr operand h]
  | .conditional condition chosen other, h => by
    obtain ⟨hcondition, hbranches⟩ := resolvesAlike_append_iff.1 h
    obtain ⟨hchosen, hother⟩ := resolvesAlike_append_iff.1 hbranches
    rw [evaluate, evaluate, evaluate_congr condition hcondition, evaluate_congr chosen hchosen,
      evaluate_congr other hother]
  | .call _ args, h => by rw [evaluate, evaluate, evaluateAll_congr args h]

theorem evaluateAll_congr : ∀ es : List Expr, ResolvesAlike ctx ctx' (allLeaves es) →
    evaluateAll ctx es = evaluateAll ctx' es
  | [], _ => rfl
  | e :: es, h => by
    obtain ⟨he, hes⟩ := resolvesAlike_append_iff.1 h
    rw [evaluateAll, evaluateAll, evaluate_congr e he, evaluateAll_congr es hes]

end

end Expr

end ProductFormula
