/-
  Dots in names.

  Where the options say so, a required reference is looked up without the dots
  of its name (`lookupName_of_strip`); a name without dots is looked up as it
  is written in any case (`lookupName_eq_self`).
-/
import ProductFormula.Expr.Evaluation

namespace ProductFormula

variable {n : String}

/-- The name without its dots. -/
def undotted (n : String) : String := .ofList (n.toList.filter (· != '.'))

theorem undotted_eq_self_iff : undotted n = n ↔ '.' ∉ n.toList := by
  rw [← String.toList_inj, undotted, String.toList_ofList, List.filter_eq_self]
  constructor
  · intro h hdot
    exact absurd (h '.' hdot) (by decide)
  · intro h c hc
    rw [bne_iff_ne]
    rintro rfl
    exact h hc

theorem lookupName_of_strip {ctx : Context} (h : ctx.stripDots = true) (n : String) :
    ctx.lookupName n = undotted n := by
  rw [Context.lookupName, if_pos h, undotted]

theorem lookupName_eq_self {ctx : Context} (h : ctx.stripDots = true → '.' ∉ n.toList) :
    ctx.lookupName n = n := by
  cases hstrip : ctx.stripDots with
  | false => rw [Context.lookupName, hstrip, if_neg Bool.false_ne_true]
  | true => rw [lookupName_of_strip hstrip, undotted_eq_self_iff.2 (h hstrip)]

theorem resolve_eq_ok {ctx : Context} {optional : Bool} {v : Value}
    (h : ctx.env.get? (if optional then n else ctx.lookupName n) = some v) :
    ctx.resolve n optional = .ok v := by
  cases optional with
  | true =>
    rw [if_pos rfl] at h
    simp [Context.resolve, h]
  | false =>
    rw [if_neg Bool.false_ne_true] at h
    simp [Context.resolve, h]

end ProductFormula
