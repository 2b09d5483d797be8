/-
  Functions by name.

  A function is registered under its name in capitals, and looked up by the
  canonical form of a name (`canonicalName`); the one registered last is found.

  * `Registry.get?_register` says what is found after a registration.
-/
import ProductFormula.Function.Builtin
import ProductFormula.Function.Name

namespace ProductFormula

/-- Functions with their keys, the latest first. -/
structure Registry where
  entries : List (String × Function)

namespace Registry

def empty : Registry := ⟨[]⟩

def register (registry : Registry) (f : Function) : Registry :=
  ⟨(Text.upperCase f.name, f) :: registry.entries⟩

def get? (registry : Registry) (name : String) : Option Function :=
  registry.entries.lookup (canonicalName name)

/-- The functions that every formula may call. -/
def standard : Registry := Function.builtins.foldl register empty

@[simp] theorem get?_empty (name : String) : empty.get? name = none := rfl

theorem get?_register (registry : Registry) (f : Function) (name : String) :
    (registry.register f).get? name =
      if canonicalName name = Text.upperCase f.name then some f else registry.get? name := by
  simp only [get?, register, List.lookup_cons]
  by_cases h : canonicalName name = Text.upperCase f.name
  · rw [if_pos h, h, beq_self_eq_true]
  · rw [if_neg h, beq_false_of_ne h]

end Registry

end ProductFormula
