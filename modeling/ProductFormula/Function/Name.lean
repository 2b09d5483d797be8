/-
  Names of functions and constants.

  A function is called in upper or lower case, with `Math.` in front or without
  (`canonicalName`); a constant has one spelling (`constant?`).
-/
import ProductFormula.Number.Decimal
import ProductFormula.Text.UpperCase

namespace ProductFormula

/-- A name without `Math.` in front. -/
def dropMath : List Char → List Char
  | 'M' :: 'a' :: 't' :: 'h' :: '.' :: name => name
  | name => name

/-- The name under which a function is known: in capitals, without `Math.`. -/
def canonicalName (name : String) : String := Text.upperCase (.ofList (dropMath name.toList))

/-- Numbers with a name. -/
def constant? (name : String) : Option Number :=
  if name = "Infinity" then some (.infinite false)
  else if name = "NaN" then some .nan
  else if name = "Math.PI" then some (Decimal.toNumber false ⟨3141592653589793, -15⟩)
  else if name = "Math.E" then some (Decimal.toNumber false ⟨2718281828459045, -15⟩)
  else none

end ProductFormula
