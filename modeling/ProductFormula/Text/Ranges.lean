/-
  Sets of characters given by ranges of code points.
-/

namespace ProductFormula.Text

/-- Within one of the ranges; both ends belong to a range. -/
def isInRanges (ranges : List (Nat × Nat)) (c : Char) : Bool :=
  ranges.any fun (first, last) => first ≤ c.toNat && c.toNat ≤ last

end ProductFormula.Text
