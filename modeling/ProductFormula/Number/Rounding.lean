/-
  Rounding to whole numbers, odd and even ones among them.

  A half goes up (`Number.roundHalfUp`), also below zero.  The nearest even
  number is twice the rounded half of the number (`Number.nearestEven`), and the
  odd number taken is one more than that (`Number.nearestOdd`).
-/
import ProductFormula.Number.Arithmetic

namespace ProductFormula.Number

/-- At most as great; nothing is, where NaN is compared. -/
def le (a b : Number) : Bool :=
  match a.compare? b with
  | some order => order.isLE
  | none => false

def roundHalfUp (n : Number) : Number :=
  if half.le (n.sub n.floor) then n.floor.add (ofNat 1) else n.floor

def nearestEven (n : Number) : Number :=
  (ofNat 2).mul (n.div (ofNat 2)).roundHalfUp

def nearestOdd (n : Number) : Number :=
  n.nearestEven.add (ofNat 1)

/-! ## Extremes -/

/-- The number that comes first on the line. -/
def min (a b : Number) : Number := if a.le b then a else b

/-- The number that comes last on the line. -/
def max (a b : Number) : Number := if b.le a then a else b

end ProductFormula.Number
