/-
  Expressions.

  An expression is the tree of one statement's right side (`Expr`): literals,
  references to variables, range tests, glyphs, exponents, operators,
  conditionals and calls.

  * `Expr.equals` compares trees with numbers compared as numbers: NaN differs
    from itself and the two zeros are equal;
  * `Expr.height` counts the nodes on the longest path down.
-/
import ProductFormula.Number.Basic

namespace ProductFormula

/-! ## Glyphs and operators -/

/-- Signs written before a parenthesised operand. -/
inductive Glyph where
  /-- `¹(x)`, the nearest whole number -/
  | round
  /-- `²(x)` -/
  | ceil
  /-- `³(x)` -/
  | floor
  /-- `ª(x)` -/
  | nearestOdd
  /-- `º(x)` -/
  | nearestEven
  | squareRoot
  | cubeRoot
deriving DecidableEq

def Glyph.symbol : Glyph → String
  | round => "¹"
  | ceil => "²"
  | floor => "³"
  | nearestOdd => "ª"
  | nearestEven => "º"
  | squareRoot => "√"
  | cubeRoot => "³√"

inductive BinaryOp where
  | add
  | subtract
  | multiply
  | divide
  | modulo
  | equal
  | notEqual
  | strictEqual
  | strictNotEqual
  | lessThan
  | lessEqual
  | greaterThan
  | greaterEqual
  | and
  | or
deriving DecidableEq

inductive UnaryOp where
  | negate
  | plus
  | not
deriving DecidableEq

/-! ## Trees -/

inductive Expr where
  | number (n : Number)
  | string (s : String)
  | boolean (b : Bool)
  /-- `{NAME}`, or `{^NAME}` where an unbound name counts as zero -/
  | reference (name : String) (optional : Bool)
  /-- `{NAME}[min,max]`, between the bounds and none of them -/
  | between (operand min max : Expr)
  | glyph (glyph : Glyph) (operand : Expr)
  | exponent (base : Expr) (power : Nat)
  | binary (op : BinaryOp) (left right : Expr)
  | unary (op : UnaryOp) (operand : Expr)
  /-- `condition ? chosen : other` and `SE(condition, chosen, other)` -/
  | conditional (condition chosen other : Expr)
  | call (name : String) (args : List Expr)

namespace Expr

instance : Inhabited Expr := ⟨.boolean false⟩

/-! ## Equality -/

mutual

/-- The same tree, with equal numbers in the same places. -/
def equals : Expr → Expr → Bool
  | number a, number b => a.equals b
  | string s, string t => s == t
  | boolean a, boolean b => a == b
  | reference name optional, reference name' optional' => name == name' && optional == optional'
  | between operand min max, between operand' min' max' =>
    operand.equals operand' && min.equals min' && max.equals max'
  | glyph g operand, glyph g' operand' => g == g' && operand.equals operand'
  | exponent base power, exponent base' power' => base.equals base' && power == power'
  | binary op left right, binary op' left' right' =>
    op == op' && left.equals left' && right.equals right'
  | unary op operand, unary op' operand' => op == op' && operand.equals operand'
  | conditional condition chosen other, conditional condition' chosen' other' =>
    condition.equals condition' && chosen.equals chosen' && other.equals other'
  | call name args, call name' args' => name == name' && allEqual args args'
  | _, _ => false

/-- Equal trees in the same order. -/
def allEqual : List Expr → List Expr → Bool
  | [], [] => true
  | e :: es, e' :: es' => e.equals e' && allEqual es es'
  | _, _ => false

end

/-! ## Height -/

mutual

/-- Nodes on the longest path from the root to a leaf. -/
def height : Expr → Nat
  | number _ | string _ | boolean _ | reference _ _ => 1
  | between operand min max => Nat.max operand.height (Nat.max min.height max.height) + 1
  | glyph _ operand => operand.height + 1
  | exponent base _ => base.height + 1
  | binary _ left right => Nat.max left.height right.height + 1
  | unary _ operand => operand.height + 1
  | conditional condition chosen other =>
    Nat.max condition.height (Nat.max chosen.height other.height) + 1
  | call _ args => greatestHeight args + 1

/-- The height of the highest tree, zero for none. -/
def greatestHeight : List Expr → Nat
  | [] => 0
  | e :: es => Nat.max e.height (greatestHeight es)

end

end Expr

end ProductFormula
