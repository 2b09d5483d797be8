/-
  The meaning of expressions.

  An expression has a value in a context: an environment, and whether the dots
  of required names count (`Context`).  Operands are evaluated from left to
  right and the first error ends the evaluation; `&&` and `||` answer with the
  operand that decides and leave the other alone, and a conditional evaluates
  one of its branches (`Expr.evaluate`).

  * `Context.resolve` is the meaning of a reference;
  * `BinaryOp.apply` is the meaning of an operator on values.
-/
import ProductFormula.Error
import ProductFormula.Expr.Basic
import ProductFormula.Function.Registry
import ProductFormula.Environment

namespace ProductFormula

/-! ## References -/

structure Context where
  env : Environment
  /-- Required names are looked up without their dots. -/
  stripDots : Bool

namespace Context

/-- The name under which a required reference is looked up. -/
def lookupName (ctx : Context) (name : String) : String :=
  if ctx.stripDots then .ofList (name.toList.filter (· != '.')) else name

/-- The value of a reference: an optional one is looked up as it is written and
    is zero where nothing is bound. -/
def resolve (ctx : Context) (name : String) (optional : Bool) : Except Error Value :=
  if optional then
    .ok ((ctx.env.get? name).getD (.number (.zero false)))
  else
    match ctx.env.get? (ctx.lookupName name) with
    | some v => .ok v
    | none => .error (.missingVariable name)

end Context

/-! ## Glyphs and operators -/

def Glyph.apply : Glyph → Number → Number
  | round => Number.roundHalfUp
  | ceil => Number.ceil
  | floor => Number.floor
  | nearestOdd => Number.nearestOdd
  | nearestEven => Number.nearestEven
  | squareRoot => Number.sqrt
  | cubeRoot => Number.cbrt

/-- Two texts, or a text and anything, are joined; all else is added. -/
def Value.add (left right : Value) : Value :=
  if left.isText || right.isText then .text (left.display ++ right.display)
  else .number (left.toNumber.add right.toNumber)

namespace BinaryOp

/-- The left operand where it decides alone. -/
def shortcut? : BinaryOp → Value → Option Value
  | and, left => if left.isTruthy then none else some left
  | or, left => if left.isTruthy then some left else none
  | _, _ => none

/-- The value for two operands, the left one not deciding alone. -/
def apply : BinaryOp → Value → Value → Value
  | add, l, r => l.add r
  | subtract, l, r => .number (l.toNumber.sub r.toNumber)
  | multiply, l, r => .number (l.toNumber.mul r.toNumber)
  | divide, l, r => .number (l.toNumber.div r.toNumber)
  | modulo, l, r => .number (l.toNumber.rem r.toNumber)
  | equal, l, r => .boolean (l.looseEquals r)
  | notEqual, l, r => .boolean (!l.looseEquals r)
  | strictEqual, l, r => .boolean (l.strictEquals r)
  | strictNotEqual, l, r => .boolean (!l.strictEquals r)
  | lessThan, l, r => .boolean (l.compare? r == some .lt)
  | lessEqual, l, r => .boolean (l.compare? r == some .lt || l.compare? r == some .eq)
  | greaterThan, l, r => .boolean (l.compare? r == some .gt)
  | greaterEqual, l, r => .boolean (l.compare? r == some .gt || l.compare? r == some .eq)
  | and, _, r => r
  | or, _, r => r

end BinaryOp

def UnaryOp.apply : UnaryOp → Value → Value
  | negate, v => .number v.toNumber.neg
  | plus, v => .number v.toNumber
  | not, v => .boolean !v.isTruthy

/-- Strictly between two bounds. -/
def Value.isBetween (v min max : Value) : Bool :=
  v.compare? min == some .gt && v.compare? max == some .lt

/-! ## Expressions -/

namespace Expr

/-- The function of this name, if it takes this many arguments. -/
def callee (name : String) (count : Nat) : Except Error Function :=
  match Registry.standard.get? name with
  | none => .error (.unknownFunction name)
  | some f =>
    match f.refusal? count with
    | some expected => .error (.argumentCount f.name expected count)
    | none => .ok f

mutual

def evaluate (ctx : Context) : Expr → Except Error Value
  | number n => .ok (.number n)
  | string s => .ok (.text s)
  | boolean b => .ok (.boolean b)
  | reference name optional => ctx.resolve name optional
  | between operand min max => do
    let v ← operand.evaluate ctx
    let lower ← min.evaluate ctx
    let upper ← max.evaluate ctx
    return .boolean (v.isBetween lower upper)
  | glyph g operand => do
    let v ← operand.evaluate ctx
    return .number (g.apply v.toNumber)
  | exponent base power => do
    let v ← base.evaluate ctx
    return .number (v.toNumber.powNat power)
  | binary op left right => do
    let l ← left.evaluate ctx
    match op.shortcut? l with
    | some v => return v
    | none =>
      let r ← right.evaluate ctx
      return op.apply l r
  | unary op operand => do
    let v ← operand.evaluate ctx
    return op.apply v
  | conditional condition chosen other => do
    let v ← condition.evaluate ctx
    if v.isTruthy then chosen.evaluate ctx else other.evaluate ctx
  | call name args => do
    let f ← callee name args.length
    let values ← evaluateAll ctx args
    return f.apply values

/-- The values of a list of expressions, evaluated in order. -/
def evaluateAll (ctx : Context) : List Expr → Except Error (List Value)
  | [] => .ok []
  | e :: es => do
    let v ← e.evaluate ctx
    let vs ← evaluateAll ctx es
    return v :: vs

end

end Expr

end ProductFormula
