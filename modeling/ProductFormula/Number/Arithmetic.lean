/-
  Arithmetic of binary64 numbers.

  An operation on finite numbers computes its exact result in steps and rounds
  it once (`Number.nearest`); what infinities and NaN give is said case by case.
  Signs of zeros follow the factors, and an exact sum of zero is positive unless
  both terms are negative zeros.

  * `Number.add`, `mul`, `div` and `rem` are the four operations, `rem` with the
    sign of the dividend;
  * `Number.floor`, `ceil` and `trunc` give whole numbers;
  * `Number.sqrt` and `cbrt` round the exact root: `rootBelow` finds the whole
    part of a root bit by bit, and `nearestRoot` adds a half step where it falls
    short, which no rounding boundary can hide;
  * `Number.powNat` multiplies by repeated squaring; `Number.pow` takes any
    exponent and is left to the machine, since the last digit of a power follows
    no short rule.

  Rounding a square root once is the rule for binary64; for a cube root the last
  digit is the library's to choose, and it chooses the nearest.
-/
import ProductFormula.Number.Bits

namespace ProductFormula.Number

/-! ## Sign -/

def neg : Number → Number
  | nan => nan
  | infinite negative => infinite (!negative)
  | finite negative units representable => finite (!negative) units representable

def abs : Number → Number
  | nan => nan
  | infinite _ => infinite false
  | finite _ units representable => finite false units representable

/-- One with the sign of the number, which stays as it is if zero or NaN. -/
def sign : Number → Number
  | nan => nan
  | infinite negative => nearest negative unitsPerOne 1
  | finite negative units representable =>
    if units = 0 then finite negative units representable else nearest negative unitsPerOne 1

/-! ## Sum, product, quotient, remainder -/

def add : Number → Number → Number
  | nan, _ | _, nan => nan
  | infinite s, infinite t => if s = t then infinite s else nan
  | infinite s, finite .. => infinite s
  | finite .., infinite t => infinite t
  | finite s a _, finite t b _ =>
    let sum := signed s a + signed t b
    if sum = 0 then zero (s && t) else nearest (sum < 0) sum.natAbs 1

def sub (a b : Number) : Number := a.add b.neg

def mul : Number → Number → Number
  | nan, _ | _, nan => nan
  | infinite s, infinite t => infinite (s ^^ t)
  | infinite s, finite t b _ => if b = 0 then nan else infinite (s ^^ t)
  | finite s a _, infinite t => if a = 0 then nan else infinite (s ^^ t)
  | finite s a _, finite t b _ => nearest (s ^^ t) (a * b) unitsPerOne

def div : Number → Number → Number
  | nan, _ | _, nan => nan
  | infinite _, infinite _ => nan
  | infinite s, finite t _ _ => infinite (s ^^ t)
  | finite s _ _, infinite t => zero (s ^^ t)
  | finite s a _, finite t b _ =>
    if b = 0 then
      if a = 0 then nan else infinite (s ^^ t)
    else
      nearest (s ^^ t) (a * unitsPerOne) b

/-- What is left of the dividend, with its sign, after whole divisors. -/
def rem : Number → Number → Number
  | nan, _ | _, nan => nan
  | infinite _, _ => nan
  | finite s a r, infinite _ => finite s a r
  | finite s a _, finite _ b _ => if b = 0 then nan else nearest s (a % b) 1

/-! ## Whole parts -/

/-- Keeps NaN and infinities, and gives a finite number the whole magnitude
    chosen by `whole` for its sign and its steps. -/
def toWhole (whole : Bool → Nat → Nat) : Number → Number
  | nan => nan
  | infinite negative => infinite negative
  | finite negative units _ => nearest negative (whole negative units * unitsPerOne) 1

/-- Whole ones in a magnitude. -/
def wholeBelow (units : Nat) : Nat := units / unitsPerOne

/-- The least number of ones that covers a magnitude. -/
def wholeAbove (units : Nat) : Nat := (units + unitsPerOne - 1) / unitsPerOne

def trunc : Number → Number := toWhole fun _ => wholeBelow

def floor : Number → Number :=
  toWhole fun negative => if negative then wholeAbove else wholeBelow

def ceil : Number → Number :=
  toWhole fun negative => if negative then wholeBelow else wholeAbove

/-! ## Roots -/

/-- The greatest `r` with `r ^ degree ≤ n` that agrees with `root` above the
    lowest `bits` bits. -/
def rootBelow (degree n : Nat) : (bits root : Nat) → Nat
  | 0, root => root
  | bits + 1, root =>
    let next := root + Nat.pow 2 bits
    rootBelow degree n bits (if Nat.pow next degree ≤ n then next else root)

/-- The number nearest to the root of `n` of the given degree, in steps.  The
    part after the point is given as a half or none: `n` is chosen so large
    that rounding only asks whether there is any. -/
def nearestRoot (negative : Bool) (degree n : Nat) : Number :=
  let root := rootBelow degree n (n.log2 / degree + 1) 0
  nearest negative (2 * root + if Nat.pow root degree = n then 0 else 1) 2

/-- NaN below zero; a zero keeps its sign. -/
def sqrt : Number → Number
  | nan => nan
  | infinite negative => if negative then nan else infinite false
  | finite negative units representable =>
    if units = 0 then finite negative units representable
    else if negative then nan
    else nearestRoot false 2 (units * unitsPerOne)

/-- The nearest number to the root, where machines may miss the last digit. -/
def cbrt : Number → Number
  | nan => nan
  | infinite negative => infinite negative
  | finite negative units _ => nearestRoot negative 3 (units * (unitsPerOne * unitsPerOne))

/-! ## Powers -/

/-- `factor` times `base ^ n`: the binary digits of `n`, the lowest first, say
    which squares of the base are taken. -/
def mulPow (factor base : Number) (n : Nat) : Number :=
  let factor := if n % 2 = 1 then factor.mul base else factor
  if n < 2 then factor else mulPow factor (base.mul base) (n / 2)
termination_by n

/-- A power by repeated squaring; for three it is `x * (x * x)`. -/
def powNat (base : Number) (n : Nat) : Number := mulPow (ofNat 1) base n

/-- A power with any exponent, as the machine's floating-point numbers have
    it. -/
def pow (base exponent : Number) : Number :=
  ofBits ((Float.ofBits base.toBits).pow (Float.ofBits exponent.toBits)).toBits

end ProductFormula.Number
