/-
  Decimals, and the number nearest to each.

  A decimal is a whole number of digits and a power of ten (`Decimal`).  Its
  text is digits with at most one point among or beside them, then at most one
  exponent mark with a sign of its own and digits; no digit may be missing from
  either part (`Decimal.ofChars?`).

  * `Decimal.toNumber` rounds the exact value of a decimal, however long.
    Powers of ten far out of range are not raised: above `10^400` every decimal
    is an infinity, and one that two thousand binary places cannot reach is
    zero.
  * `Number.ofDecimalText?` reads a decimal with an optional sign.
-/
import ProductFormula.Number.Basic
import ProductFormula.Text.Split

namespace ProductFormula

/-- The value `digits * 10 ^ exponent`. -/
structure Decimal where
  digits : Nat
  exponent : Int
deriving DecidableEq

namespace Decimal

/-- The number nearest to a decimal with a sign. -/
def toNumber (negative : Bool) (d : Decimal) : Number :=
  if d.digits = 0 then
    .zero negative
  else
    match d.exponent with
    | .ofNat places =>
      if 400 < places then .infinite negative
      else .nearest negative (d.digits * Nat.pow 10 places * unitsPerOne) 1
    | .negSucc below =>
      let places := below + 1
      if d.digits.log2 + 2000 < 3 * places then .zero negative
      else .nearest negative (d.digits * unitsPerOne) (Nat.pow 10 places)

/-! ## Reading -/

/-- A number of one digit at least. -/
def naturalOf? (cs : List Char) : Option Nat :=
  if cs ≠ [] ∧ cs.all Char.isDigit then some (Nat.ofDigitChars 10 cs 0) else none

/-- What follows an exponent mark. -/
def exponentOf? : List Char → Option Int
  | '+' :: cs => (naturalOf? cs).map fun n => (n : Int)
  | '-' :: cs => (naturalOf? cs).map fun n => -(n : Int)
  | cs => (naturalOf? cs).map fun n => (n : Int)

/-- The digits behind a point, if one stands in front, and what follows. -/
def splitFraction : List Char → List Char × List Char
  | '.' :: cs => Text.splitWhile Char.isDigit cs
  | cs => ([], cs)

/-- An unsigned decimal. -/
def ofChars? (cs : List Char) : Option Decimal :=
  let (whole, rest) := Text.splitWhile Char.isDigit cs
  let (fraction, rest) := splitFraction rest
  let digits := Nat.ofDigitChars 10 (whole ++ fraction) 0
  if whole = [] ∧ fraction = [] then
    none
  else
    match rest with
    | [] => some ⟨digits, -fraction.length⟩
    | mark :: power =>
      if mark = 'e' ∨ mark = 'E' then
        (exponentOf? power).map fun exponent => ⟨digits, exponent - fraction.length⟩
      else
        none

end Decimal

namespace Number

/-- A leading sign, negative or not, and what follows it. -/
def splitSign : List Char → Bool × List Char
  | '-' :: cs => (true, cs)
  | '+' :: cs => (false, cs)
  | cs => (false, cs)

/-- The number nearest to a decimal with an optional sign. -/
def ofDecimalText? (cs : List Char) : Option Number :=
  let (negative, unsigned) := splitSign cs
  (Decimal.ofChars? unsigned).map (Decimal.toNumber negative)

end Number

end ProductFormula
