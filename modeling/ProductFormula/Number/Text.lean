/-
  The written form of a number.

  The digits are those of its shortest decimal, and a style (`NumberStyle`)
  says how they are laid out: which numbers are written positionally, whether a
  whole number ends in `.0`, and which of two equally near decimals is taken.
  All other numbers have one digit before the point and a signed exponent.

  * `Value` texts (`formulaStyle`) write `1e+21` from there on and `1.5e-7`
    below `1e-6`, and never `.0`; both zeros are `0` (`Number.text`);
  * a number in a message about the formula's own words (`plainStyle`) is
    always positional (`Number.plainText`).
-/
import ProductFormula.Number.Shortest

namespace ProductFormula

/-- How digits become text. -/
structure NumberStyle where
  /-- Whether a number whose first digit counts `10 ^ (top - 1)` is written
      without an exponent. -/
  positional : (top : Int) → Bool
  /-- Whether a whole number written without an exponent ends in `.0`. -/
  pointZero : Bool
  tie : Tie

namespace Decimal

/-- Digits without the zeros that end them. -/
def significant (digits : Nat) : List Char :=
  ((Nat.toDigits 10 digits).reverse.dropWhile (· == '0')).reverse

/-- Digits with the point behind place `top`. -/
def layoutPositional (pointZero : Bool) (digits : List Char) : (top : Int) → List Char
  | .ofNat top =>
    if top = 0 then
      '0' :: '.' :: digits
    else if digits.length ≤ top then
      digits ++ List.replicate (top - digits.length) '0' ++ if pointZero then ['.', '0'] else []
    else
      digits.take top ++ '.' :: digits.drop top
  | .negSucc below => '0' :: '.' :: List.replicate (below + 1) '0' ++ digits

/-- A sign and digits. -/
def exponentChars : Int → List Char
  | .ofNat places => '+' :: Nat.toDigits 10 places
  | .negSucc below => '-' :: Nat.toDigits 10 (below + 1)

/-- One digit, the others behind the point, and the exponent. -/
def layoutScientific (digits : List Char) (top : Int) : List Char :=
  let mantissa :=
    match digits with
    | first :: second :: rest => first :: '.' :: second :: rest
    | short => short
  mantissa ++ 'e' :: exponentChars (top - 1)

/-- The text of a decimal, not zero, in a style. -/
def layout (style : NumberStyle) (d : Decimal) : List Char :=
  let top := (Nat.toDigits 10 d.digits).length + d.exponent
  let digits := significant d.digits
  if style.positional top then layoutPositional style.pointZero digits top
  else layoutScientific digits top

end Decimal

namespace Number

/-- The text of a magnitude in a style. -/
def magnitudeText (style : NumberStyle) (units : Nat) : List Char :=
  if units = 0 then '0' :: if style.pointZero then ['.', '0'] else []
  else (Decimal.shortest style.tie units).layout style

/-- A minus sign for a negative number. -/
def signChars (negative : Bool) : List Char := if negative then ['-'] else []

/-! ## Numbers in formulas and in messages -/

/-- From `1e-6` up to `1e21` positional. -/
def formulaStyle : NumberStyle where
  positional top := -5 ≤ top && top ≤ 21
  pointZero := false
  tie := .upward

/-- The text of a number as a formula's author sees it. -/
def chars : Number → List Char
  | nan => ['N', 'a', 'N']
  | infinite negative => signChars negative ++ "Infinity".toList
  | finite negative units _ =>
    signChars (negative && units != 0) ++ magnitudeText formulaStyle units

def text (n : Number) : String := .ofList n.chars

/-- Positional whatever the size. -/
def plainStyle : NumberStyle where
  positional _ := true
  pointZero := false
  tie := .upward

/-- The text of a literal in a message. -/
def plainText : Number → String
  | nan => "NaN"
  | infinite negative => .ofList (signChars negative ++ "inf".toList)
  | finite negative units _ =>
    .ofList (signChars negative ++ magnitudeText plainStyle units)

end Number

end ProductFormula
