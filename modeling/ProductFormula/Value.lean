/-
  Values of formulas, and how one kind stands for another.

  A value is a number, a boolean or a text (`Value`).  Where a number is asked
  for, a boolean counts as one or zero and a text as the decimal it holds
  (`Value.asNumber?`); a text that holds none counts as NaN (`Value.toNumber`).

  * `Value.compare?` orders two texts by their characters and everything else
    as numbers, `Value.looseEquals` is the equality that goes with it, and
    `Value.strictEquals` tells the kinds apart;
  * `Value.display` is a value's text.
-/
import ProductFormula.Number.Arithmetic
import ProductFormula.Number.Text
import ProductFormula.Text.Blank

namespace ProductFormula

inductive Value where
  | number (n : Number)
  | boolean (b : Bool)
  | text (s : String)
deriving DecidableEq

namespace Value

instance : Inhabited Value := ⟨.number default⟩

/-! ## Numbers in values -/

/-- The number that a text holds between blanks: a decimal or `Infinity`, either
    with a sign; a blank text holds zero. -/
def textNumber? (s : String) : Option Number :=
  match Text.trim s.toList with
  | [] => some (.zero false)
  | cs =>
    let (negative, unsigned) := Number.splitSign cs
    if unsigned = "Infinity".toList then some (.infinite negative)
    else Number.ofDecimalText? cs

def asNumber? : Value → Option Number
  | number n => some n
  | boolean true => some (.ofNat 1)
  | boolean false => some (.zero false)
  | text s => textNumber? s

/-- The number that a value stands for. -/
def toNumber (v : Value) : Number := v.asNumber?.getD .nan

/-- Neither zero, nor NaN, nor false, nor the empty text. -/
def isTruthy : Value → Bool
  | number n => !n.isZero && !n.isNaN
  | boolean b => b
  | text s => s != ""

def isText : Value → Bool
  | text _ => true
  | _ => false

/-! ## Text of values -/

def display : Value → String
  | number n => n.text
  | boolean true => "true"
  | boolean false => "false"
  | text s => s

/-! ## Order and equality -/

/-- Two texts by their characters, everything else as numbers; none if one of
    these is NaN. -/
def compare? : Value → Value → Option Ordering
  | text l, text r => some (compare l r)
  | l, r => l.toNumber.compare? r.toNumber

/-- Equal texts, or equal numbers where one of the two is no text. -/
def looseEquals : Value → Value → Bool
  | text l, text r => l == r
  | l, r => l.toNumber.equals r.toNumber

/-- Equal values of one kind; NaN equals nothing and the two zeros each other. -/
def strictEquals : Value → Value → Bool
  | number l, number r => l.equals r
  | boolean l, boolean r => l == r
  | text l, text r => l == r
  | _, _ => false

end Value

end ProductFormula
