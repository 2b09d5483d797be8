/-
  The functions of formulas.

  A function has a name, bounds for the number of its arguments, and a meaning
  for every list of arguments (`Function`): an argument that is missing counts
  as NaN.  The bounds are checked where a function is called, not here.

  * `Function.builtins` are the functions that every formula may call.
-/
import ProductFormula.Number.Rounding
import ProductFormula.Value

namespace ProductFormula

structure Function where
  name : String
  minArgs : Nat
  /-- None for any number of arguments. -/
  maxArgs : Option Nat
  apply : List Value → Value

namespace Function

/-- The number that an argument stands for. -/
def argument (args : List Value) (i : Nat) : Number :=
  match args[i]? with
  | some v => v.toNumber
  | none => .nan

/-- A function of one number. -/
def ofUnary (name : String) (f : Number → Number) : Function :=
  ⟨name, 1, some 1, fun args => .number (f (argument args 0))⟩

/-- NaN if one of the numbers is, else the one that `pick` keeps, starting from
    `seed`. -/
def extreme (seed : Number) (pick : Number → Number → Number) (numbers : List Number) : Number :=
  if numbers.any Number.isNaN then .nan else numbers.foldl pick seed

/-- The least argument; an infinity stands for none. -/
def least (args : List Value) : Value :=
  .number (extreme (.infinite false) Number.min (args.map Value.toNumber))

/-- The greatest argument; a negative infinity stands for none. -/
def greatest (args : List Value) : Value :=
  .number (extreme (.infinite true) Number.max (args.map Value.toNumber))

def builtins : List Function :=
  [ofUnary "ROUND" Number.roundHalfUp,
    ofUnary "CEIL" Number.ceil,
    ofUnary "FLOOR" Number.floor,
    ofUnary "SQRT" Number.sqrt,
    ofUnary "CBRT" Number.cbrt,
    ofUnary "ABS" Number.abs,
    ofUnary "TRUNC" Number.trunc,
    ofUnary "SIGN" Number.sign,
    ⟨"POW", 2, some 2, fun args => .number ((argument args 0).pow (argument args 1))⟩,
    ⟨"MIN", 1, none, least⟩,
    ⟨"MAX", 1, none, greatest⟩]

/-- Why a call with this many arguments is refused, if it is. -/
def refusal? (f : Function) (count : Nat) : Option String :=
  if count < f.minArgs then
    some ("at least " ++ toString f.minArgs)
  else
    match f.maxArgs with
    | some most => if most < count then some ("at most " ++ toString most) else none
    | none => none

end Function

end ProductFormula
