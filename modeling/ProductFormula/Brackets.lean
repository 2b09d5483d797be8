/-
  Brackets that do not balance.

  For each pair of brackets the opening and the closing ones of a text are
  counted, wherever they stand, and a difference makes a hint.  Equal counts do
  not say that the nesting is right, only that nothing is plainly missing.
-/

namespace ProductFormula

/-- A pair of brackets and its name. -/
structure BracketPair where
  opening : Char
  closing : Char
  label : String
deriving DecidableEq

namespace BracketPair

def all : List BracketPair :=
  [⟨'(', ')', "parentheses"⟩, ⟨'[', ']', "square brackets"⟩, ⟨'\x7b', '\x7d', "braces"⟩]

/-- What to say about this many opening and closing brackets. -/
def imbalance (pair : BracketPair) (opened closed : Nat) : String :=
  "Unbalanced " ++ pair.label ++ ": " ++
    toString opened ++ " '" ++ String.singleton pair.opening ++ "' opened, " ++
    toString closed ++ " '" ++ String.singleton pair.closing ++ "' closed"

def hint? (pair : BracketPair) (cs : List Char) : Option String :=
  let opened := cs.count pair.opening
  let closed := cs.count pair.closing
  if opened = closed then none else some (pair.imbalance opened closed)

end BracketPair

/-- A hint for every pair that does not balance in a text. -/
def bracketHints (text : String) : List String :=
  BracketPair.all.filterMap fun pair => pair.hint? text.toList

end ProductFormula
