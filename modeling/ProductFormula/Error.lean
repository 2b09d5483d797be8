/-
  What can go wrong with a formula.

  The parser and the evaluator know nothing of statements: their errors become
  errors of a formula when the number of the statement is attached
  (`Error.atLine`).  Every error has a message for the formula's author and a
  code for the program that asked (`Error.message`, `Error.code`).
-/

namespace ProductFormula

inductive Error where
  /-- The formula is blank. -/
  | emptyFormula
  /-- A required reference without a binding, in a statement. -/
  | unresolvedVariable (name : String) (line : Nat)
  /-- A statement that cannot be parsed or evaluated. -/
  | malformed (line : Nat) (detail : String)
  /-- A statement that nests too deep. -/
  | nestingLimit (line limit : Nat)
  | parse (detail : String)
  | evaluation (detail : String)
  | unknownFunction (name : String)
  | argumentCount (function expected : String) (actual : Nat)
  | missingVariable (name : String)
  | depthExceeded (limit : Nat)
deriving DecidableEq

namespace Error

def message : Error → String
  | emptyFormula => "Empty formula"
  | unresolvedVariable name line => "Variable '" ++ name ++ "' not found at line " ++ toString line
  | malformed line detail => "Syntax error at line " ++ toString line ++ ": " ++ detail
  | nestingLimit line limit =>
    "Expression at line " ++ toString line ++ " exceeds the nesting limit of " ++ toString limit
  | parse detail => "Parse error: " ++ detail
  | evaluation detail => "Evaluation error: " ++ detail
  | unknownFunction name => "Unknown function: " ++ name
  | argumentCount function expected actual =>
    "Wrong number of arguments for " ++ function ++ ": expected " ++ expected ++ ", got " ++
      toString actual
  | missingVariable name => "Variable '" ++ name ++ "' not found"
  | depthExceeded limit => "Nesting limit of " ++ toString limit ++ " exceeded"

/-- One for a blank formula, two for a missing variable, five for nesting, four
    for all else. -/
def code : Error → Nat
  | emptyFormula => 1
  | unresolvedVariable .. | missingVariable _ => 2
  | nestingLimit .. | depthExceeded _ => 5
  | _ => 4

/-- The error as one of the statement with this number, counted from one; an
    error of a formula stays as it is. -/
def atLine (line : Nat) : Error → Error
  | missingVariable name => unresolvedVariable name line
  | depthExceeded limit => nestingLimit line limit
  | parse detail => malformed line (parse detail).message
  | evaluation detail => malformed line (evaluation detail).message
  | unknownFunction name => malformed line (unknownFunction name).message
  | argumentCount function expected actual =>
    malformed line (argumentCount function expected actual).message
  | emptyFormula => emptyFormula
  | unresolvedVariable name held => unresolvedVariable name held
  | malformed held detail => malformed held detail
  | nestingLimit held limit => nestingLimit held limit

end Error

end ProductFormula
