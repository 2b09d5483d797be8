/-
  Calculating a formula.

  Statements run in order on an environment.  Each one must have its required
  references bound; an assignment then writes its name, a return ends the
  calculation, and any other statement does nothing (`Calculation.run`).  The
  first error ends the calculation and leaves the environment as the statements
  before it left it.

  * `calculate` runs a formula text and reports a record (`Record`), the
    environment afterwards, and what happened on the way (`LogEntry`);
  * a failed calculation is a record like any other: its code is not zero, it
    has a message and no result, and its hints say which brackets of the formula
    do not balance.
-/
import ProductFormula.Brackets
import ProductFormula.Expr.Parser
import ProductFormula.Statement
import ProductFormula.Template

namespace ProductFormula

/-! ## Options, records and log -/

structure Options where
  /-- How deep an expression may nest. -/
  maxDepth : Nat := Expr.defaultDepth
  /-- Required names are looked up without their dots. -/
  stripDots : Bool := true
deriving DecidableEq

/-- The outcome of a calculation. -/
structure Record where
  /-- Zero on success, else the code of the error. -/
  code : Nat
  /-- The formula on one line, without comments. -/
  formula : String
  /-- The environment when the calculation ended. -/
  environment : Environment
  message : String
  result : Option Value
  /-- None on success. -/
  hints : Option (List String)
deriving DecidableEq

namespace Record

def success (formula : String) (env : Environment) (result : Option Value) : Record where
  code := 0
  formula
  environment := env
  message := ""
  result
  hints := none

def failure (formula : String) (env : Environment) (error : Error) : Record where
  code := error.code
  formula
  environment := env
  message := error.message
  result := none
  hints := some (bracketHints formula)

def isOk (r : Record) : Bool := r.code == 0

/-- The result, if it is a number. -/
def number? (r : Record) : Option Number :=
  match r.result with
  | some (.number n) => some n
  | _ => none

end Record

/-- What happened during a calculation. -/
inductive LogEntry where
  | returned (line : Nat)
  | skipped (line : Nat)
  | assigned (line : Nat) (name : String) (value : Value)
  | failed (error : Error)
deriving DecidableEq

/-- The level of an entry and its message. -/
def LogEntry.text : LogEntry → String
  | returned line => "DEBUG Statement " ++ toString line ++ ": return"
  | skipped line => "DEBUG Statement " ++ toString line ++ ": skipped"
  | assigned line name value =>
    "TRACE Statement " ++ toString line ++ ": [" ++ name ++ "] = " ++ value.display
  | failed .emptyFormula => "WARN Calculation failed: empty formula"
  | failed error =>
    "WARN Calculation failed (code " ++ toString error.code ++ "): " ++ error.message

/-! ## Running statements -/

namespace Calculation

/-- Where statements have led: the environment, the value returned if any or
    the error, and the log. -/
structure Run where
  environment : Environment
  outcome : Except Error (Option Value)
  log : List LogEntry

/-- A run with an entry in front of its log. -/
def Run.logged (entry : LogEntry) (r : Run) : Run := { r with log := entry :: r.log }

/-- Every name bound, or the first one that is not. -/
def checkBound (ctx : Context) : List String → Except Error Unit
  | [] => .ok ()
  | name :: names => do
    let _ ← ctx.resolve name false
    checkBound ctx names

/-- The value of an expression's text. -/
def evaluateText (maxDepth : Nat) (ctx : Context) (expression : List Char) :
    Except Error Value := do
  let e ← Expr.parse maxDepth (.ofList expression)
  e.evaluate ctx

/-- What a statement does in an environment. -/
inductive Effect where
  | returns (value : Value)
  | assigns (name : String) (value : Value)
  | nothing
deriving DecidableEq

/-- The effect of a statement whose references are bound. -/
def perform (maxDepth : Nat) (ctx : Context) : Statement → Except Error Effect
  | .returnText text => do
    let filled ← interpolate ctx text
    return .returns (.text filled)
  | .returnValue expression => do
    let v ← evaluateText maxDepth ctx expression
    return .returns v
  | .assignment name expression => do
    let v ← evaluateText maxDepth ctx expression
    return .assigns name v
  | .other => .ok .nothing

/-- Whether a statement is a return. -/
def isReturn : Statement → Bool
  | .returnText _ | .returnValue _ => true
  | _ => false

/-- Runs the statements from the one with number `line` on. -/
def run (options : Options) (line : Nat) (env : Environment) : List (List Char) → Run
  | [] => ⟨env, .ok none, []⟩
  | text :: rest =>
    let ctx : Context := ⟨env, options.stripDots⟩
    match checkBound ctx (requiredNames text) with
    | .error e => ⟨env, .error (e.atLine line), []⟩
    | .ok () =>
      let statement := Statement.ofText text
      match perform options.maxDepth ctx statement with
      | .error e =>
        ⟨env, .error (e.atLine line), if isReturn statement then [.returned line] else []⟩
      | .ok (.returns v) => ⟨env, .ok (some v), [.returned line]⟩
      | .ok (.assigns name v) =>
        (run options (line + 1) (env.set name v) rest).logged (.assigned line name v)
      | .ok .nothing => (run options (line + 1) env rest).logged (.skipped line)

end Calculation

/-! ## Formulas -/

/-- A record, the environment that the calculation leaves, and its log. -/
structure Calculation where
  record : Record
  environment : Environment
  log : List LogEntry

/-- A formula without a character but blanks. -/
def isBlankText (text : List Char) : Bool := Text.trim text == []

/-- The formula text that is run: normalized, and without comments. -/
def sourceOf (formula : List Char) : List Char := stripComments (normalize formula)

def calculate (options : Options) (formula : String) (env : Environment) : Calculation :=
  if isBlankText formula.toList then
    ⟨.failure "" env .emptyFormula, env, [.failed .emptyFormula]⟩
  else
    let source := sourceOf formula.toList
    let r := Calculation.run options 1 env (statements source)
    match r.outcome with
    | .ok result => ⟨.success (.ofList source) r.environment result, r.environment, r.log⟩
    | .error e => ⟨.failure (.ofList source) r.environment e, r.environment, r.log ++ [.failed e]⟩

end ProductFormula
