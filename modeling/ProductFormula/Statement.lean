/-
  Statements of a formula.

  Semicolons divide a formula into statements.  Before it runs, a formula is put
  on one line with its statements trimmed (`normalize`), and statements that
  start with `//` are dropped (`stripComments`).

  * `Statement.ofText` tells what a statement is: it returns a text or a value,
    assigns a value to a name, or does nothing.
-/
import ProductFormula.Text.Blank
import ProductFormula.Text.Split

namespace ProductFormula

/-! ## Formula texts -/

/-- The statements of a text. -/
def statements (text : List Char) : List (List Char) := text.splitOn ';'

/-- The text with these statements. -/
def joinStatements (ss : List (List Char)) : List Char := [';'].intercalate ss

def isLineBreak (c : Char) : Bool := c == '\n' || c == '\r'

/-- Statements trimmed, then line breaks dropped. -/
def normalize (text : List Char) : List Char :=
  (joinStatements ((statements (Text.trim text)).map Text.trim)).filter fun c => !isLineBreak c

def isComment (statement : List Char) : Bool :=
  ['/', '/'].isPrefixOf (Text.trimStart statement)

def stripComments (text : List Char) : List Char :=
  joinStatements ((statements text).filter fun s => !isComment s)

/-! ## Kinds of statements -/

inductive Statement where
  /-- `=#text` -/
  | returnText (text : List Char)
  /-- `=expression` -/
  | returnValue (expression : List Char)
  /-- `[name] = expression` -/
  | assignment (name : String) (expression : List Char)
  | other
deriving DecidableEq

namespace Statement

/-- The right side after an equals sign, blanks around the sign left out. -/
def rightSide? (cs : List Char) : Option (List Char) :=
  match Text.trimStart cs with
  | '=' :: cs =>
    let expression := Text.trimStart cs
    if expression = [] then none else some expression
  | _ => none

/-- A name in square brackets, an equals sign, and an expression. -/
def assignment? : List Char → Option (String × List Char)
  | '[' :: cs =>
    match Text.splitWhile (· != ']') cs with
    | (first :: name, _ :: rest) =>
      (rightSide? rest).map fun expression => (.ofList (first :: name), expression)
    | _ => none
  | _ => none

def ofText : List Char → Statement
  | '=' :: '#' :: text => returnText text
  | '=' :: expression => returnValue expression
  | cs =>
    match assignment? cs with
    | some (name, expression) => assignment name expression
    | none => other

end Statement

end ProductFormula
