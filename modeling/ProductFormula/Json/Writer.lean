/-
  Writing JSON.

  A layout is compact, without a blank, or indented by two blanks for each level
  with one item on a line (`Json.Layout`).  A number always has a point or an
  exponent, so that it cannot be taken for a whole one, and what JSON has no
  number for is `null` (`Json.numberChars`).

  * `Json.block` encloses items, `Json.member` names one;
  * `Json.ofEnvironment` and `Json.ofRecord` write an environment and the record
    of a calculation.
-/
import ProductFormula.Calculation

namespace ProductFormula.Json

/-! ## Strings and numbers -/

def hexDigits (n : Nat) : List Char :=
  let digits := Nat.toDigits 16 n
  List.replicate (2 - digits.length) '0' ++ digits

/-- Quotes, backslashes and control characters are escaped, all else stands as
    it is. -/
def escaped (c : Char) : List Char :=
  match c with
  | '"' => ['\\', '"']
  | '\\' => ['\\', '\\']
  | '\x08' => ['\\', 'b']
  | '\x0c' => ['\\', 'f']
  | '\n' => ['\\', 'n']
  | '\r' => ['\\', 'r']
  | '\t' => ['\\', 't']
  | c => if c.toNat < 0x20 then ['\\', 'u', '0', '0'] ++ hexDigits c.toNat else [c]

def quoted (s : String) : List Char := '"' :: s.toList.flatMap escaped ++ ['"']

/-- Positional from `1e-5` up to `1e16`. -/
def numberStyle : NumberStyle where
  positional top := -4 ≤ top && top ≤ 16
  pointZero := true
  tie := .even

def nullChars : List Char := "null".toList

def numberChars : Number → List Char
  | .finite negative units _ =>
    Number.signChars negative ++ Number.magnitudeText numberStyle units
  | _ => nullChars

def valueChars : Value → List Char
  | .number n => numberChars n
  | .boolean true => "true".toList
  | .boolean false => "false".toList
  | .text s => quoted s

/-! ## Blocks -/

inductive Layout where
  | compact
  | indented
deriving DecidableEq

/-- A new line at a level. -/
def Layout.lineBreak (layout : Layout) (level : Nat) : List Char :=
  match layout with
  | compact => []
  | indented => '\n' :: List.replicate (2 * level) ' '

/-- The colon behind a name. -/
def Layout.colon : Layout → List Char
  | compact => [':']
  | indented => [':', ' ']

/-- Items one level deeper than the brackets around them. -/
def block (layout : Layout) (level : Nat) (opening closing : Char) (items : List (List Char)) :
    List Char :=
  if items = [] then
    [opening, closing]
  else
    let start := layout.lineBreak (level + 1)
    opening :: start ++ (',' :: start).intercalate items ++ layout.lineBreak level ++ [closing]

def member (layout : Layout) (name : String) (value : List Char) : List Char :=
  quoted name ++ layout.colon ++ value

/-! ## Environments and records -/

def ofEnvironment (layout : Layout) (level : Nat) (env : Environment) : List Char :=
  block layout level '\x7b' '\x7d'
    (env.bindings.map fun b => member layout b.1 (valueChars b.2))

def ofStrings (layout : Layout) (level : Nat) (strings : List String) : List Char :=
  block layout level '[' ']' (strings.map quoted)

/-- The members of a record; hints are left out where there are none to give. -/
def recordMembers (layout : Layout) (r : Record) : List (List Char) :=
  let result := (r.result.map valueChars).getD nullChars
  [member layout "code" (Nat.toDigits 10 r.code),
    member layout "formula" (quoted r.formula),
    member layout "variables" (ofEnvironment layout 1 r.environment),
    member layout "message" (quoted r.message),
    member layout "result" result] ++
  match r.hints with
  | some hints => [member layout "hints" (ofStrings layout 1 hints)]
  | none => []

def ofRecord (layout : Layout) (r : Record) : List Char :=
  block layout 0 '\x7b' '\x7d' (recordMembers layout r)

end ProductFormula.Json
