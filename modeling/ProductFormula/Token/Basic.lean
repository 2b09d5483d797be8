/-
  Words of an expression.

  A token is a literal, a name, a reference, a superscript or glyph, or a symbol
  of fixed spelling (`Symbol`).  Characters that form no word are a token too
  (`Token.invalid`), with the fault that was found: it matters only where the
  parser comes to it.

  * A superscript or glyph glued to an opening parenthesis is a call
    (`called`): `²(x)` rounds, while `x²` is a power;
  * `Token.describe` names a token in a message.
-/
import ProductFormula.Expr.Basic
import ProductFormula.Number.Text

namespace ProductFormula

/-- Operators, brackets and separators. -/
inductive Symbol where
  | plus
  | minus
  | star
  | slash
  | percent
  | bang
  | and
  | or
  | question
  | colon
  | comma
  | equal
  | notEqual
  | strictEqual
  | strictNotEqual
  | lessThan
  | lessEqual
  | greaterThan
  | greaterEqual
  | leftParen
  | rightParen
  | leftBracket
  | rightBracket
deriving DecidableEq

def Symbol.spelling : Symbol → String
  | plus => "+"
  | minus => "-"
  | star => "*"
  | slash => "/"
  | percent => "%"
  | bang => "!"
  | and => "&&"
  | or => "||"
  | question => "?"
  | colon => ":"
  | comma => ","
  | equal => "=="
  | notEqual => "!="
  | strictEqual => "==="
  | strictNotEqual => "!=="
  | lessThan => "<"
  | lessEqual => "<="
  | greaterThan => ">"
  | greaterEqual => ">="
  | leftParen => "("
  | rightParen => ")"
  | leftBracket => "["
  | rightBracket => "]"

/-- The superscript digits. -/
inductive Superscript where
  | one
  | two
  | three
deriving DecidableEq

namespace Superscript

def power : Superscript → Nat
  | one => 1
  | two => 2
  | three => 3

/-- The glyph that a superscript is before a parenthesis. -/
def toGlyph : Superscript → Glyph
  | one => .round
  | two => .ceil
  | three => .floor

def symbol (s : Superscript) : String := s.toGlyph.symbol

end Superscript

/-- Why characters form no word. -/
inductive LexicalFault where
  | loneEquals
  | loneAmpersand
  | loneBar
  | unterminatedReference
  | emptyReference
  | unterminatedString
  | invalidNumber (text : String)
  | unexpectedCharacter (c : Char)
deriving DecidableEq

def LexicalFault.message : LexicalFault → String
  | loneEquals => "unexpected '=' (use '==' to compare)"
  | loneAmpersand => "unexpected '&' (use '&&')"
  | loneBar => "unexpected '|' (use '||')"
  | unterminatedReference => "unterminated '\x7b'"
  | emptyReference => "empty variable reference"
  | unterminatedString => "unterminated string"
  | invalidNumber text => "invalid number '" ++ text ++ "'"
  | unexpectedCharacter c => "unexpected character '" ++ String.singleton c ++ "'"

inductive Token where
  | number (n : Number)
  | string (s : String)
  | name (name : String)
  | reference (name : String) (optional : Bool)
  | superscript (s : Superscript) (called : Bool)
  | glyph (glyph : Glyph) (called : Bool)
  | symbol (s : Symbol)
  | invalid (fault : LexicalFault)
deriving DecidableEq

namespace Token

def describe : Token → String
  | number n => "number " ++ n.plainText
  | string s => "string \"" ++ s ++ "\""
  | name spelled => "name '" ++ spelled ++ "'"
  | reference referred optional =>
    "'\x7b" ++ (if optional then "^" else "") ++ referred ++ "\x7d'"
  | superscript s _ => "'" ++ s.symbol ++ "'"
  | glyph g _ => "'" ++ g.symbol ++ "'"
  | symbol s => "'" ++ s.spelling ++ "'"
  | invalid fault => fault.message

/-- A token, or the end of the input. -/
def describe? : Option Token → String
  | some token => token.describe
  | none => "end of input"

end Token

end ProductFormula
