/-
  Texts on one line.

  A listing writes every character of a text so that line breaks, quotes and
  what cannot be seen stay visible: a backslash and a letter for the common
  ones (`shortEscape?`), the code point for the rest.  A mark that extends the
  character before it is written by its code point only where it stands first.

  * `escapeChars` writes a text, `escapeChar` one character.
-/
import ProductFormula.Text.GraphemeExtend
import ProductFormula.Text.Printable

namespace ProductFormula.Text

/-- Characters written as a backslash and one other character. -/
def shortEscape? : Char → Option Char
  | '\x00' => some '0'
  | '\t' => some 't'
  | '\r' => some 'r'
  | '\n' => some 'n'
  | '\'' => some '\''
  | '"' => some '"'
  | '\\' => some '\\'
  | _ => none

/-- The code point in braces. -/
def codePointEscape (c : Char) : List Char :=
  '\\' :: 'u' :: '\x7b' :: Nat.toDigits 16 c.toNat ++ ['\x7d']

/-- One character; `first` says that none stands before it. -/
def escapeChar (first : Bool) (c : Char) : List Char :=
  match shortEscape? c with
  | some letter => ['\\', letter]
  | none =>
    if first && isGraphemeExtend c || !isPrintable c then codePointEscape c else [c]

/-- A text with its first character told apart. -/
def escapeChars : List Char → List Char
  | [] => []
  | c :: cs => escapeChar true c ++ cs.flatMap (escapeChar false)

def escape (s : String) : String := .ofList (escapeChars s.toList)

end ProductFormula.Text
