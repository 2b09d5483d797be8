/-
  Cutting a text into tokens.

  Blanks between tokens are skipped, and what stands in front of the rest is
  cut off as one token (`Token.scan`): a symbol as long as it can be, a number,
  a name or a string to its end, a reference to its closing brace.  What forms
  no token is cut off as an invalid one, so the cut never fails and never
  depends on the tokens before (`Token.lex`).

  * `Token.scan_suffix`: what is left after a token is an end of the text.
-/
import ProductFormula.Number.Decimal
import ProductFormula.Text.Blank
import ProductFormula.Text.Split
import ProductFormula.Token.Basic

namespace ProductFormula.Token

/-! ## Symbols and glyphs -/

/-- A symbol that no other one starts with. -/
def symbolOf? : Char → Option Symbol
  | '+' => some .plus
  | '-' => some .minus
  | '*' => some .star
  | '/' => some .slash
  | '%' => some .percent
  | '?' => some .question
  | ':' => some .colon
  | ',' => some .comma
  | '(' => some .leftParen
  | ')' => some .rightParen
  | '[' => some .leftBracket
  | ']' => some .rightBracket
  | _ => none

/-- Glued to an opening parenthesis. -/
def startsCall : List Char → Bool
  | '(' :: _ => true
  | _ => false

/-- What `³` starts: a superscript, or the cube root. -/
def scanThree : List Char → Token × List Char
  | '√' :: rest => (glyph .cubeRoot (startsCall rest), rest)
  | rest => (superscript .three (startsCall rest), rest)

/-- What `=` starts. -/
def scanEquals : List Char → Token × List Char
  | '=' :: '=' :: rest => (symbol .strictEqual, rest)
  | '=' :: rest => (symbol .equal, rest)
  | rest => (invalid .loneEquals, rest)

/-- What `!` starts. -/
def scanBang : List Char → Token × List Char
  | '=' :: '=' :: rest => (symbol .strictNotEqual, rest)
  | '=' :: rest => (symbol .notEqual, rest)
  | rest => (symbol .bang, rest)

/-- A symbol with `=` behind it, or without. -/
def scanOrEqual (orEqual plain : Symbol) : List Char → Token × List Char
  | '=' :: rest => (symbol orEqual, rest)
  | rest => (symbol plain, rest)

/-- A symbol that is one character twice. -/
def scanDouble (c : Char) (double : Symbol) (lone : LexicalFault) : List Char → Token × List Char
  | [] => (invalid lone, [])
  | c' :: rest => if c' = c then (symbol double, rest) else (invalid lone, c' :: rest)

/-! ## References -/

/-- The reference with this text between its braces. -/
def ofReferenceText : List Char → Token
  | [] => invalid .emptyReference
  | '^' :: text => if text = [] then invalid .emptyReference else reference (.ofList text) true
  | text => reference (.ofList text) false

/-- What `{` starts. -/
def scanReference (cs : List Char) : Token × List Char :=
  match Text.splitWhile (· != '\x7d') cs with
  | (text, _ :: rest) => (ofReferenceText text, rest)
  | (_, []) => (invalid .unterminatedReference, [])

/-! ## Strings -/

/-- The character that a backslash and this one denote. -/
def unescape : Char → Char
  | 'n' => '\n'
  | 't' => '\t'
  | c => c

/-- The content of a string up to its quote, and what follows the quote. -/
def stringContent? (quote : Char) : List Char → Option (List Char × List Char)
  | [] => none
  | c :: cs =>
    if c = quote then
      some ([], cs)
    else if c = '\\' then
      match cs with
      | [] => none
      | escaped :: cs =>
        (stringContent? quote cs).map fun (content, rest) => (unescape escaped :: content, rest)
    else
      (stringContent? quote cs).map fun (content, rest) => (c :: content, rest)

/-- What a quote starts. -/
def scanString (quote : Char) (cs : List Char) : Token × List Char :=
  match stringContent? quote cs with
  | some (content, rest) => (string (.ofList content), rest)
  | none => (invalid .unterminatedString, [])

/-! ## Numbers and names -/

/-- A point and the digits behind it, if there is one in front. -/
def spanFraction : List Char → List Char × List Char
  | '.' :: cs => ('.' :: (Text.splitWhile Char.isDigit cs).1, (Text.splitWhile Char.isDigit cs).2)
  | cs => ([], cs)

/-- A sign, if there is one in front. -/
def spanSign : List Char → List Char × List Char
  | '+' :: cs => (['+'], cs)
  | '-' :: cs => (['-'], cs)
  | cs => ([], cs)

/-- An exponent mark with a sign and digits, if there is a mark in front. -/
def spanExponent : List Char → List Char × List Char
  | [] => ([], [])
  | mark :: cs =>
    if mark = 'e' ∨ mark = 'E' then
      let (sign, cs) := spanSign cs
      let (digits, cs) := Text.splitWhile Char.isDigit cs
      (mark :: sign ++ digits, cs)
    else
      ([], mark :: cs)

/-- The digits of a number whose first character is a digit or its point. -/
def spanMantissa (first : Char) (cs : List Char) : List Char × List Char :=
  if first = '.' then
    let (digits, cs) := Text.splitWhile Char.isDigit cs
    (first :: digits, cs)
  else
    let (digits, cs) := Text.splitWhile Char.isDigit cs
    let (fraction, cs) := spanFraction cs
    (first :: digits ++ fraction, cs)

/-- The characters of a number that starts with `first`. -/
def spanNumber (first : Char) (cs : List Char) : List Char × List Char :=
  let (mantissa, cs) := spanMantissa first cs
  let (exponent, cs) := spanExponent cs
  (mantissa ++ exponent, cs)

/-- The number with these characters. -/
def ofNumberText (text : List Char) : Token :=
  match Decimal.ofChars? text with
  | some d => number (d.toNumber false)
  | none => invalid (.invalidNumber (.ofList text))

/-- A digit, or a point with a digit behind it. -/
def startsNumber (first : Char) (cs : List Char) : Bool :=
  first.isDigit || first == '.' && cs.head?.any Char.isDigit

def isNameStart (c : Char) : Bool := c.isAlpha || c == '_' || c == '$'

def isNamePart (c : Char) : Bool := c.isAlphanum || c == '_' || c == '$' || c == '.'

/-- What any other character starts. -/
def scanWord (first : Char) (cs : List Char) : Token × List Char :=
  if startsNumber first cs then
    let (text, rest) := spanNumber first cs
    (ofNumberText text, rest)
  else if isNameStart first then
    let (text, rest) := Text.splitWhile isNamePart cs
    (name (.ofList (first :: text)), rest)
  else
    (invalid (.unexpectedCharacter first), cs)

/-! ## Tokens -/

/-- The token that starts with `first`, no blank, and what follows it. -/
def scan (first : Char) (cs : List Char) : Token × List Char :=
  match symbolOf? first with
  | some s => (symbol s, cs)
  | none =>
    match first with
    | '¹' => (superscript .one (startsCall cs), cs)
    | '²' => (superscript .two (startsCall cs), cs)
    | '³' => scanThree cs
    | 'ª' => (glyph .nearestOdd (startsCall cs), cs)
    | 'º' => (glyph .nearestEven (startsCall cs), cs)
    | '√' => (glyph .squareRoot (startsCall cs), cs)
    | '=' => scanEquals cs
    | '!' => scanBang cs
    | '<' => scanOrEqual .lessEqual .lessThan cs
    | '>' => scanOrEqual .greaterEqual .greaterThan cs
    | '&' => scanDouble '&' .and .loneAmpersand cs
    | '|' => scanDouble '|' .or .loneBar cs
    | '\x7b' => scanReference cs
    | '"' => scanString '"' cs
    | '\'' => scanString '\'' cs
    | first => scanWord first cs

theorem scanThree_suffix (cs : List Char) : (scanThree cs).2 <:+ cs := by
  unfold scanThree
  split
  · exact List.suffix_cons _ _
  · exact List.suffix_rfl

theorem scanEquals_suffix (cs : List Char) : (scanEquals cs).2 <:+ cs := by
  unfold scanEquals
  split
  · exact (List.suffix_cons _ _).trans (List.suffix_cons _ _)
  · exact List.suffix_cons _ _
  · exact List.suffix_rfl

theorem scanBang_suffix (cs : List Char) : (scanBang cs).2 <:+ cs := by
  unfold scanBang
  split
  · exact (List.suffix_cons _ _).trans (List.suffix_cons _ _)
  · exact List.suffix_cons _ _
  · exact List.suffix_rfl

theorem scanOrEqual_suffix (orEqual plain : Symbol) (cs : List Char) :
    (scanOrEqual orEqual plain cs).2 <:+ cs := by
  unfold scanOrEqual
  split
  · exact List.suffix_cons _ _
  · exact List.suffix_rfl

theorem scanDouble_suffix (c : Char) (double : Symbol) (lone : LexicalFault) (cs : List Char) :
    (scanDouble c double lone cs).2 <:+ cs := by
  unfold scanDouble
  split
  · exact List.suffix_rfl
  · split
    · exact List.suffix_cons _ _
    · exact List.suffix_rfl

theorem scanReference_suffix (cs : List Char) : (scanReference cs).2 <:+ cs := by
  unfold scanReference
  have cut := Text.splitWhile_suffix (· != '\x7d') cs
  split
  next h =>
    rw [h] at cut
    exact (List.suffix_cons _ _).trans cut
  · exact List.nil_suffix

theorem stringContent?_suffix {quote : Char} {cs content rest : List Char}
    (h : stringContent? quote cs = some (content, rest)) : rest <:+ cs := by
  fun_induction stringContent? quote cs generalizing content with
  | case1 => cases h
  | case2 cs =>
    cases h
    exact List.suffix_cons _ _
  | case3 => cases h
  | case4 _ escaped cs ih =>
    obtain ⟨⟨inner, after⟩, found, same⟩ := Option.map_eq_some_iff.1 h
    cases same
    exact (ih found).trans ((List.suffix_cons _ _).trans (List.suffix_cons _ _))
  | case5 c cs _ _ ih =>
    obtain ⟨⟨inner, after⟩, found, same⟩ := Option.map_eq_some_iff.1 h
    cases same
    exact (ih found).trans (List.suffix_cons _ _)

theorem scanString_suffix (quote : Char) (cs : List Char) : (scanString quote cs).2 <:+ cs := by
  unfold scanString
  split
  next h => exact stringContent?_suffix h
  · exact List.nil_suffix

theorem spanFraction_suffix (cs : List Char) : (spanFraction cs).2 <:+ cs := by
  unfold spanFraction
  split
  · exact (Text.splitWhile_suffix _ _).trans (List.suffix_cons _ _)
  · exact List.suffix_rfl

theorem spanSign_suffix (cs : List Char) : (spanSign cs).2 <:+ cs := by
  unfold spanSign
  split
  · exact List.suffix_cons _ _
  · exact List.suffix_cons _ _
  · exact List.suffix_rfl

theorem spanExponent_suffix (cs : List Char) : (spanExponent cs).2 <:+ cs := by
  unfold spanExponent
  split
  · exact List.suffix_rfl
  · split
    · exact (Text.splitWhile_suffix _ _).trans ((spanSign_suffix _).trans (List.suffix_cons _ _))
    · exact List.suffix_rfl

theorem spanMantissa_suffix (first : Char) (cs : List Char) :
    (spanMantissa first cs).2 <:+ cs := by
  unfold spanMantissa
  split
  · exact Text.splitWhile_suffix _ _
  · exact (spanFraction_suffix _).trans (Text.splitWhile_suffix _ _)

theorem spanNumber_suffix (first : Char) (cs : List Char) : (spanNumber first cs).2 <:+ cs :=
  (spanExponent_suffix _).trans (spanMantissa_suffix first cs)

theorem scanWord_suffix (first : Char) (cs : List Char) : (scanWord first cs).2 <:+ cs := by
  unfold scanWord
  split
  · exact spanNumber_suffix first cs
  · split
    · exact Text.splitWhile_suffix _ _
    · exact List.suffix_rfl

/-- What is left after a token is an end of what followed its first character. -/
theorem scan_suffix (first : Char) (cs : List Char) : (scan first cs).2 <:+ cs := by
  unfold scan
  split
  · exact List.suffix_rfl
  · split
    · exact List.suffix_rfl
    · exact List.suffix_rfl
    · exact scanThree_suffix cs
    · exact List.suffix_rfl
    · exact List.suffix_rfl
    · exact List.suffix_rfl
    · exact scanEquals_suffix cs
    · exact scanBang_suffix cs
    · exact scanOrEqual_suffix _ _ cs
    · exact scanOrEqual_suffix _ _ cs
    · exact scanDouble_suffix _ _ _ cs
    · exact scanDouble_suffix _ _ _ cs
    · exact scanReference_suffix cs
    · exact scanString_suffix _ cs
    · exact scanString_suffix _ cs
    · exact scanWord_suffix _ cs

/-- The tokens of a text. -/
def lex (cs : List Char) : List Token :=
  match _trimmed : Text.trimStart cs with
  | [] => []
  | first :: rest => (scan first rest).1 :: lex (scan first rest).2
termination_by cs.length
decreasing_by
  have kept : (first :: rest).length ≤ cs.length := by
    rw [← _trimmed]
    exact (List.dropWhile_suffix _).length_le
  have cut := (scan_suffix first rest).length_le
  rw [List.length_cons] at kept
  omega

end ProductFormula.Token
