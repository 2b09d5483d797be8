/-
  Colouring a formula in an editor.

  A formula's text, line breaks and comments included, is cut into pieces of one
  kind each (`Highlight.pieces`).  Nothing is refused and nothing lost: what is
  not recognised is text, and the pieces joined are the source.

  * A piece depends on where in its statement it starts (`Place`): comments and
    text returns start statements, and what follows `=#` is text up to the end
    of the statement;
  * `Highlight.cut` takes the piece in front off a text;
  * `highlight` gives the pieces with their places in bytes.
-/
import ProductFormula.Text.Blank
import ProductFormula.Text.Split

namespace ProductFormula

namespace Highlight

/-- What a piece is. -/
inductive Kind where
  /-- `// ...` up to the end of the statement -/
  | comment
  | number
  /-- `{NAME}` -/
  | replacement
  /-- `[NAME]` -/
  | assigned
  | operator
  /-- `SE` before its parenthesis -/
  | keyword
  /-- `;` -/
  | separator
  | whitespace
  | text
deriving DecidableEq

def Kind.label : Kind → String
  | comment => "comment"
  | number => "number"
  | replacement => "replacement"
  | assigned => "variable"
  | operator => "operator"
  | keyword => "keyword"
  | separator => "separator"
  | whitespace => "whitespace"
  | text => "text"

/-- Where in its statement a piece starts. -/
inductive Place where
  /-- only blanks before it -/
  | opening
  /-- right behind `=#` -/
  | payload
  | inside
deriving DecidableEq

/-! ## One piece -/

/-- A piece in front: its kind, the place behind it, its characters after the
    first, and the rest of the text. -/
structure Cut where
  kind : Kind
  next : Place
  tail : List Char
  rest : List Char

/-- The piece ends before the first character that fails the test. -/
def Cut.while (kind : Kind) (next : Place) (p : Char → Bool) (cs : List Char) : Cut :=
  let (tail, rest) := Text.splitWhile p cs
  ⟨kind, next, tail, rest⟩

/-- The piece is a single character. -/
def Cut.single (kind : Kind) (next : Place) (cs : List Char) : Cut := ⟨kind, next, [], cs⟩

/-- Characters up to the closing one, or to the end of the statement. -/
def closing (close : Char) (cs : List Char) : List Char × List Char :=
  match Text.splitWhile (fun c => c != ';' && c != close) cs with
  | (tail, c :: rest) => if c = close then (tail ++ [c], rest) else (tail, c :: rest)
  | (tail, []) => (tail, [])

/-- The piece ends with the closing character. -/
def Cut.closed (kind : Kind) (close : Char) (cs : List Char) : Cut :=
  let (tail, rest) := closing close cs
  ⟨kind, .inside, tail, rest⟩

/-- Symbols that run together. -/
def isRunning (c : Char) : Bool := "<>=!&|".toList.contains c

/-- All symbols and brackets of expressions. -/
def isOperator (c : Char) : Bool := "+-*/%<>=!&|?:(),¹²³ªº√[]".toList.contains c

/-- A digit, or a point with a digit behind it. -/
def startsNumber (first : Char) (cs : List Char) : Bool :=
  first.isDigit || first == '.' && cs.head?.any Char.isDigit

/-- Brackets with a comma inside are a range, others hold a name. -/
def isNameBracket (cs : List Char) : Bool := !(closing ']' cs).1.contains ','

def isWordStart (c : Char) : Bool := c.isAlphanum || c == '_'

/-- The piece that starts with `first`, in the middle of a statement. -/
def cutInside (first : Char) (cs : List Char) : Cut :=
  if first = '\x7b' then .closed .replacement '\x7d' cs
  else if first = '[' ∧ isNameBracket cs then .closed .assigned ']' cs
  else if startsNumber first cs then .while .number .inside (fun c => c.isDigit || c == '.') cs
  else if first = 'S' ∧ ['E', '('].isPrefixOf cs then ⟨.keyword, .inside, ['E'], cs.drop 1⟩
  else if isRunning first then .while .operator .inside isRunning cs
  else if isOperator first then .single .operator .inside cs
  else if isWordStart first then
    .while .text .inside (fun c => c.isAlphanum || c == '_' || c == '.') cs
  else .single .text .inside cs

/-- The piece that starts with `first`. -/
def cut (place : Place) (first : Char) (cs : List Char) : Cut :=
  if first = ';' then .single .separator .opening cs
  else if place = .payload then .while .text .inside (· != ';') cs
  else if Text.isBlank first then .while .whitespace place Text.isBlank cs
  else if place = .opening ∧ first = '/' ∧ cs.head? = some '/' then
    .while .comment .inside (· != ';') cs
  else if place = .opening ∧ first = '=' ∧ cs.head? = some '#' then
    ⟨.operator, .payload, ['#'], cs.drop 1⟩
  else cutInside first cs

theorem while_append (kind : Kind) (next : Place) (p : Char → Bool) (cs : List Char) :
    (Cut.while kind next p cs).tail ++ (Cut.while kind next p cs).rest = cs :=
  Text.splitWhile_append p cs

theorem closing_append (close : Char) (cs : List Char) :
    (closing close cs).1 ++ (closing close cs).2 = cs := by
  have whole := Text.splitWhile_append (fun c => c != ';' && c != close) cs
  unfold closing
  split
  next h =>
    rw [h] at whole
    split
    · rw [List.append_assoc]
      exact whole
    · exact whole
  next h =>
    rw [h] at whole
    exact whole

theorem cutInside_append (first : Char) (cs : List Char) :
    (cutInside first cs).tail ++ (cutInside first cs).rest = cs := by
  unfold cutInside
  split
  · exact closing_append _ cs
  · split
    · exact closing_append _ cs
    · split
      · exact while_append _ _ _ cs
      · split
        next h =>
          obtain ⟨rest, rfl⟩ := List.isPrefixOf_iff_prefix.1 h.2
          rfl
        · split
          · exact while_append _ _ _ cs
          · split
            · rfl
            · split
              · exact while_append _ _ _ cs
              · rfl

/-- A piece and the rest are the text. -/
theorem cut_append (place : Place) (first : Char) (cs : List Char) :
    (cut place first cs).tail ++ (cut place first cs).rest = cs := by
  unfold cut
  split
  · rfl
  · split
    · exact while_append _ _ _ cs
    · split
      · exact while_append _ _ _ cs
      · split
        · exact while_append _ _ _ cs
        · split
          next h =>
            obtain ⟨rest, rfl⟩ := List.head?_eq_some_iff.1 h.2.2
            rfl
          · exact cutInside_append first cs

/-! ## All pieces -/

/-- The pieces of a text that starts at a place. -/
def pieces (place : Place) : List Char → List (Kind × List Char)
  | [] => []
  | first :: cs =>
    let piece := cut place first cs
    (piece.kind, first :: piece.tail) :: pieces piece.next piece.rest
termination_by cs => cs.length
decreasing_by
  have whole := congrArg List.length (cut_append place first cs)
  rw [List.length_append] at whole
  simp only [List.length_cons]
  omega

/-- A piece of a source and the byte where it starts. -/
structure Span where
  kind : Kind
  text : String
  start : Nat
deriving DecidableEq

/-- The byte behind a piece. -/
def Span.stop (span : Span) : Nat := span.start + span.text.utf8ByteSize

/-- Pieces placed one behind the other. -/
def placed (start : Nat) : List (Kind × List Char) → List Span
  | [] => []
  | (kind, cs) :: rest =>
    let span : Span := ⟨kind, .ofList cs, start⟩
    span :: placed span.stop rest

end Highlight

/-- The pieces of a source in order. -/
def highlight (source : String) : List Highlight.Span :=
  Highlight.placed 0 (Highlight.pieces .opening source.toList)

end ProductFormula
