/-
  The parser of expressions.

  Precedence, loosest first: the conditional `? :`, then the tiers of binary
  operators (`Tier`), which group to the left, then signs, superscript powers,
  and at last literals, references, calls and parentheses (`primary`).

  Nesting is paid for from an allowance: an expression, a sign, and every
  operator or power of a chain after the first operand take one level of what
  they are given, and give it back when they end.  The allowance left is an
  argument (`room`), so it bounds the tree and the recursion alike.

  * `expression` reads the longest expression in front of a list of tokens;
  * `Expr.parse` reads a whole text.
-/
import ProductFormula.Error
import ProductFormula.Function.Name
import ProductFormula.Token.Lexer

namespace ProductFormula

/-! ## Failures -/

/-- Why tokens form no expression. -/
inductive ParseError where
  | unexpected (found : Option Token)
  /-- Something stands behind the expression. -/
  | trailing (found : Token)
  | expected (symbol : Symbol) (found : Option Token)
  /-- A superscript or glyph that is no call stands where an operand should. -/
  | notCalled (glyph : Token)
  | unknownName (name : String)
  /-- `SE` has two operands, or more than three. -/
  | selectionOperands
  | lexical (fault : LexicalFault)
deriving DecidableEq

def ParseError.message : ParseError → String
  | unexpected found => "Unexpected " ++ Token.describe? found
  | trailing found => "Unexpected " ++ found.describe ++ " after expression"
  | expected symbol found =>
    "Expected '" ++ symbol.spelling ++ "', found " ++ Token.describe? found
  | notCalled glyph => "Glyph " ++ glyph.describe ++ " must be followed by '('"
  | unknownName name => "Unknown name '" ++ name ++ "'"
  | selectionOperands => "SE expects a single expression or (condition, then, else)"
  | lexical fault => fault.message

namespace Parser

inductive Failure where
  | malformed (error : ParseError)
  /-- The allowance is used up. -/
  | tooDeep
deriving DecidableEq

def Failure.toError (limit : Nat) : Failure → Error
  | malformed error => .parse error.message
  | tooDeep => .depthExceeded limit

/-- A reader of one phrase: it answers with a tree and the tokens after it. -/
abbrev Phrase := List Token → Except Failure (Expr × List Token)

/-! ## Phrases around nested expressions -/

/-- The tokens after a symbol. -/
def expect (s : Symbol) : List Token → Except Failure (List Token)
  | .symbol s' :: ts =>
    if s' = s then .ok ts else .error (.malformed (.expected s (some (.symbol s'))))
  | ts => .error (.malformed (.expected s ts.head?))

/-- A phrase up to its closing parenthesis. -/
def closed (nested : Phrase) : Phrase := fun ts => do
  let (e, ts) ← nested ts
  let ts ← expect .rightParen ts
  return (e, ts)

/-- A phrase in parentheses. -/
def parenthesised (nested : Phrase) : Phrase := fun ts => do
  let ts ← expect .leftParen ts
  closed nested ts

/-- What follows a reference: the bounds of a range test, or nothing. -/
def rangeTest (nested : Phrase) (operand : Expr) : Phrase
  | .symbol .leftBracket :: ts => do
    let (min, ts) ← nested ts
    let ts ← expect .comma ts
    let (max, ts) ← nested ts
    let ts ← expect .rightBracket ts
    return (.between operand min max, ts)
  | ts => return (operand, ts)

/-- What follows `SE(`: one expression, or a condition and two. -/
def selection (nested : Phrase) : Phrase := fun ts => do
  let (first, ts) ← nested ts
  match ts with
  | .symbol .rightParen :: ts => return (first, ts)
  | ts =>
    let ts ← expect .comma ts
    let (chosen, ts) ← nested ts
    let ts ← expect .comma ts
    let (other, ts) ← nested ts
    match ts with
    | .symbol .rightParen :: ts => return (.conditional first chosen other, ts)
    | _ => throw (.malformed .selectionOperands)

/-- Phrases with commas between them, `bound` of them at most. -/
def separated (nested : Phrase) :
    (bound : Nat) → List Token → Except Failure (List Expr × List Token)
  | 0, ts => .error (.malformed (.unexpected ts.head?))
  | bound + 1, ts => do
    let (e, ts) ← nested ts
    match ts with
    | .symbol .comma :: ts =>
      let (es, ts) ← separated nested bound ts
      return (e :: es, ts)
    | ts => return ([e], ts)

/-- What follows the opening parenthesis of a call; each argument but the first
    takes two tokens at least, so there are fewer of them than the bound. -/
def arguments (nested : Phrase) : List Token → Except Failure (List Expr × List Token)
  | .symbol .rightParen :: ts => return ([], ts)
  | ts => do
    let (args, ts) ← separated nested (ts.length + 1) ts
    let ts ← expect .rightParen ts
    return (args, ts)

/-- A name that is no call. -/
def named (name : String) : Except Failure Expr :=
  if name = "true" then .ok (.boolean true)
  else if name = "false" then .ok (.boolean false)
  else
    match constant? name with
    | some n => .ok (.number n)
    | none => .error (.malformed (.unknownName name))

/-- An operand without signs and powers. -/
def primary (nested : Phrase) : Phrase
  | .number n :: ts => return (.number n, ts)
  | .string s :: ts => return (.string s, ts)
  | .reference name optional :: ts => rangeTest nested (.reference name optional) ts
  | .symbol .leftParen :: ts => closed nested ts
  | .superscript s true :: ts => do
    let (operand, ts) ← parenthesised nested ts
    return (.glyph s.toGlyph operand, ts)
  | .glyph g true :: ts => do
    let (operand, ts) ← parenthesised nested ts
    return (.glyph g operand, ts)
  | .superscript s false :: _ => .error (.malformed (.notCalled (.superscript s false)))
  | .glyph g false :: _ => .error (.malformed (.notCalled (.glyph g false)))
  | .name name :: .symbol .leftParen :: ts =>
    if name = "SE" then
      selection nested ts
    else do
      let (args, ts) ← arguments nested ts
      return (.call (canonicalName name) args, ts)
  | .name name :: ts => do
    let e ← named name
    return (e, ts)
  | .invalid fault :: _ => .error (.malformed (.lexical fault))
  | ts => .error (.malformed (.unexpected ts.head?))

/-- The powers behind a base, each one level deeper. -/
def powers (room : Nat) (base : Expr) : Phrase
  | .superscript s false :: ts =>
    match room with
    | 0 => .error .tooDeep
    | room + 1 => powers room (.exponent base s.power) ts
  | ts => return (base, ts)

/-! ## Operators -/

/-- Binary operators of one precedence. -/
inductive Tier where
  | or
  | and
  | equality
  | relational
  | additive
  | multiplicative
deriving DecidableEq

namespace Tier

/-- The tier that binds tighter; none below the signs. -/
def tighter? : Tier → Option Tier
  | or => some and
  | and => some equality
  | equality => some relational
  | relational => some additive
  | additive => some multiplicative
  | multiplicative => none

/-- How many tiers bind tighter. -/
def rank : Tier → Nat
  | or => 5
  | and => 4
  | equality => 3
  | relational => 2
  | additive => 1
  | multiplicative => 0

def operator? : Tier → Symbol → Option BinaryOp
  | or, .or => some .or
  | and, .and => some .and
  | equality, .equal => some .equal
  | equality, .notEqual => some .notEqual
  | equality, .strictEqual => some .strictEqual
  | equality, .strictNotEqual => some .strictNotEqual
  | relational, .lessThan => some .lessThan
  | relational, .lessEqual => some .lessEqual
  | relational, .greaterThan => some .greaterThan
  | relational, .greaterEqual => some .greaterEqual
  | additive, .plus => some .add
  | additive, .minus => some .subtract
  | multiplicative, .star => some .multiply
  | multiplicative, .slash => some .divide
  | multiplicative, .percent => some .modulo
  | _, _ => none

theorem rank_of_tighter? {t t' : Tier} (h : t.tighter? = some t') : t.rank = t'.rank + 1 := by
  cases t <;> cases h <;> rfl

end Tier

/-- The operator of a tier in front, and what follows it. -/
def operatorOf? (t : Tier) : List Token → Option (BinaryOp × List Token)
  | .symbol s :: ts => (t.operator? s).map fun op => (op, ts)
  | _ => none

/-- A sign in front, and what follows it. -/
def signOf? : List Token → Option (UnaryOp × List Token)
  | .symbol .minus :: ts => some (.negate, ts)
  | .symbol .plus :: ts => some (.plus, ts)
  | .symbol .bang :: ts => some (.not, ts)
  | _ => none

/-! ## Expressions -/

mutual

/-- An expression, one level deep. -/
def expression (room : Nat) (ts : List Token) : Except Failure (Expr × List Token) :=
  match room with
  | 0 => .error .tooDeep
  | room + 1 => do
    let (condition, ts) ← tier .or room ts
    match ts with
    | .symbol .question :: ts =>
      let (chosen, ts) ← expression room ts
      let ts ← expect .colon ts
      let (other, ts) ← expression room ts
      return (.conditional condition chosen other, ts)
    | ts => return (condition, ts)
termination_by room * 32
decreasing_by
  · simp only [Tier.rank]
    omega
  · omega
  · omega

/-- Operands with the operators of a tier between them. -/
def tier (t : Tier) (room : Nat) (ts : List Token) : Except Failure (Expr × List Token) := do
  let (left, ts) ← operand t room ts
  chain t room left ts
termination_by room * 32 + 2 * t.rank + 7

/-- What the operators of a tier stand between. -/
def operand (t : Tier) (room : Nat) (ts : List Token) : Except Failure (Expr × List Token) :=
  match _tighter : t.tighter? with
  | some t' => tier t' room ts
  | none => unary room ts
termination_by room * 32 + 2 * t.rank + 6
decreasing_by
  · have := Tier.rank_of_tighter? _tighter
    omega
  · omega

/-- The rest of a chain after its first operands, each operator one level
    deeper than the one before. -/
def chain (t : Tier) (room : Nat) (left : Expr) (ts : List Token) :
    Except Failure (Expr × List Token) :=
  match operatorOf? t ts with
  | none => .ok (left, ts)
  | some (op, ts) =>
    match room with
    | 0 => .error .tooDeep
    | room + 1 => do
      let (right, ts) ← operand t room ts
      chain t room (.binary op left right) ts
termination_by room * 32 + 1
decreasing_by
  · cases t <;> simp only [Tier.rank] <;> omega
  · omega

/-- Signs, each one level deep, and an operand with its powers. -/
def unary (room : Nat) (ts : List Token) : Except Failure (Expr × List Token) :=
  match signOf? ts with
  | some (op, ts) =>
    match room with
    | 0 => .error .tooDeep
    | room + 1 => do
      let (operand, ts) ← unary room ts
      return (.unary op operand, ts)
  | none => do
    let (base, ts) ← primary (fun ts => expression room ts) ts
    powers room base ts
termination_by room * 32 + 2

end

end Parser

namespace Expr

/-- The nesting allowed where nothing else is said. -/
def defaultDepth : Nat := 128

/-- The expression that a text is, nesting no deeper than the limit. -/
def parse (limit : Nat) (text : String) : Except Error Expr :=
  match Parser.expression limit (Token.lex text.toList) with
  | .ok (e, []) => .ok e
  | .ok (_, token :: _) => .error (.parse (ParseError.trailing token).message)
  | .error failure => .error (failure.toError limit)

end Expr

end ProductFormula
