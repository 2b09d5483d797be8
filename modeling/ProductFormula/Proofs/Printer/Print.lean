/-
  Printing expressions.

  A tree is printed with the fewest parentheses: an operand that is a looser
  phrase (`Expr.category`) than its position takes is put in parentheses
  (`within`), every other one stands as it is.  The same rule gives the tokens
  (`Expr.tokens`) and the characters (`Expr.chars`) of a printed tree.

  * `Expr.WellFormed`: the trees that have a printed form, with a condition on
    their numbers left open;
  * `Expr.derives_tokens`: the tokens of a printed tree derive the tree.
-/
import ProductFormula.Proofs.Grammar.Derivation
import ProductFormula.Proofs.Text.Letters

namespace ProductFormula

open Grammar

/-! ## Signs of single tokens -/

/-- The superscript of a power from one to three. -/
def Superscript.ofPower : Nat → Superscript
  | 1 => one
  | 2 => two
  | _ => three

/-- A glyph before a parenthesis. -/
def Glyph.token : Glyph → Token
  | round => .superscript .one true
  | ceil => .superscript .two true
  | floor => .superscript .three true
  | g => .glyph g true

/-- The numbers that can be written: a clear sign, and not NaN. -/
def Number.Unsigned : Number → Prop
  | nan => False
  | infinite negative | finite negative _ _ => negative = false

/-- Infinity and NaN are written as names. -/
def Number.token : Number → Token
  | nan => .name "NaN"
  | infinite _ => .name "Infinity"
  | n => .number n

/-- A character of a string, with a backslash before quotes and backslashes. -/
def backslashed (c : Char) : List Char := if c = '"' ∨ c = '\\' then ['\\', c] else [c]

/-- A string between quotes. -/
def quoted (s : String) : List Char := '"' :: (s.toList.flatMap backslashed ++ ['"'])

/-- A reference in braces. -/
def braced (name : String) (optional : Bool) : List Char :=
  '\x7b' :: ((if optional then '^' :: name.toList else name.toList) ++ ['\x7d'])

namespace Expr

/-! ## Parentheses -/

/-- The tightest category a printed tree belongs to. -/
def category : Expr → Category
  | exponent _ _ => .powered
  | unary _ _ => .signed
  | binary op _ _ => .tier op.tier
  | conditional _ _ _ => .expression
  | _ => .primary

/-- What is printed for an operand where a phrase of the category is due. -/
def within {α : Type} (left right : α) (c : Category) (e : Expr) (printed : List α) : List α :=
  if e.category.looseness ≤ c.looseness then printed else left :: (printed ++ [right])

/-! ## Tokens -/

/-- An operand among tokens. -/
abbrev parenthesised (c : Category) (e : Expr) (ts : List Token) : List Token :=
  within (.symbol .leftParen) (.symbol .rightParen) c e ts

mutual

/-- The tokens of a printed tree. -/
def tokens : Expr → List Token
  | number n => [n.token]
  | string s => [.string s]
  | boolean b => [.name (if b then "true" else "false")]
  | reference name optional => [.reference name optional]
  | between operand min max =>
    operand.tokens ++ .symbol .leftBracket ::
      (min.tokens ++ .symbol .comma :: (max.tokens ++ [.symbol .rightBracket]))
  | glyph g operand =>
    g.token :: .symbol .leftParen :: (operand.tokens ++ [.symbol .rightParen])
  | exponent base power =>
    parenthesised .powered base base.tokens ++ [.superscript (.ofPower power) false]
  | binary op left right =>
    parenthesised (.tier op.tier) left left.tokens ++ .symbol op.symbol ::
      parenthesised (operands op.tier) right right.tokens
  | unary op operand => .symbol op.symbol :: parenthesised .signed operand operand.tokens
  | conditional condition chosen other =>
    parenthesised (.tier .or) condition condition.tokens ++ .symbol .question ::
      (chosen.tokens ++ .symbol .colon :: other.tokens)
  | call name args =>
    .name ("Math." ++ name) :: .symbol .leftParen ::
      ([.symbol .comma].intercalate (allTokens args) ++ [.symbol .rightParen])

def allTokens : List Expr → List (List Token)
  | [] => []
  | e :: es => e.tokens :: allTokens es

end

/-! ## Characters -/

/-- An operand among characters. -/
abbrev bracketed (c : Category) (e : Expr) (cs : List Char) : List Char := within '(' ')' c e cs

mutual

/-- The characters of a printed tree: blanks around the binary operators, `?`
    and `:`, functions with `Math.` in front. -/
def chars : Expr → List Char
  | number n => n.chars
  | string s => quoted s
  | boolean b => (if b then "true" else "false").toList
  | reference name optional => braced name optional
  | between operand min max =>
    operand.chars ++ '[' :: (min.chars ++ ',' :: (max.chars ++ [']']))
  | glyph g operand => g.symbol.toList ++ '(' :: (operand.chars ++ [')'])
  | exponent base power =>
    bracketed .powered base base.chars ++ (Superscript.ofPower power).symbol.toList
  | binary op left right =>
    bracketed (.tier op.tier) left left.chars ++ ' ' :: (op.symbol.spelling.toList ++ ' ' ::
      bracketed (operands op.tier) right right.chars)
  | unary op operand => op.symbol.spelling.toList ++ bracketed .signed operand operand.chars
  | conditional condition chosen other =>
    bracketed (.tier .or) condition condition.chars ++ ' ' :: '?' :: ' ' ::
      (chosen.chars ++ ' ' :: ':' :: ' ' :: other.chars)
  | call name args =>
    "Math.".toList ++ (name.toList ++ '(' :: ([','].intercalate (allChars args) ++ [')']))

def allChars : List Expr → List (List Char)
  | [] => []
  | e :: es => e.chars :: allChars es

end

/-- The printed form of a tree. -/
def print (e : Expr) : String := .ofList e.chars

/-! ## Trees with a printed form -/

/-- A character of a function's name: capitals, digits and `_$.` -/
def isCapitalPart (c : Char) : Bool := c.isUpper || c.isDigit || c == '_' || c == '$' || c == '.'

/-- The tree could have been parsed, if its numbers could. -/
inductive WellFormed (literal : Number → Prop) : Expr → Prop
  | number {n} : literal n → WellFormed literal (.number n)
  | string {s} : WellFormed literal (.string s)
  | boolean {b} : WellFormed literal (.boolean b)
  | reference {name optional} : name ≠ "" → '\x7d' ∉ name.toList →
      (optional = false → name.toList.head? ≠ some '^') →
      WellFormed literal (.reference name optional)
  /-- only references are tested for a range -/
  | between {name optional min max} : WellFormed literal (.reference name optional) →
      WellFormed literal min → WellFormed literal max →
      WellFormed literal (.between (.reference name optional) min max)
  | glyph {g operand} : WellFormed literal operand → WellFormed literal (.glyph g operand)
  | exponent {base power} : power = 1 ∨ power = 2 ∨ power = 3 → WellFormed literal base →
      WellFormed literal (.exponent base power)
  | binary {op left right} : WellFormed literal left → WellFormed literal right →
      WellFormed literal (.binary op left right)
  | unary {op operand} : WellFormed literal operand → WellFormed literal (.unary op operand)
  | conditional {condition chosen other} : WellFormed literal condition →
      WellFormed literal chosen → WellFormed literal other →
      WellFormed literal (.conditional condition chosen other)
  | call {name args} : (∀ c ∈ name.toList, isCapitalPart c) →
      (∀ arg ∈ args, WellFormed literal arg) → WellFormed literal (.call name args)

/-! ## Names of functions -/

/-- Nothing in the name of a function is a small letter or stands behind them. -/
theorem toNat_lt_of_isCapitalPart {c : Char} (h : isCapitalPart c) : c.toNat < 'a'.toNat := by
  simp only [isCapitalPart, Bool.or_eq_true, Text.isUpper_iff_toNat, Char.isDigit_iff_toNat,
    beq_iff_eq] at h
  rcases h with (((⟨-, h⟩ | ⟨-, h⟩) | rfl) | rfl) | rfl
  · exact Nat.lt_of_le_of_lt h (by decide)
  · exact Nat.lt_of_le_of_lt h (by decide)
  · decide
  · decide
  · decide

theorem capital_of_isCapitalPart {c : Char} (h : isCapitalPart c) : Text.capital c = [c] := by
  have hlt := toNat_lt_of_isCapitalPart h
  rw [Text.capital, if_pos (Nat.lt_trans hlt (by decide)), Text.toUpper_eq_self hlt]

theorem flatMap_capital {cs : List Char} (h : ∀ c ∈ cs, isCapitalPart c) :
    cs.flatMap Text.capital = cs := by
  induction cs with
  | nil => rfl
  | cons c cs ih =>
    rw [List.flatMap_cons, capital_of_isCapitalPart (h c List.mem_cons_self),
      ih fun c hc => h c (List.mem_cons_of_mem _ hc), List.singleton_append]

/-- A function's name is known as it is printed, without `Math.` -/
theorem canonicalName_math {name : String} (h : ∀ c ∈ name.toList, isCapitalPart c) :
    canonicalName ("Math." ++ name) = name := by
  have hdrop : dropMath ("Math." ++ name).toList = name.toList := by
    rw [String.toList_append]
    rfl
  rw [canonicalName, hdrop, Text.upperCase, String.toList_ofList, flatMap_capital h,
    String.ofList_toList]

theorem math_ne_selection (name : String) : "Math." ++ name ≠ "SE" := by
  intro h
  have hchars := congrArg String.toList h
  simp at hchars

/-! ## The tokens derive the tree -/

theorem allTokens_eq_map (es : List Expr) : allTokens es = es.map tokens := by
  induction es with
  | nil => rfl
  | cons e es ih => rw [allTokens, ih, List.map_cons]

theorem allChars_eq_map (es : List Expr) : allChars es = es.map chars := by
  induction es with
  | nil => rfl
  | cons e es ih => rw [allChars, ih, List.map_cons]

/-- An operand in its parentheses is a phrase of the category that is due. -/
theorem derives_parenthesised (c : Category) {e : Expr} {ts : List Token}
    (h : Derives e.category ts e) : Derives c (parenthesised c e ts) e := by
  unfold parenthesised within
  split
  next hle => exact h.loosen hle
  next hlt =>
    have hexpression : Derives .expression ts e := h.loosen (Category.looseness_le _)
    exact hexpression.group.loosen (Nat.zero_le _)

theorem derives_glyph {g : Glyph} {ts : List Token} {e : Expr} (h : Derives .expression ts e) :
    Derives .primary (g.token :: .symbol .leftParen :: (ts ++ [.symbol .rightParen]))
      (.glyph g e) := by
  cases g with
  | round => exact .rounding (s := .one) h
  | ceil => exact .rounding (s := .two) h
  | floor => exact .rounding (s := .three) h
  | nearestOdd | nearestEven | squareRoot | cubeRoot => exact .glyph h

theorem derives_number {n : Number} (h : n.Unsigned) : Derives .primary [n.token] (.number n) := by
  cases n with
  | nan => exact h.elim
  | infinite negative =>
    obtain rfl : negative = false := h
    exact .constant rfl
  | finite => exact .number

/-- **The tokens of a printed tree derive the tree.** -/
theorem derives_tokens {e : Expr} (h : WellFormed Number.Unsigned e) :
    Derives e.category e.tokens e := by
  induction h with
  | number hn => exact derives_number hn
  | string => exact .string
  | @boolean b =>
    cases b
    · exact .falseWord
    · exact .trueWord
  | reference => exact .reference
  | between _ _ _ _ ihMin ihMax =>
    exact .range (ihMin.loosen (Category.looseness_le _)) (ihMax.loosen (Category.looseness_le _))
  | glyph _ ih => exact derives_glyph (ih.loosen (Category.looseness_le _))
  | @exponent base power hpower _ ih =>
    have hbase := derives_parenthesised .powered ih
    rcases hpower with rfl | rfl | rfl
    · exact .power (s := .one) hbase
    · exact .power (s := .two) hbase
    · exact .power (s := .three) hbase
  | binary _ _ ihLeft ihRight =>
    exact .operation (derives_parenthesised _ ihLeft) (derives_parenthesised _ ihRight)
  | unary _ ih => exact .sign (derives_parenthesised _ ih)
  | conditional _ _ _ ihCondition ihChosen ihOther =>
    exact .conditional (derives_parenthesised _ ihCondition)
      (ihChosen.loosen (Category.looseness_le _)) (ihOther.loosen (Category.looseness_le _))
  | @call name args hname _ ih =>
    have hargs : ∀ arg ∈ args.map fun arg => (arg.tokens, arg), Derives .expression arg.1 arg.2 :=
      List.forall_mem_map.2 fun arg harg => (ih arg harg).loosen (Category.looseness_le _)
    have hcall := Derives.call (math_ne_selection name) hargs
    simpa [category, tokens, allTokens_eq_map, canonicalName_math hname, Function.comp_def]
      using hcall

end Expr

end ProductFormula
