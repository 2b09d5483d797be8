/-
  Reading an environment from JSON.

  An environment is an object whose members are numbers, booleans and strings;
  anything else, and anything behind the object, is refused.  Of members with
  one name the last one stays.

  A number is read digit by digit into a count of at most 64 bits and a power of
  ten, digits that do not fit being dropped, and the count is then scaled by
  that power (`Json.scaled?`).  Count and power are rounded, and so is their
  product, so a long decimal may miss the number nearest to it by a little.

  * `Json.environment?` reads an environment.
-/
import ProductFormula.Json.Writer

namespace ProductFormula.Json

/-- Blanks between the words of JSON. -/
def isBlank (c : Char) : Bool := c == ' ' || c == '\t' || c == '\n' || c == '\r'

def skipBlanks (cs : List Char) : List Char := cs.dropWhile isBlank

/-! ## Strings -/

def hexDigit? (c : Char) : Option Nat :=
  if c.isDigit then some (c.toNat - '0'.toNat)
  else if 'a' ≤ c ∧ c ≤ 'f' then some (c.toNat - 'a'.toNat + 10)
  else if 'A' ≤ c ∧ c ≤ 'F' then some (c.toNat - 'A'.toNat + 10)
  else none

/-- The value of four hexadecimal digits in front, and what follows them. -/
def hexUnit? : List Char → Option (Nat × List Char)
  | a :: b :: c :: d :: cs => do
    let a ← hexDigit? a
    let b ← hexDigit? b
    let c ← hexDigit? c
    let d ← hexDigit? d
    return (((a * 16 + b) * 16 + c) * 16 + d, cs)
  | _ => none

theorem hexUnit?_length {cs rest : List Char} {unit : Nat} (h : hexUnit? cs = some (unit, rest)) :
    rest.length < cs.length := by
  unfold hexUnit? at h
  split at h
  · simp only [bind, Option.bind_eq_some_iff] at h
    obtain ⟨_, -, _, -, _, -, _, -, h⟩ := h
    cases h
    simp only [List.length_cons]
    omega
  · cases h

/-- The first of two units for one character. -/
def isLeading (unit : Nat) : Bool := 0xd800 ≤ unit && unit < 0xdc00

/-- The second of two units for one character. -/
def isTrailing (unit : Nat) : Bool := 0xdc00 ≤ unit && unit < 0xe000

/-- The character of two units. -/
def joinUnits (leading trailing : Nat) : Char :=
  .ofNat (0x10000 + (leading - 0xd800) * 0x400 + (trailing - 0xdc00))

/-- The character that a backslash and one letter denote. -/
def shortEscape? : Char → Option Char
  | '"' => some '"'
  | '\\' => some '\\'
  | '/' => some '/'
  | 'b' => some '\x08'
  | 'f' => some '\x0c'
  | 'n' => some '\n'
  | 'r' => some '\r'
  | 't' => some '\t'
  | _ => none

/-- The second escape of a character of two units, and what follows it. -/
def trailingUnit? : List Char → Option (Nat × List Char)
  | '\\' :: 'u' :: cs => do
    let (unit, cs) ← hexUnit? cs
    if isTrailing unit then some (unit, cs) else none
  | _ => none

/-- The character whose escape follows `\u`, and what follows it; a character of
    two units takes two escapes. -/
def unicodeEscape? (cs : List Char) : Option (Char × List Char) := do
  let (unit, cs) ← hexUnit? cs
  if isTrailing unit then
    none
  else if isLeading unit then
    let (unit', cs) ← trailingUnit? cs
    return (joinUnits unit unit', cs)
  else
    return (.ofNat unit, cs)

theorem trailingUnit?_length {cs rest : List Char} {unit : Nat}
    (h : trailingUnit? cs = some (unit, rest)) : rest.length < cs.length := by
  unfold trailingUnit? at h
  split at h
  · obtain ⟨⟨unit', after⟩, read, h⟩ := Option.bind_eq_some_iff.1 h
    have := hexUnit?_length read
    dsimp only at h
    split at h
    · cases h
      simp only [List.length_cons]
      omega
    · cases h
  · cases h

theorem unicodeEscape?_length {cs rest : List Char} {c : Char}
    (h : unicodeEscape? cs = some (c, rest)) : rest.length < cs.length := by
  obtain ⟨⟨unit, after⟩, read, h⟩ := Option.bind_eq_some_iff.1 h
  have first := hexUnit?_length read
  dsimp only at h
  split at h
  · cases h
  · split at h
    · obtain ⟨⟨unit', after'⟩, read', h⟩ := Option.bind_eq_some_iff.1 h
      have second := trailingUnit?_length read'
      obtain ⟨-, rfl⟩ := Prod.mk.inj (Option.some.inj h)
      exact Nat.lt_trans second first
    · obtain ⟨-, rfl⟩ := Prod.mk.inj (Option.some.inj h)
      exact first

/-- The content of a string up to its closing quote, and what follows it. -/
def stringContent? : List Char → Option (List Char × List Char)
  | [] => none
  | '"' :: cs => some ([], cs)
  | '\\' :: 'u' :: cs =>
    match _read : unicodeEscape? cs with
    | some (c, cs) => (stringContent? cs).map fun (content, rest) => (c :: content, rest)
    | none => none
  | '\\' :: letter :: cs => do
    let c ← shortEscape? letter
    let (content, rest) ← stringContent? cs
    return (c :: content, rest)
  | c :: cs =>
    if c = '\\' ∨ c.toNat < 0x20 then none
    else (stringContent? cs).map fun (content, rest) => (c :: content, rest)
termination_by cs => cs.length
decreasing_by
  · have := unicodeEscape?_length _read
    simp only [List.length_cons]
    omega
  · simp only [List.length_cons]
    omega
  · simp only [List.length_cons]
    omega

/-! ## Numbers -/

/-- The greatest count of 64 bits. -/
def countBound : Nat := Nat.pow 2 64 - 1

/-- Digits taken into a count while it fits, and the digits left. -/
def absorb (count : Nat) : List Char → Nat × List Char
  | [] => (count, [])
  | c :: cs =>
    let next := count * 10 + (c.toNat - '0'.toNat)
    if next ≤ countBound then absorb next cs else (count, c :: cs)

/-- A power of ten, rounded. -/
def powerOfTen (exponent : Nat) : Number := Decimal.toNumber false ⟨1, exponent⟩

/-- A number scaled by a power of ten in steps of at most `10^308`; none if it
    leaves the range. -/
def scaled? (n : Number) (exponent : Int) : Option Number :=
  if exponent.natAbs ≤ 308 then
    if 0 ≤ exponent then
      match n.mul (powerOfTen exponent.natAbs) with
      | .infinite _ => none
      | product => some product
    else
      some (n.div (powerOfTen exponent.natAbs))
  else if n.isZero then
    some n
  else if 0 ≤ exponent then
    none
  else
    scaled? (n.div (powerOfTen 308)) (exponent + 308)
termination_by exponent.natAbs
decreasing_by omega

/-- The digits behind a point, one at least, and what follows; none but the
    point being there is refused. -/
def fraction? : List Char → Option (List Char × List Char)
  | '.' :: cs =>
    let (digits, rest) := Text.splitWhile Char.isDigit cs
    if digits = [] then none else some (digits, rest)
  | cs => some ([], cs)

/-- A power of ten behind an exponent mark, and what follows. -/
def exponent? : List Char → Option (Int × List Char)
  | [] => none
  | c :: cs =>
    let (negative, cs) := Number.splitSign (c :: cs)
    let (digits, rest) := Text.splitWhile Char.isDigit cs
    let power := Nat.ofDigitChars 10 digits 0
    if digits = [] then none else some (if negative then -power else power, rest)

/-- The number of these whole and fractional digits and this power of ten;
    without the latter two it is a whole number. -/
def numberOf? (whole fraction : List Char) (exponent : Option Int) : Option Number :=
  let (count, dropped) := absorb 0 whole
  let (count, left) := absorb count fraction
  let places := (dropped.length : Int) - (fraction.length - left.length : Nat)
  let n : Number := .nearest false (count * unitsPerOne) 1
  if fraction = [] ∧ dropped = [] ∧ exponent = none then some n
  else scaled? n (places + exponent.getD 0)

/-- An unsigned number and what follows it. -/
def unsigned? (cs : List Char) : Option (Number × List Char) := do
  let (whole, rest) := Text.splitWhile Char.isDigit cs
  if whole = [] ∨ whole.head? = some '0' ∧ whole ≠ ['0'] then
    none
  else
    let (fraction, rest) ← fraction? rest
    match rest with
    | 'e' :: power | 'E' :: power =>
      let (exponent, rest) ← exponent? power
      let n ← numberOf? whole fraction (some exponent)
      return (n, rest)
    | rest =>
      let n ← numberOf? whole fraction none
      return (n, rest)

def number? : List Char → Option (Number × List Char)
  | '-' :: cs => (unsigned? cs).map fun (n, rest) => (n.neg, rest)
  | cs => unsigned? cs

/-! ## Environments -/

/-- A number, boolean or string and what follows it. -/
def value? : List Char → Option (Value × List Char)
  | '"' :: cs => (stringContent? cs).map fun (content, rest) => (.text (.ofList content), rest)
  | 't' :: 'r' :: 'u' :: 'e' :: cs => some (.boolean true, cs)
  | 'f' :: 'a' :: 'l' :: 's' :: 'e' :: cs => some (.boolean false, cs)
  | cs => (number? cs).map fun (n, rest) => (.number n, rest)

/-- A name, a colon and a value, with blanks before each and behind. -/
def member? (cs : List Char) : Option (Binding × List Char) :=
  match skipBlanks cs with
  | '"' :: cs => do
    let (name, cs) ← stringContent? cs
    match skipBlanks cs with
    | ':' :: cs =>
      let (v, cs) ← value? (skipBlanks cs)
      return ((.ofList name, v), skipBlanks cs)
    | _ => none
  | _ => none

/-- Members with commas between them up to the closing brace, `bound` of them at
    most, and what follows. -/
def members? : (bound : Nat) → List Char → Option (List Binding × List Char)
  | 0, _ => none
  | bound + 1, cs => do
    let (first, cs) ← member? cs
    match cs with
    | ',' :: cs =>
      let (others, cs) ← members? bound cs
      return (first :: others, cs)
    | '\x7d' :: cs => return ([first], cs)
    | _ => none

/-- The bindings of an object, and what follows it; a member takes more than one
    character. -/
def bindings? (cs : List Char) : Option (List Binding × List Char) :=
  match skipBlanks cs with
  | '\x7b' :: cs =>
    match skipBlanks cs with
    | '\x7d' :: cs => some ([], cs)
    | cs => members? cs.length cs
  | _ => none

/-- The environment that a text is. -/
def environment? (cs : List Char) : Option Environment := do
  let (bindings, rest) ← bindings? cs
  if skipBlanks rest = [] then some (.ofList bindings) else none

end ProductFormula.Json
