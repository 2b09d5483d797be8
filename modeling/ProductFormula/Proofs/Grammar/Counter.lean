/-
  Readers with a counter of levels.

  The readers of expressions are given an allowance and pass on what is left of
  it.  They can be written with one counter for all of them instead, which goes
  up where a level is taken (`enter`) and down where levels are given back
  (`leave`).  A level around a phrase is given back also where the phrase is
  refused; the levels of a chain are not, since a refused chain is left at once.

  Nothing in these readers knows that the counter can go down as far as it is
  told to, or that they end.  Giving back more levels than are in use is a stop of
  its own (`Stop.underflow`), and so is the end of the fuel that the recursion is
  on (`Stop.exhausted`); the counter alone says what is nested too deep.

  * `Meter` is the counter, with the most it has ever been;
  * `Counted.expression` and the readers it is made of, one for each phrase, take
    a reader of nested expressions (`nested`) where they need one;
  * `Method.read` is any of them.
-/
import ProductFormula.Expr.Parser

namespace ProductFormula.Parser

/-- The levels in use, and the most there have been. -/
structure Meter where
  depth : Nat
  peak : Nat
  depth_le_peak : depth ≤ peak

namespace Meter

def start : Meter := ⟨0, 0, Nat.le_refl 0⟩

def up (m : Meter) : Meter := ⟨m.depth + 1, max m.peak (m.depth + 1), Nat.le_max_right _ _⟩

def down (m : Meter) (levels : Nat) : Meter :=
  ⟨m.depth - levels, m.peak, Nat.le_trans (Nat.sub_le _ _) m.depth_le_peak⟩

@[simp] theorem peak_up (m : Meter) : m.up.peak = max m.peak (m.depth + 1) := rfl

@[simp] theorem depth_down (m : Meter) (levels : Nat) :
    (m.down levels).depth = m.depth - levels := rfl

end Meter

/-- Why a reader does not answer. -/
inductive Stop where
  | refused (failure : Failure)
  /-- More levels are given back than are in use. -/
  | underflow
  | exhausted
deriving DecidableEq

/-- A computation that changes the counter, also where it stops. -/
abbrev Counted (α : Type) := EStateM Stop Meter α

namespace Counted

variable {α : Type} {y : Counted α} {a : α} {stop : Stop} {m m' : Meter}

/-! ## Levels -/

def enter (limit : Nat) : Counted Unit := do
  modify Meter.up
  if limit < (← get).depth then
    throw (.refused .tooDeep)

theorem run_enter (limit : Nat) (m : Meter) : (enter limit).run m =
    if limit < m.up.depth then .error (.refused .tooDeep) m.up else .ok () m.up := by
  simp only [enter, EStateM.run_bind, EStateM.run_modify, EStateM.run_get]
  split <;> rfl

def leave (levels : Nat) : Counted Unit := do
  if (← get).depth < levels then
    throw .underflow
  modify (·.down levels)

theorem run_leave (levels : Nat) (m : Meter) : (leave levels).run m =
    if m.depth < levels then .error .underflow m else .ok () (m.down levels) := by
  simp only [leave, EStateM.run_bind, EStateM.run_get]
  split <;> rfl

theorem run_leave_one (h : 0 < m.depth) : (leave 1).run m = .ok () (m.down 1) := by
  rw [run_leave, if_neg (Nat.not_lt.2 h)]

theorem run_leaving_ok (h : y.run m = .ok a m') (hpos : 0 < m'.depth) :
    (tryFinally y (leave 1)).run m = .ok a (m'.down 1) := by
  have hleave : leave 1 m' = .ok () (m'.down 1) := run_leave_one hpos
  change y m = .ok a m' at h
  simp only [tryFinally, tryFinally', EStateM.run, Functor.map, EStateM.map, h, hleave]

theorem run_leaving_error (h : y.run m = .error stop m') (hpos : 0 < m'.depth) :
    (tryFinally y (leave 1)).run m = .error stop (m'.down 1) := by
  have hleave : leave 1 m' = .ok () (m'.down 1) := run_leave_one hpos
  change y m = .error stop m' at h
  simp only [tryFinally, tryFinally', EStateM.run, Functor.map, EStateM.map, h, hleave]

/-- A computation that does not touch the counter. -/
def unmetered : Except Failure α → Counted α
  | .ok a => return a
  | .error failure => throw (.refused failure)

/-! ## Phrases -/

/-- The symbol stands in front. -/
abbrev Begins (s : Symbol) (ts : List Token) : Prop := ts.head? = some (.symbol s)

theorem begins_iff {s : Symbol} {ts : List Token} : Begins s ts ↔ ∃ us, ts = .symbol s :: us :=
  List.head?_eq_some_iff

/-- A reader of one phrase. -/
abbrev Reader := List Token → Counted (Expr × List Token)

def closed (nested : Reader) : Reader := fun ts => do
  let (e, ts) ← nested ts
  let ts ← unmetered (expect .rightParen ts)
  return (e, ts)

def rangeTest (nested : Reader) (operand : Expr) : Reader := fun ts => do
  let ts ← unmetered (expect .leftBracket ts)
  let (min, ts) ← nested ts
  let ts ← unmetered (expect .comma ts)
  let (max, ts) ← nested ts
  let ts ← unmetered (expect .rightBracket ts)
  return (.between operand min max, ts)

def glyphCall (nested : Reader) (g : Glyph) : Reader := fun ts => do
  let ts ← unmetered (expect .leftParen ts)
  let (operand, ts) ← closed nested ts
  return (.glyph g operand, ts)

def selection (nested : Reader) : Reader := fun ts => do
  let ts ← unmetered (expect .leftParen ts)
  let (first, ts) ← nested ts
  if Begins .rightParen ts then
    return (first, ts.tail)
  else
    let ts ← unmetered (expect .comma ts)
    let (chosen, ts) ← nested ts
    let ts ← unmetered (expect .comma ts)
    let (other, ts) ← nested ts
    if Begins .rightParen ts then
      return (.conditional first chosen other, ts.tail)
    else
      unmetered (.error (.malformed .selectionOperands))

/-- One argument at least, as long as commas follow. -/
def arguments (nested : Reader) : (fuel : Nat) → List Token → Counted (List Expr × List Token)
  | 0, _ => throw .exhausted
  | fuel + 1, ts => do
    let (e, ts) ← nested ts
    if Begins .comma ts then
      let (es, ts) ← arguments nested fuel ts.tail
      return (e :: es, ts)
    else
      return ([e], ts)

def functionCall (nested : Reader) (name : String) : Reader := fun ts => do
  let ts ← unmetered (expect .leftParen ts)
  if Begins .rightParen ts then
    return (.call (canonicalName name) [], ts.tail)
  else
    let (args, ts) ← arguments nested (ts.length + 1) ts
    let ts ← unmetered (expect .rightParen ts)
    return (.call (canonicalName name) args, ts)

/-- A name, with its operands if it is called. -/
def word (nested : Reader) (name : String) : Reader := fun ts => do
  if Begins .leftParen ts then
    if name = "SE" then selection nested ts else functionCall nested name ts
  else
    let e ← unmetered (named name)
    return (e, ts)

def primary (nested : Reader) : Reader
  | .number n :: ts => return (.number n, ts)
  | .string s :: ts => return (.string s, ts)
  | .reference name optional :: ts =>
    if Begins .leftBracket ts then
      rangeTest nested (.reference name optional) ts
    else
      return (.reference name optional, ts)
  | .symbol .leftParen :: ts => closed nested ts
  | .superscript s true :: ts => glyphCall nested s.toGlyph ts
  | .glyph g true :: ts => glyphCall nested g ts
  | .superscript s false :: _ => unmetered (.error (.malformed (.notCalled (.superscript s false))))
  | .glyph g false :: _ => unmetered (.error (.malformed (.notCalled (.glyph g false))))
  | .name name :: ts => word nested name ts
  | .invalid fault :: _ => unmetered (.error (.malformed (.lexical fault)))
  | ts => unmetered (.error (.malformed (.unexpected ts.head?)))

/-- Powers, `chained` of which have been read. -/
def powers (limit chained : Nat) (base : Expr) : Reader
  | .superscript s false :: ts => do
    enter limit
    powers limit (chained + 1) (.exponent base s.power) ts
  | ts => do
    leave chained
    return (base, ts)

def powered (limit : Nat) (nested : Reader) : Reader := fun ts => do
  let (base, ts) ← primary nested ts
  powers limit 0 base ts

/-- What is left of a conditional behind its condition, or nothing. -/
def branches (nested : Reader) (condition : Expr) : Reader := fun ts => do
  if Begins .question ts then
    let (chosen, ts) ← nested ts.tail
    let ts ← unmetered (expect .colon ts)
    let (other, ts) ← nested ts
    return (.conditional condition chosen other, ts)
  else
    return (condition, ts)

/-! ## Expressions -/

mutual

def expression (limit fuel : Nat) (ts : List Token) : Counted (Expr × List Token) := do
  enter limit
  match fuel with
  | 0 => throw .exhausted
  | fuel + 1 =>
    try
      ternary limit fuel ts
    finally
      leave 1
termination_by fuel * 32

def ternary (limit fuel : Nat) (ts : List Token) : Counted (Expr × List Token) := do
  let (condition, ts) ← tier limit fuel .or ts
  branches (fun ts => expression limit fuel ts) condition ts
termination_by fuel * 32 + 20
decreasing_by
  · simp only [Tier.rank]
    omega
  · omega

def tier (limit fuel : Nat) (t : Tier) (ts : List Token) : Counted (Expr × List Token) := do
  let (left, ts) ← operand limit fuel t ts
  chain limit fuel t 0 left ts
termination_by fuel * 32 + 2 * t.rank + 7

def operand (limit fuel : Nat) (t : Tier) (ts : List Token) : Counted (Expr × List Token) :=
  match _tighter : t.tighter? with
  | some t' => tier limit fuel t' ts
  | none => unary limit fuel ts
termination_by fuel * 32 + 2 * t.rank + 6
decreasing_by
  · have := Tier.rank_of_tighter? _tighter
    omega
  · omega

/-- Operators and operands, `chained` of which have been read. -/
def chain (limit fuel : Nat) (t : Tier) (chained : Nat) (left : Expr) (ts : List Token) :
    Counted (Expr × List Token) :=
  match operatorOf? t ts with
  | none => do
    leave chained
    return (left, ts)
  | some (op, ts) => do
    enter limit
    match fuel with
    | 0 => throw .exhausted
    | fuel + 1 =>
      let (right, ts) ← operand limit fuel t ts
      chain limit fuel t (chained + 1) (.binary op left right) ts
termination_by fuel * 32 + 1
decreasing_by
  · cases t <;> simp only [Tier.rank] <;> omega
  · omega

def unary (limit fuel : Nat) (ts : List Token) : Counted (Expr × List Token) :=
  match signOf? ts with
  | some (op, ts) => do
    enter limit
    match fuel with
    | 0 => throw .exhausted
    | fuel + 1 =>
      let (operand, ts) ←
        try
          unary limit fuel ts
        finally
          leave 1
      return (.unary op operand, ts)
  | none => powered limit (fun ts => expression limit fuel ts) ts
termination_by fuel * 32 + 2

end

end Counted

/-- The readers that build a tree. -/
inductive Method where
  | expression
  | ternary
  | tier (t : Tier)
  | unary
  | powered
  | primary
  | rangeTest (operand : Expr)
  | glyphCall (g : Glyph)
  | word (name : String)
  | selection
  | functionCall (name : String)

/-- With as much fuel as the limit, however many levels are in use. -/
def Method.read (limit : Nat) : Method → Counted.Reader
  | expression => Counted.expression limit limit
  | ternary => Counted.ternary limit limit
  | tier t => Counted.tier limit limit t
  | unary => Counted.unary limit limit
  | powered => Counted.powered limit (Counted.expression limit limit)
  | primary => Counted.primary (Counted.expression limit limit)
  | rangeTest operand => Counted.rangeTest (Counted.expression limit limit) operand
  | glyphCall g => Counted.glyphCall (Counted.expression limit limit) g
  | word name => Counted.word (Counted.expression limit limit) name
  | selection => Counted.selection (Counted.expression limit limit)
  | functionCall name => Counted.functionCall (Counted.expression limit limit) name

end ProductFormula.Parser
