/-
  References in a text.

  A text is read for references without regard to its other syntax: from an
  opening brace with something behind it up to the next closing brace
  (`Segment.ofText`).  A brace directly followed by a closing one, and one that
  nothing closes, stand for themselves.

  * `requiredNames` are the names of the references that have to be bound;
  * `interpolate` puts the values in the place of the references, in one pass:
    what is put in is not read again.
-/
import ProductFormula.Expr.Evaluation
import ProductFormula.Text.Split

namespace ProductFormula

/-- A character that stands for itself, or what stands between braces. -/
inductive Segment where
  | plain (c : Char)
  | braced (inner : List Char)
deriving DecidableEq

namespace Segment

def ofText : List Char → List Segment
  | [] => []
  | c :: cs =>
    if c = '\x7b' then
      match _cut : Text.splitWhile (· != '\x7d') cs with
      | (first :: inner, _ :: rest) => .braced (first :: inner) :: ofText rest
      | _ => .plain c :: ofText cs
    else
      .plain c :: ofText cs
termination_by cs => cs.length
decreasing_by
  · have shorter := (Text.splitWhile_suffix (· != '\x7d') cs).length_le
    rw [_cut] at shorter
    simp only [List.length_cons] at shorter ⊢
    omega
  · simp only [List.length_cons, Nat.lt_add_one]
  · simp only [List.length_cons, Nat.lt_add_one]

/-- The name of a reference that has to be bound, if this is one. -/
def requiredName? : Segment → Option String
  | plain _ => none
  | braced inner => if inner.head? = some '^' then none else some (.ofList inner)

/-- What a reference refers to, and whether it is optional; a lone `^` is a
    name. -/
def referent : List Char → String × Bool
  | '^' :: c :: name => (.ofList (c :: name), true)
  | name => (.ofList name, false)

/-- A segment with a reference replaced by its value. -/
def fill (ctx : Context) : Segment → Except Error (List Char)
  | plain c => .ok [c]
  | braced inner => do
    let (name, optional) := referent inner
    let v ← ctx.resolve name optional
    return v.display.toList

/-- Segments filled from front to back. -/
def fillAll (ctx : Context) : List Segment → Except Error (List Char)
  | [] => .ok []
  | s :: ss => do
    let front ← s.fill ctx
    let rest ← fillAll ctx ss
    return front ++ rest

end Segment

/-- The names that a text requires, from left to right. -/
def requiredNames (text : List Char) : List String :=
  (Segment.ofText text).filterMap Segment.requiredName?

/-- The text with values in the place of its references. -/
def interpolate (ctx : Context) (text : List Char) : Except Error String := do
  let filled ← Segment.fillAll ctx (Segment.ofText text)
  return .ofList filled

end ProductFormula
