/-
  The decimal that names a number.

  Of the decimals that are read back as the number, the shortest is taken, and
  of those the nearest (`Number.shortest`).  On the grid of a fixed count of
  digits only the two neighbours of the number can qualify
  (`shortestOfLength?`), so the counts 1 to 17 are tried in turn; a number has
  an exact decimal as well, which stands for the case that none qualifies.

  * `Tie` says which of two equally near neighbours is taken;
  * a candidate is accepted by reading it (`Decimal.toNumber`), hence what is
    found is read back as the number: `toNumber_shortestOfLength?`.
-/
import ProductFormula.Number.Decimal

namespace ProductFormula

/-- Which of two equally near decimals is taken. -/
inductive Tie where
  | upward
  | even
deriving DecidableEq

/-- The exact decimal of a magnitude: a step is `5^1074` at `10^-1074`. -/
def Decimal.exact (units : Nat) : Decimal := ⟨units * Nat.pow 5 1074, -1074⟩

/-- Decimal places before the point of a magnitude: the least `top` with the
    magnitude below `10 ^ top`. -/
def Decimal.top (units : Nat) : Int :=
  (Nat.toDigits 10 (units * Nat.pow 10 400 / unitsPerOne)).length - 400

/-- A magnitude in units of `10 ^ exponent`, as a quotient. -/
def Decimal.inPower (units : Nat) : (exponent : Int) → Nat × Nat
  | .ofNat places => (units, unitsPerOne * Nat.pow 10 places)
  | .negSucc below => (units * Nat.pow 10 (below + 1), unitsPerOne)

/-- The higher of two neighbours is taken if it is nearer, or as near and
    chosen by the tie. -/
def Tie.takesUpper (tie : Tie) (lower twice den : Nat) : Bool :=
  den < twice || twice == den && (tie == .upward || lower % 2 == 1)

/-- The decimal with `length` digits up to `10 ^ top` that is read back as the
    magnitude: of its two neighbours the nearer one that qualifies. -/
def shortestOfLength? (tie : Tie) (units : Nat) (top : Int) (length : Nat) : Option Decimal :=
  let exponent := top - length
  let (num, den) := Decimal.inPower units exponent
  let lower := num / den
  let readsBack (digits : Nat) : Bool :=
    Decimal.toNumber false ⟨digits, exponent⟩ = .nearest false units 1
  let upperFirst := tie.takesUpper lower (2 * (num % den)) den
  let order := if upperFirst then [lower + 1, lower] else [lower, lower + 1]
  (order.find? readsBack).map fun digits => ⟨digits, exponent⟩

theorem toNumber_shortestOfLength? {tie : Tie} {units : Nat} {top : Int} {length : Nat}
    {d : Decimal} (h : shortestOfLength? tie units top length = some d) :
    d.toNumber false = .nearest false units 1 := by
  simp only [shortestOfLength?] at h
  obtain ⟨digits, found, rfl⟩ := Option.map_eq_some_iff.1 h
  simpa using List.find?_some found

/-- The shortest decimal of a magnitude. -/
def Decimal.shortest (tie : Tie) (units : Nat) : Decimal :=
  let top := Decimal.top units
  let lengths := (List.range 17).map (· + 1)
  (lengths.findSome? (shortestOfLength? tie units top)).getD (Decimal.exact units)

end ProductFormula
