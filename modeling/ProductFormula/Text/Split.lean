/-
  Cutting a text in two.

  * `splitWhile` cuts behind the longest front whose characters all pass a test;
    the two parts are the text (`splitWhile_append`), and passing characters
    with a failing one behind them are such a front (`splitWhile_front`).
-/

namespace ProductFormula.Text

/-- The longest front whose characters pass the test, and the rest. -/
def splitWhile (p : Char → Bool) (cs : List Char) : List Char × List Char :=
  (cs.takeWhile p, cs.dropWhile p)

theorem splitWhile_append (p : Char → Bool) (cs : List Char) :
    (splitWhile p cs).1 ++ (splitWhile p cs).2 = cs :=
  List.takeWhile_append_dropWhile

theorem splitWhile_suffix (p : Char → Bool) (cs : List Char) : (splitWhile p cs).2 <:+ cs :=
  List.dropWhile_suffix p

theorem splitWhile_front {p : Char → Bool} {front rest : List Char} (hfront : ∀ c ∈ front, p c)
    (hrest : ∀ c ∈ rest.head?, p c = false) : splitWhile p (front ++ rest) = (front, rest) := by
  rw [splitWhile, List.takeWhile_append_of_pos hfront, List.dropWhile_append_of_pos hfront]
  cases rest with
  | nil => simp
  | cons c cs =>
    have hc : p c = false := hrest c rfl
    simp [hc]

end ProductFormula.Text
