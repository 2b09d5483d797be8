/-
  The highest trees.

  A tower is a call with powers on it, on that a chain of every tier, each as
  long as the room allows, and on top a conditional; the argument of the call
  is a tower again (`tower`).  Its printed form is parsed at the limit it is
  built for, and no tree at that limit is higher, so the bound of
  `Grammar.Nests.height_le` is reached (`height_parse`).
-/
import ProductFormula.Proofs.Grammar.Height
import ProductFormula.Proofs.Printer.Roundtrip

namespace ProductFormula

open Grammar ProductFormula.Parser

namespace Expr

/-! ## Towers -/

/-- `{A}` -/
def leaf : Expr := .reference "A" false

/-- An expression with squares on it. -/
def squared : Nat → Expr → Expr
  | 0, e => e
  | count + 1, e => .exponent (squared count e) 2

/-- An expression with operations on it. -/
def chained (op : BinaryOp) : Nat → Expr → Expr
  | 0, e => e
  | count + 1, e => .binary op (chained op count e) leaf

/-- The call at the foot of a storey, with powers and chains on it. -/
def storey (count : Nat) (e : Expr) : Expr :=
  chained .or count (chained .and count (chained .equal count (chained .lessThan count
    (chained .add count (chained .multiply count (squared count (.call "F" [e])))))))

/-- As many storeys, each one level longer than the one on it. -/
def tower : Nat → Expr
  | 0 => leaf
  | floors + 1 => .conditional (storey (floors + 1) (tower floors)) leaf leaf

/-! ## Heights -/

theorem height_squared (count : Nat) (e : Expr) : (squared count e).height = e.height + count := by
  induction count with
  | zero => rfl
  | succ count ih =>
    simp only [squared, height, ih]
    omega

theorem height_chained (op : BinaryOp) (count : Nat) (e : Expr) :
    (chained op count e).height = e.height + count := by
  induction count with
  | zero => rfl
  | succ count ih =>
    have := one_le_height e
    have hleaf : leaf.height = 1 := rfl
    simp only [chained, height_binary, ih, hleaf]
    omega

theorem height_tower (floors : Nat) : (tower floors).height = highest (floors + 1) := by
  induction floors with
  | zero => rfl
  | succ floors ih =>
    have hcall : (call "F" [tower floors]).height = (tower floors).height + 1 := by
      simp [height, greatestHeight]
    have hleaf : leaf.height = 1 := rfl
    simp only [tower, storey, height_conditional, height_chained, height_squared, hcall, hleaf, ih,
      highest]
    omega

/-! ## Printed forms -/

section

variable {literal : Number → Prop} {e : Expr}

theorem wellFormed_leaf : WellFormed literal leaf :=
  .reference (by decide) (by decide) (by decide)

theorem WellFormed.squared (h : WellFormed literal e) (count : Nat) :
    WellFormed literal (squared count e) := by
  induction count with
  | zero => exact h
  | succ count ih => exact .exponent (by decide) ih

theorem WellFormed.chained (h : WellFormed literal e) (op : BinaryOp) (count : Nat) :
    WellFormed literal (chained op count e) := by
  induction count with
  | zero => exact h
  | succ count ih => exact .binary ih wellFormed_leaf

theorem WellFormed.storey (h : WellFormed literal e) (count : Nat) :
    WellFormed literal (storey count e) := by
  have hcall : WellFormed literal (.call "F" [e]) :=
    .call (List.all_eq_true.1 rfl) (by simpa using h)
  have hproduct := (hcall.squared count).chained .multiply count
  have hcomparison := (hproduct.chained .add count).chained .lessThan count
  exact ((hcomparison.chained .equal count).chained .and count).chained .or count

theorem wellFormed_tower (floors : Nat) : WellFormed literal (tower floors) := by
  induction floors with
  | zero => exact wellFormed_leaf
  | succ floors ih => exact .conditional (ih.storey _) wellFormed_leaf wellFormed_leaf

end

/-! ## Towers fit -/

/-- The printed form is a phrase of the category as it stands, and fits in the
    room. -/
def Fits (room : Nat) (c : Category) (e : Expr) : Prop :=
  e.category.looseness ≤ c.looseness ∧ ∃ used, Nests room c used e.tokens e

variable {room : Nat} {e : Expr}

theorem parenthesised_eq_self {c : Category} (h : e.category.looseness ≤ c.looseness)
    (ts : List Token) : parenthesised c e ts = ts := if_pos h

theorem Fits.squared (h : Fits room .primary e) : Fits room .signed (squared room e) := by
  obtain ⟨hcategory, used, hnests⟩ := h
  cases hnests.used_primary
  have hcount : ∀ count ≤ room, (Expr.squared count e).category.looseness ≤
      Category.powered.looseness ∧
      Nests room .powered count (Expr.squared count e).tokens (Expr.squared count e) := by
    intro count
    induction count with
    | zero => exact fun _ => ⟨Nat.le_trans hcategory (by decide), .base hnests⟩
    | succ count ih =>
      intro hle
      obtain ⟨hloose, hbase⟩ := ih (by omega)
      obtain ⟨more, rfl⟩ : ∃ more, room = more + count + 1 := ⟨room - count - 1, by omega⟩
      refine ⟨Nat.le_refl _, ?_⟩
      rw [Expr.squared, tokens, parenthesised_eq_self hloose]
      exact .power (s := .two) hbase
  obtain ⟨hloose, hpowers⟩ := hcount room (Nat.le_refl _)
  exact ⟨Nat.le_trans hloose (by decide), 0, .unsigned hpowers⟩

theorem Fits.chained (op : BinaryOp) (h : Fits room (operands op.tier) e) :
    Fits room (.tier op.tier) (chained op room e) := by
  obtain ⟨hcategory, used, hnests⟩ := h
  have htier : (operands op.tier).looseness ≤ (Category.tier op.tier).looseness := by
    rw [looseness_operands]
    exact Nat.le_succ _
  have hcount : ∀ count ≤ room, (Expr.chained op count e).category.looseness ≤
      (Category.tier op.tier).looseness ∧
      Nests room (.tier op.tier) count (Expr.chained op count e).tokens
        (Expr.chained op count e) := by
    intro count
    induction count with
    | zero => exact fun _ => ⟨Nat.le_trans hcategory htier, .operand hnests⟩
    | succ count ih =>
      intro hle
      obtain ⟨hloose, hleft⟩ := ih (by omega)
      obtain ⟨more, rfl⟩ : ∃ more, room = more + count + 1 := ⟨room - count - 1, by omega⟩
      have hleaf : Nests more .signed 0 leaf.tokens leaf := .unsigned (.base .reference)
      refine ⟨Nat.le_refl _, ?_⟩
      rw [Expr.chained, tokens, parenthesised_eq_self hloose,
        parenthesised_eq_self (e := leaf) (Nat.zero_le _)]
      exact .operation hleft (hleaf.of_signed op.tier).1
  obtain ⟨hloose, hchain⟩ := hcount room (Nat.le_refl _)
  exact ⟨hloose, room, hchain⟩

theorem fits_call (h : Nests room .expression 0 e.tokens e) :
    Fits room .primary (call "F" [e]) := by
  refine ⟨Nat.le_refl _, 0, ?_⟩
  have hcall := @Nests.call room "Math.F" [(e.tokens, e)] (by decide) (by simpa using h)
  have hname : canonicalName "Math.F" = "F" := by decide +kernel
  simpa [tokens, allTokens, hname] using hcall

theorem fits_storey (h : Nests room .expression 0 e.tokens e) :
    Fits room (.tier .or) (storey room e) := by
  have hmultiply : Fits room (.tier .multiplicative) _ := (fits_call h).squared.chained .multiply
  have hadd : Fits room (.tier .additive) _ := hmultiply.chained .add
  have hless : Fits room (.tier .relational) _ := hadd.chained .lessThan
  have hequal : Fits room (.tier .equality) _ := hless.chained .equal
  have hand : Fits room (.tier .and) _ := hequal.chained .and
  exact hand.chained .or

theorem nests_tower (floors : Nat) :
    Nests (floors + 1) .expression 0 (tower floors).tokens (tower floors) := by
  have hleaf (room : Nat) : Nests (room + 1) .expression 0 leaf.tokens leaf :=
    .of_primary .reference
  induction floors with
  | zero => exact hleaf 0
  | succ floors ih =>
    obtain ⟨hloose, used, hstorey⟩ := fits_storey ih
    rw [tower, tokens, parenthesised_eq_self hloose]
    exact .conditional hstorey (hleaf floors) (hleaf floors)

theorem parse_tower (floors : Nat) :
    parse (floors + 1) (tower floors).print = .ok (tower floors) :=
  (parse_print_iff_nests (wellFormed_tower floors)).2 (nests_tower floors)

/-! ## The height of what is parsed -/

/-- **Trees are as high as towers, and no higher**: at a limit `n` up to
    `(7 * n ^ 2 - 3 * n - 2) / 2`, which is above the limit itself but for the
    limits zero and one. -/
theorem height_parse (limit : Nat) :
    (∀ text e, parse limit text = .ok e → 2 * e.height + 3 * limit + 2 ≤ 7 * limit ^ 2) ∧
      (0 < limit → ∃ text e, parse limit text = .ok e ∧
        2 * e.height + 3 * limit + 2 = 7 * limit ^ 2) ∧
      ((∀ text e, parse limit text = .ok e → e.height ≤ limit) ↔ limit ≤ 1) := by
  have hbound : ∀ text e, parse limit text = .ok e → e.height ≤ highest limit :=
    fun text e h => (parse_eq_ok_iff_nests.1 h).height_le
  cases limit with
  | zero =>
    have hnone : ∀ text e, parse 0 text ≠ .ok e := by
      intro text e h
      exact Nat.not_succ_le_zero 0 (Nat.le_trans e.one_le_height (hbound text e h))
    exact ⟨fun text e h => absurd h (hnone text e), fun h => absurd h (Nat.lt_irrefl 0),
      fun _ => Nat.zero_le 1, fun _ text e h => absurd h (hnone text e)⟩
  | succ floors =>
    have hhighest := two_mul_highest floors
    have htower := height_tower floors
    refine ⟨fun text e h => ?_, fun _ => ⟨_, _, parse_tower floors, by rw [htower, hhighest]⟩, ?_⟩
    · have := hbound text e h
      omega
    cases floors with
    | zero => exact ⟨fun _ => Nat.le_refl _, fun _ text e h => hbound text e h⟩
    | succ floors =>
      rw [highest] at htower
      refine ⟨fun h => ?_, fun hle => by omega⟩
      have := h _ _ (parse_tower (floors + 1))
      omega

/-- `1*1+1` is parsed at the limit two, and is three levels high. -/
theorem parse_sum_of_product : ∃ e, parse 2 "1*1+1" = .ok e ∧ ¬ e.height ≤ 2 := by
  let one := Decimal.toNumber false ⟨1, 0⟩
  have hlex : Token.lex "1*1+1".toList =
      [.number one, .symbol .star, .number one, .symbol .plus, .number one] := by
    decide +kernel
  have hone (room : Nat) : Nests room .signed 0 [.number one] (.number one) :=
    .unsigned (.base .number)
  have hproduct := @Nests.operation 0 0 0 .multiply _ _ _ _ (.operand (hone 1)) (hone 0)
  have hsum := @Nests.operation 0 0 0 .add _ _ _ _ (.operand hproduct) (.operand (hone 0))
  have hor : Nests 1 (.tier .or) 0 _ _ :=
    .operand (.operand (.operand (.operand hsum)))
  refine ⟨.binary .add (.binary .multiply (.number one) (.number one)) (.number one), ?_, ?_⟩
  · rw [parse_eq_ok_iff_nests, hlex]
    exact .plain hor
  · simp [height]

end Expr

end ProductFormula
