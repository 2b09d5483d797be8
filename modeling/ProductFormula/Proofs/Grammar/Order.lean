/-
  The order of the tokens in a phrase.

  Between two operands there is always a token of another kind, so no literal
  has another one behind it.  Square brackets hold the two bounds of a range, so
  behind an opening one a comma comes before the first that closes.

  * `Ordered` says both of a list of tokens, and `Enclosed.glue` joins two such
    lists with a token between them;
  * `Derives.ordered`: the tokens of every phrase are in this order.
-/
import Mathlib.Data.List.Chain
import ProductFormula.Proofs.Grammar.Derivation

namespace ProductFormula

def Token.isNumber : Token → Bool
  | .number _ => true
  | _ => false

namespace Grammar

/-- A comma stands in front of all closing square brackets. -/
def CommaFirst (ts : List Token) : Prop :=
  ∃ us vs, ts = us ++ .symbol .comma :: vs ∧ .symbol .rightBracket ∉ us

/-- Literals are not neighbours, and an opening square bracket has its comma. -/
structure Ordered (ts : List Token) : Prop where
  apart : ts.IsChain fun t t' => t.isNumber → t'.isNumber = false
  opening : ∀ front back, ts = front ++ .symbol .leftBracket :: back → CommaFirst back

/-- All closing square brackets have their comma among these tokens too. -/
structure Enclosed (ts : List Token) : Prop extends Ordered ts where
  closing : .symbol .rightBracket ∈ ts → CommaFirst ts

/-- Neither a literal nor a square bracket. -/
def Joins : Token → Prop
  | .number _ | .symbol .leftBracket | .symbol .rightBracket => False
  | _ => True

variable {t : Token} {ts us : List Token}

theorem Joins.isNumber (h : Joins t) : t.isNumber = false := by
  cases t <;> first | rfl | exact h.elim

theorem Joins.ne_leftBracket (h : Joins t) : t ≠ .symbol .leftBracket := by
  rintro rfl
  exact h

theorem Joins.ne_rightBracket (h : Joins t) : t ≠ .symbol .rightBracket := by
  rintro rfl
  exact h

/-! ## Commas -/

theorem CommaFirst.append (h : CommaFirst ts) (us : List Token) : CommaFirst (ts ++ us) := by
  obtain ⟨front, back, rfl, hfront⟩ := h
  exact ⟨front, back ++ us, by simp, hfront⟩

theorem CommaFirst.behind (hts : .symbol .rightBracket ∉ ts) (h : CommaFirst us) :
    CommaFirst (ts ++ us) := by
  obtain ⟨front, back, rfl, hfront⟩ := h
  exact ⟨ts ++ front, back, by simp, by simp [hts, hfront]⟩

theorem commaFirst_cons_iff : CommaFirst (t :: ts) ↔
    t = .symbol .comma ∨ t ≠ .symbol .rightBracket ∧ CommaFirst ts := by
  constructor
  · rintro ⟨us, vs, hts, hus⟩
    rcases List.cons_eq_append_iff.1 hts with ⟨-, hcomma⟩ | ⟨us, rfl, rfl⟩
    · exact .inl (List.cons_eq_cons.1 hcomma).1.symm
    · obtain ⟨ht, hmore⟩ := not_or.1 (mt List.mem_cons.2 hus)
      exact .inr ⟨Ne.symm ht, us, vs, rfl, hmore⟩
  · rintro (rfl | ⟨ht, h⟩)
    · exact ⟨[], ts, rfl, List.not_mem_nil⟩
    · obtain ⟨us, vs, rfl, hus⟩ := h
      exact ⟨t :: us, vs, rfl, List.not_mem_cons_of_ne_of_not_mem (Ne.symm ht) hus⟩

/-- The comma behind these tokens, or one among them. -/
theorem Enclosed.commaFirst (h : Enclosed ts) (us : List Token) :
    CommaFirst (ts ++ .symbol .comma :: us) := by
  by_cases hmem : .symbol .rightBracket ∈ ts
  · exact (h.closing hmem).append _
  · exact ⟨ts, us, rfl, hmem⟩

/-! ## Joining -/

theorem enclosed_nil : Enclosed [] where
  apart := .nil
  opening front back h := by simp at h
  closing h := (List.not_mem_nil h).elim

theorem enclosed_number (n : Number) : Enclosed [.number n] where
  apart := .singleton _
  opening front back h := by simp [List.singleton_eq_append_iff] at h
  closing h := by simp at h

theorem Ordered.tail (h : Ordered (t :: ts)) : Ordered ts where
  apart := h.apart.tail
  opening front back hts := h.opening (t :: front) back (congrArg (t :: ·) hts)

/-- Tokens in order stay so with another kind of token between them. -/
theorem Ordered.join (hts : Ordered ts) (hus : Ordered us) (hnumber : t.isNumber = false)
    (hopening : t = .symbol .leftBracket → CommaFirst us) : Ordered (ts ++ t :: us) where
  apart := by
    rw [List.isChain_append, List.isChain_cons]
    exact ⟨hts.apart, ⟨by simp [hnumber], hus.apart⟩, by simp [hnumber]⟩
  opening front back h := by
    rcases List.append_eq_append_iff.1 h with ⟨more, rfl, hmore⟩ | ⟨more, rfl, hmore⟩
    · -- the bracket is the token between them, or stands behind it
      rcases List.cons_eq_append_iff.1 hmore with ⟨-, hsame⟩ | ⟨more, rfl, rfl⟩
      · obtain ⟨hbracket, rfl⟩ := List.cons_eq_cons.1 hsame
        exact hopening hbracket.symm
      · exact hus.opening more back rfl
    · rcases List.cons_eq_append_iff.1 hmore with ⟨-, hsame⟩ | ⟨more, rfl, rfl⟩
      · obtain ⟨hbracket, rfl⟩ := List.cons_eq_cons.1 hsame
        exact hopening hbracket
      · exact (hts.opening front more rfl).append _

/-- **Joining phrases keeps the order of their tokens.** -/
theorem Enclosed.glue (hts : Enclosed ts) (hus : Enclosed us) (ht : Joins t) :
    Enclosed (ts ++ t :: us) where
  toOrdered := hts.join hus.toOrdered ht.isNumber (absurd · ht.ne_leftBracket)
  closing h := by
    by_cases hmem : .symbol .rightBracket ∈ ts
    · exact (hts.closing hmem).append _
    · have hclosing : .symbol .rightBracket ∈ us := by
        simpa [hmem, ht.ne_rightBracket.symm] using h
      rw [List.append_cons]
      exact (hus.closing hclosing).behind (by simp [hmem, ht.ne_rightBracket.symm])

theorem Enclosed.cons (h : Enclosed ts) (ht : Joins t) : Enclosed (t :: ts) :=
  enclosed_nil.glue h ht

theorem Enclosed.concat (h : Enclosed ts) (ht : Joins t) : Enclosed (ts ++ [t]) :=
  h.glue enclosed_nil ht

/-- The bounds of a range in their brackets. -/
theorem Enclosed.brackets (hts : Enclosed ts) (hus : Enclosed us) :
    Enclosed (.symbol .leftBracket ::
      (ts ++ .symbol .comma :: (us ++ [.symbol .rightBracket]))) where
  toOrdered := by
    have hmax := hus.join enclosed_nil.toOrdered (t := .symbol .rightBracket) rfl (by simp)
    have hbounds := hts.join hmax (t := .symbol .comma) rfl (by simp)
    exact enclosed_nil.join hbounds (t := .symbol .leftBracket) rfl fun _ => hts.commaFirst _
  closing _ := commaFirst_cons_iff.2 (.inr ⟨by simp, hts.commaFirst _⟩)

theorem Enclosed.parenthesised (h : Enclosed ts) :
    Enclosed (.symbol .leftParen :: (ts ++ [.symbol .rightParen])) :=
  (h.concat (t := .symbol .rightParen) trivial).cons (t := .symbol .leftParen) trivial

/-! ## Phrases -/

theorem joins_operator (op : BinaryOp) : Joins (.symbol op.symbol) := by
  cases op <;> trivial

theorem joins_sign (op : UnaryOp) : Joins (.symbol op.symbol) := by
  cases op <;> trivial

theorem Derives.enclosed {c : Category} {e : Expr} (h : Derives c ts e) : Enclosed ts := by
  induction h with
  | plain _ ih | operand _ ih | unsigned _ ih | base _ ih => exact ih
  | conditional _ _ _ ihc iha ihb => exact ihc.glue (iha.glue ihb trivial) trivial
  | @operation op _ _ _ _ _ _ ihl ihr => exact ihl.glue ihr (joins_operator op)
  | @sign op _ _ _ ih => exact ih.cons (joins_sign op)
  | power _ ih => exact ih.concat trivial
  | number => exact enclosed_number _
  | string | trueWord | falseWord | constant | reference => exact enclosed_nil.cons trivial
  | range _ _ ihmin ihmax => exact (ihmin.brackets ihmax).cons trivial
  | group _ ih => exact ih.parenthesised
  | rounding _ ih | glyph _ ih | grouping _ ih => exact ih.parenthesised.cons trivial
  | selection _ _ _ ihc iha ihb =>
    have hoperands := ihc.glue (t := .symbol .comma)
      (iha.glue (t := .symbol .comma) ihb trivial) trivial
    have hcall := hoperands.parenthesised
    simp only [List.append_assoc, List.cons_append] at hcall
    exact hcall.cons trivial
  | call _ _ ih =>
    have hcall := (intercalate_induction enclosed_nil
      (fun xs ys hxs hys => Enclosed.glue hxs hys (t := .symbol .comma) trivial)
      (List.forall_mem_map.2 ih)).parenthesised
    exact hcall.cons trivial

/-- **The tokens of a phrase are in order.** -/
theorem Derives.ordered {c : Category} {e : Expr} (h : Derives c ts e) : Ordered ts :=
  h.enclosed.toOrdered

end Grammar

end ProductFormula
