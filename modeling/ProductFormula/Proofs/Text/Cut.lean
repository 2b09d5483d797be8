/-
  Cutting a text at a character.

  A text is cut in front of the first place where a character stands
  (`splitWhile_ne_append`), or not at all if it stands nowhere
  (`splitWhile_ne_of_not_mem`).  What stands behind a character that fails the
  test makes no difference to a cut (`splitWhile_append_cons`).
-/
import ProductFormula.Text.Split

namespace ProductFormula.Text

variable {c : Char} {cs front rest : List Char}

theorem splitWhile_ne_append (h : c ∉ front) (rest : List Char) :
    splitWhile (· != c) (front ++ c :: rest) = (front, c :: rest) := by
  refine splitWhile_front (fun c' hc => ?_) (by simp)
  rw [bne_iff_ne]
  rintro rfl
  exact h hc

theorem takeWhile_ne_append (h : c ∉ front) (rest : List Char) :
    (front ++ rest).takeWhile (· != c) = front ++ rest.takeWhile (· != c) := by
  refine List.takeWhile_append_of_pos fun c' hc => ?_
  rw [bne_iff_ne]
  rintro rfl
  exact h hc

theorem takeWhile_ne_cons (h : c ∉ front) (rest : List Char) :
    (front ++ c :: rest).takeWhile (· != c) = front :=
  congrArg Prod.fst (splitWhile_ne_append h rest)

theorem splitWhile_ne_of_not_mem (h : c ∉ cs) : splitWhile (· != c) cs = (cs, []) := by
  have hpass : ∀ c' ∈ cs, (c' != c) = true := by
    intro c' hc
    rw [bne_iff_ne]
    rintro rfl
    exact h hc
  have hcut := @splitWhile_front _ cs [] hpass (by simp)
  rwa [List.append_nil] at hcut

theorem splitWhile_append_cons {p : Char → Bool} (h : p c = false) (cs rest : List Char) :
    splitWhile p (cs ++ c :: rest) = ((splitWhile p cs).1, (splitWhile p cs).2 ++ c :: rest) := by
  induction cs with
  | nil => simp [splitWhile, h]
  | cons c' cs ih =>
    rw [splitWhile, Prod.mk.injEq] at ih
    by_cases hc : p c'
    · simp [splitWhile, hc, ih.1, ih.2]
    · simp [splitWhile, hc]

/-- Equal texts are cut alike at the first place of a character. -/
theorem append_cons_inj {front' rest' more : List Char} (hfront : c ∉ front) (hfront' : c ∉ front')
    (h : front ++ (c :: more ++ rest) = front' ++ (c :: more ++ rest')) :
    front = front' ∧ rest = rest' := by
  have hcut := congrArg (splitWhile (· != c)) h
  rw [List.cons_append, List.cons_append, splitWhile_ne_append hfront,
    splitWhile_ne_append hfront'] at hcut
  obtain ⟨hfronts, hrests⟩ := Prod.mk.inj hcut
  exact ⟨hfronts, List.append_cancel_left (List.cons_eq_cons.1 hrests).2⟩

/-- What is left after a cut starts with the character. -/
theorem eq_append_of_splitWhile_ne {c' : Char} (h : splitWhile (· != c) cs = (front, c' :: rest)) :
    cs = front ++ c :: rest ∧ c ∉ front := by
  by_cases hmem : c ∈ cs
  · obtain ⟨front', rest', rfl, hfront⟩ := List.eq_append_cons_of_mem hmem
    rw [splitWhile_ne_append hfront] at h
    cases h
    exact ⟨rfl, hfront⟩
  · rw [splitWhile_ne_of_not_mem hmem] at h
    cases h

end ProductFormula.Text
