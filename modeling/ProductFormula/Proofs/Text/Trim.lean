/-
  Texts without blanks at their ends.

  A text that starts and ends with no blank (`Trimmed`) is its own trimmed form
  (`Trimmed.trim_eq_self`), and trimming gives such a text (`trimmed_trim`).
  Trimmed texts with separators between them are trimmed, and stay so when some
  blanks within them are dropped.

  * `exists_eq_append_trim`: a text is its trimmed form between blanks, and
    blanks put around it leave that form as it is.
-/
import Mathlib.Data.List.TakeWhile
import ProductFormula.Proofs.Separated
import ProductFormula.Text.Blank

namespace ProductFormula.Text

/-- Neither end is a blank. -/
structure Trimmed (cs : List Char) : Prop where
  head : ∀ c ∈ cs.head?, isBlank c = false
  last : ∀ c ∈ cs.getLast?, isBlank c = false

variable {cs front back : List Char}

theorem trimStart_eq_self (h : ∀ c ∈ cs.head?, isBlank c = false) : trimStart cs = cs := by
  rcases cs with _ | ⟨c, cs⟩
  · rfl
  · have hc : isBlank c = false := h c rfl
    rw [trimStart, List.dropWhile_cons_of_neg (by simp [hc])]

theorem isBlank_head_trimStart (cs : List Char) :
    ∀ c ∈ (trimStart cs).head?, isBlank c = false := by
  induction cs with
  | nil => simp [trimStart]
  | cons c cs ih =>
    rw [trimStart, List.dropWhile_cons]
    split
    · exact ih
    next h =>
      intro c' hc
      cases hc
      simpa using h

theorem isPrefix_trimEnd (cs : List Char) : trimEnd cs <+: cs := by
  have hsuffix := List.dropWhile_suffix (l := cs.reverse) isBlank
  simpa [trimEnd] using List.reverse_prefix.2 hsuffix

theorem trimmed_trim (cs : List Char) : Trimmed (trim cs) where
  head := by
    intro c hc
    obtain ⟨tail, htail⟩ := isPrefix_trimEnd (trimStart cs)
    refine isBlank_head_trimStart cs c ?_
    rw [← htail, List.head?_append]
    rw [trim] at hc
    rw [hc]
    rfl
  last := by
    intro c hc
    rw [trim, trimEnd, List.getLast?_reverse] at hc
    exact isBlank_head_trimStart (trimStart cs).reverse c hc

theorem Trimmed.trim_eq_self (h : Trimmed cs) : trim cs = cs := by
  have hreverse : ∀ c ∈ cs.reverse.head?, isBlank c = false := by
    rw [List.head?_reverse]
    exact h.last
  rw [trim, trimStart_eq_self h.head, trimEnd, ← trimStart, trimStart_eq_self hreverse,
    List.reverse_reverse]

/-! ## Blanks at the ends -/

theorem trimStart_blanks_append (h : ∀ c ∈ front, isBlank c) (cs : List Char) :
    trimStart (front ++ cs) = trimStart cs :=
  List.dropWhile_append_of_pos h

theorem trim_append_blanks (h : ∀ c ∈ back, isBlank c) (cs : List Char) :
    trim (cs ++ back) = trim cs := by
  have hback : back.dropWhile isBlank = [] := List.dropWhile_eq_nil_iff.2 h
  have hreverse : back.reverse.dropWhile isBlank = [] :=
    List.dropWhile_eq_nil_iff.2 fun c hc => h c (List.mem_reverse.1 hc)
  rw [trim, trim, trimStart, trimStart, List.dropWhile_append]
  split
  next hempty =>
    rw [hback, List.isEmpty_iff.1 hempty]
  · rw [trimEnd, trimEnd, List.reverse_append, List.dropWhile_append, hreverse]
    rfl

theorem trim_blanks_append (h : ∀ c ∈ front, isBlank c) (cs : List Char) :
    trim (front ++ cs) = trim cs := by
  rw [trim, trim, trimStart_blanks_append h]

/-- Only what stands behind the last character that is no blank is trimmed. -/
theorem trimEnd_append {c : Char} (hc : isBlank c = false) (front rest : List Char) :
    trimEnd (front ++ c :: rest) = front ++ c :: trimEnd rest := by
  have hfront : (c :: front.reverse).dropWhile isBlank = c :: front.reverse :=
    List.dropWhile_cons_of_neg (by simp [hc])
  have hreverse : (front ++ c :: rest).reverse = rest.reverse ++ c :: front.reverse := by simp
  rw [trimEnd, trimEnd, hreverse, List.dropWhile_append, hfront]
  split
  next hempty => simp [List.isEmpty_iff.1 hempty]
  · simp

/-- A text is its trimmed form between blanks. -/
theorem exists_eq_append_trim (cs : List Char) : ∃ front back, cs = front ++ trim cs ++ back ∧
    (∀ c ∈ front, isBlank c) ∧ ∀ c ∈ back, isBlank c := by
  let rest := trimStart cs
  refine ⟨cs.takeWhile isBlank, (rest.reverse.takeWhile isBlank).reverse, ?_, ?_, ?_⟩
  · have hrest : rest = trimEnd rest ++ (rest.reverse.takeWhile isBlank).reverse := by
      rw [trimEnd, ← List.reverse_append, List.takeWhile_append_dropWhile, List.reverse_reverse]
    rw [List.append_assoc, trim, ← hrest]
    exact List.takeWhile_append_dropWhile.symm
  · exact fun c hc => List.mem_takeWhile_imp hc
  · exact fun c hc => List.mem_takeWhile_imp (List.mem_reverse.1 hc)

theorem mem_trim {c : Char} (h : c ∈ cs) (hc : isBlank c = false) : c ∈ trim cs := by
  obtain ⟨front, back, hcs, hfront, hback⟩ := exists_eq_append_trim cs
  rw [hcs, List.mem_append, List.mem_append] at h
  rcases h with (h | h) | h
  · exact absurd (hfront c h) (by simp [hc])
  · exact h
  · exact absurd (hback c h) (by simp [hc])

/-! ## Texts put together -/

theorem trimmed_nil : Trimmed [] := ⟨by simp, by simp⟩

/-- Dropping blanks bares no other blank at an end that was none. -/
theorem Trimmed.filter (h : Trimmed cs) {p : Char → Bool} (hp : ∀ c, isBlank c = false → p c) :
    Trimmed (cs.filter p) where
  head := by
    rcases cs with _ | ⟨c, cs⟩
    · simp
    · have hc := h.head c rfl
      rw [List.filter_cons_of_pos (hp c hc)]
      exact fun _ hc' => h.head _ hc'
  last := by
    rcases List.eq_nil_or_concat cs with rfl | ⟨cs, c, rfl⟩
    · simp
    · have hc := h.last c (by simp)
      rw [List.concat_eq_append, List.filter_append, List.filter_cons_of_pos (hp c hc)]
      simpa using hc

/-- Blanks may be dropped before the rest is trimmed, or afterwards. -/
theorem trim_filter {p : Char → Bool} (hp : ∀ c, isBlank c = false → p c) (cs : List Char) :
    trim (cs.filter p) = (trim cs).filter p := by
  obtain ⟨front, back, hcs, hfront, hback⟩ := exists_eq_append_trim cs
  have hfront' : ∀ c ∈ front.filter p, isBlank c := fun c hc => hfront c (List.mem_filter.1 hc).1
  have hback' : ∀ c ∈ back.filter p, isBlank c := fun c hc => hback c (List.mem_filter.1 hc).1
  calc trim (cs.filter p)
      = trim (front.filter p ++ (trim cs).filter p ++ back.filter p) := by
        rw [← List.filter_append, ← List.filter_append, ← hcs]
    _ = trim ((trim cs).filter p) := by
        rw [trim_append_blanks hback', trim_blanks_append hfront']
    _ = (trim cs).filter p := ((trimmed_trim cs).filter hp).trim_eq_self

/-- Trimmed texts joined by what is no blank are trimmed. -/
theorem trimmed_intercalate {sep : Char} (hsep : isBlank sep = false) {css : List (List Char)}
    (h : ∀ cs ∈ css, Trimmed cs) : Trimmed ([sep].intercalate css) := by
  induction css with
  | nil => exact trimmed_nil
  | cons cs css ih =>
    have hfront := h cs List.mem_cons_self
    have hrest := ih fun cs' hcs => h cs' (List.mem_cons_of_mem _ hcs)
    by_cases hne : css = []
    · subst hne
      simpa using hfront
    · rw [List.intercalate_cons_of_ne_nil hne]
      constructor
      · intro c hc
        rcases cs with _ | ⟨first, cs⟩
        · cases hc
          exact hsep
        · exact hfront.head c hc
      · intro c hc
        rcases List.eq_nil_or_concat ([sep].intercalate css) with hnil | ⟨front, last, hlast⟩
        · rw [hnil] at hc
          simp at hc
          exact hc ▸ hsep
        · rw [hlast, List.concat_eq_append] at hc hrest
          rw [← List.append_assoc, List.getLast?_concat] at hc
          exact hrest.last c (by rwa [List.getLast?_concat])

end ProductFormula.Text
