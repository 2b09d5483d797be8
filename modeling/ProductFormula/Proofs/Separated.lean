/-
  Lists joined with a separator.
-/

namespace ProductFormula

variable {α : Type}

theorem forall_mem_intercalate {p : α → Prop} {sep : α} (hsep : p sep)
    {xss : List (List α)} (h : ∀ xs ∈ xss, ∀ x ∈ xs, p x) : ∀ x ∈ [sep].intercalate xss, p x := by
  induction xss with
  | nil => exact fun _ hx => (List.not_mem_nil hx).elim
  | cons xs xss ih =>
    have front := h xs List.mem_cons_self
    have rest := ih fun ys hys => h ys (List.mem_cons_of_mem _ hys)
    by_cases hne : xss = []
    · subst hne
      simpa using front
    · rw [List.intercalate_cons_of_ne_nil hne]
      simp only [List.mem_append, List.mem_singleton]
      rintro x ((hx | rfl) | hx)
      · exact front x hx
      · exact hsep
      · exact rest x hx

/-- What holds of lists and of any two joined by the separator holds of all of
    them joined. -/
theorem intercalate_induction {p : List α → Prop} {sep : α} (hnil : p [])
    (hjoin : ∀ xs ys, p xs → p ys → p (xs ++ sep :: ys)) {xss : List (List α)}
    (h : ∀ xs ∈ xss, p xs) : p ([sep].intercalate xss) := by
  induction xss with
  | nil => exact hnil
  | cons xs xss ih =>
    obtain ⟨hxs, hrest⟩ := List.forall_mem_cons.1 h
    by_cases hne : xss = []
    · subst hne
      rw [List.intercalate_singleton]
      exact hxs
    · rw [List.intercalate_cons_of_ne_nil hne, List.append_assoc]
      exact hjoin xs _ hxs (ih hrest)

/-- Every one of joined lists stands in the whole. -/
theorem isInfix_intercalate (sep : α) {xs : List α} {xss : List (List α)} (h : xs ∈ xss) :
    xs <:+: [sep].intercalate xss := by
  induction xss with
  | nil => exact (List.not_mem_nil h).elim
  | cons ys xss ih =>
    by_cases hne : xss = []
    · subst hne
      cases List.mem_singleton.1 h
      exact List.intercalate_singleton.symm ▸ List.infix_rfl
    · rw [List.intercalate_cons_of_ne_nil hne, List.append_assoc]
      rcases List.mem_cons.1 h with rfl | h
      · exact (List.prefix_append _ _).isInfix
      · have hrest := (ih h).trans (List.suffix_append [sep] _).isInfix
        exact hrest.trans (List.suffix_append ys _).isInfix

theorem length_le_intercalate (sep : α) {xs : List α} {xss : List (List α)}
    (h : xs ∈ xss) : xs.length ≤ ([sep].intercalate xss).length :=
  (isInfix_intercalate sep h).length_le

/-- Joined lists start with the first of them. -/
theorem exists_intercalate_cons (sep : α) (xs : List α) (xss : List (List α)) :
    ∃ tail, [sep].intercalate (xs :: xss) = xs ++ tail := by
  by_cases hne : xss = []
  · subst hne
    exact ⟨[], by simp⟩
  · rw [List.intercalate_cons_of_ne_nil hne, List.append_assoc]
    exact ⟨_, rfl⟩

/-- There are fewer separators than elements. -/
theorem length_le_length_intercalate (sep : α) (xss : List (List α)) :
    xss.length ≤ ([sep].intercalate xss).length + 1 := by
  induction xss with
  | nil => exact Nat.zero_le _
  | cons xs xss ih =>
    by_cases hne : xss = []
    · subst hne
      exact Nat.le_add_left _ _
    · rw [List.intercalate_cons_of_ne_nil hne]
      simp only [List.length_append, List.length_cons, List.length_nil]
      omega

/-- Lists that are not empty are no more than they are long together. -/
theorem length_le_intercalate_of_ne_nil (sep : List α) {xss : List (List α)}
    (h : ∀ xs ∈ xss, xs ≠ []) : xss.length ≤ (sep.intercalate xss).length := by
  induction xss with
  | nil => exact Nat.zero_le _
  | cons xs xss ih =>
    obtain ⟨hxs, hrest⟩ := List.forall_mem_cons.1 h
    have hpos := List.length_pos_iff.2 hxs
    by_cases hne : xss = []
    · subst hne
      rw [List.intercalate_singleton]
      exact hpos
    · have hlength := ih hrest
      rw [List.intercalate_cons_of_ne_nil hne]
      simp only [List.length_append, List.length_cons]
      omega

theorem filter_intercalate {p : α → Bool} {sep : α} (hsep : p sep) (xss : List (List α)) :
    ([sep].intercalate xss).filter p = [sep].intercalate (xss.map (List.filter p)) := by
  induction xss with
  | nil => rfl
  | cons xs xss ih =>
    by_cases hne : xss = []
    · subst hne
      simp
    · have hmap : xss.map (List.filter p) ≠ [] := by simpa using hne
      rw [List.map_cons, List.intercalate_cons_of_ne_nil hne, List.intercalate_cons_of_ne_nil hmap,
        List.filter_append, List.filter_append, ih, List.filter_cons_of_pos hsep, List.filter_nil]

/-- What is picked from joined lists comes from the lists, if not from the
    separator. -/
theorem filterMap_intercalate {β : Type} {f : α → Option β} {sep : α} (hsep : f sep = none)
    (xss : List (List α)) :
    ([sep].intercalate xss).filterMap f = xss.flatMap (List.filterMap f) := by
  induction xss with
  | nil => rfl
  | cons xs xss ih =>
    by_cases hne : xss = []
    · subst hne
      simp
    · rw [List.intercalate_cons_of_ne_nil hne, List.filterMap_append, List.filterMap_append, ih,
        List.filterMap_cons_none hsep, List.filterMap_nil, List.append_nil, List.flatMap_cons]

/-- What stands for joined lists stands for the lists, if nothing stands for
    the separator. -/
theorem flatMap_intercalate {β : Type} {f : α → List β} {sep : α} (hsep : f sep = [])
    (xss : List (List α)) :
    ([sep].intercalate xss).flatMap f = xss.flatMap (List.flatMap f) := by
  induction xss with
  | nil => rfl
  | cons xs xss ih =>
    by_cases hne : xss = []
    · subst hne
      simp
    · rw [List.intercalate_cons_of_ne_nil hne, List.flatMap_append, List.flatMap_append, ih,
        List.flatMap_singleton, hsep, List.append_nil, List.flatMap_cons]

/-- Lists are cut where the elements they come from are cut. -/
theorem splitOnP_map {β : Type} (f : α → β) (p : β → Bool) (xs : List α) :
    (xs.map f).splitOnP p = (xs.splitOnP (p ∘ f)).map (List.map f) := by
  induction xs with
  | nil => rfl
  | cons x xs ih =>
    rw [List.map_cons, List.splitOnP_cons_eq_if_modifyHead, List.splitOnP_cons_eq_if_modifyHead, ih]
    by_cases hx : p (f x)
    · simp [hx]
    · obtain ⟨first, more, hpieces⟩ :=
        List.exists_cons_of_ne_nil (List.splitOnP_ne_nil (p ∘ f) xs)
      simp [hx, hpieces]

/-- Cut pieces do not hold the separator. -/
theorem not_mem_of_mem_splitOn [BEq α] [LawfulBEq α] {sep : α} {xs : List α} :
    ∀ piece ∈ xs.splitOn sep, sep ∉ piece := by
  induction xs with
  | nil => simp
  | cons x xs ih =>
    rw [List.splitOn_cons_eq_if_modifyHead]
    split
    next h =>
      intro piece hpiece
      rcases List.mem_cons.1 hpiece with rfl | hpiece
      · exact List.not_mem_nil
      · exact ih piece hpiece
    next h =>
      obtain ⟨first, more, hpieces⟩ := List.exists_cons_of_ne_nil (List.splitOn_ne_nil sep xs)
      rw [hpieces, List.modifyHead_cons]
      rw [hpieces] at ih
      intro piece hpiece
      rcases List.mem_cons.1 hpiece with rfl | hpiece
      · have hfirst := ih first List.mem_cons_self
        have hne : sep ≠ x := by
          rintro rfl
          exact h (beq_self_eq_true sep)
        simp [hne, hfirst]
      · exact ih piece (List.mem_cons_of_mem _ hpiece)

end ProductFormula
