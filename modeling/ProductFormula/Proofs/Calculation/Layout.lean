/-
  The layout of a formula.

  Line breaks may stand anywhere in a formula, and blanks at its ends and next to
  its semicolons; two texts that differ in such characters only have the same
  layout apart (`Relaid`).  Normalizing undoes the layout: it leaves each
  statement without them (`statements_normalize_eq_map`), and does not care
  whether line breaks are dropped before or after the blanks are trimmed
  (`normalize_filter`), so none that was dropped had kept a blank from an end.

  * `Spaced.normalize_eq`: a character more of layout makes no difference;
  * `normalize_canonical`: a normalized text is what all texts with another
    layout are normalized to, and calculated as.
-/
import Mathlib.Logic.Relation
import ProductFormula.Proofs.Calculation.Equivalents
import ProductFormula.Proofs.Calculation.Records

namespace ProductFormula

open Text

variable {text text' : List Char}

/-! ## Normalized texts -/

theorem length_statements_normalize (text : List Char) :
    (statements (normalize text)).length = (statements text).length := by
  rw [statements_normalize_eq_map, List.length_map, List.length_map]

/-- Normalized statements start and end with no blank, and hold no line break. -/
theorem trimmed_of_mem_normalize : ∀ s ∈ statements (normalize text),
    Trimmed s ∧ ∀ c ∈ s, isLineBreak c = false := by
  rw [statements_normalize_eq_map, List.map_map]
  rintro _ hs
  obtain ⟨s, -, rfl⟩ := List.mem_map.1 hs
  refine ⟨(trimmed_trim s).filter fun c hc => by rw [isLineBreak_of_isBlank hc]; rfl, ?_⟩
  intro c hc
  simpa using (List.mem_filter.1 hc).2

theorem normalize_eq_of_statements
    (h : ((statements text).map trim).map (List.filter fun c => !isLineBreak c) =
      ((statements text').map trim).map (List.filter fun c => !isLineBreak c)) :
    normalize text = normalize text' := by
  rw [← joinStatements_statements (normalize text), ← joinStatements_statements (normalize text'),
    statements_normalize_eq_map, statements_normalize_eq_map, h]

/-- **What is normalized stays as it is.** -/
theorem normalize_normalize (text : List Char) : normalize (normalize text) = normalize text := by
  have hclean : ∀ s ∈ statements (normalize text),
      (trim s).filter (fun c => !isLineBreak c) = s := by
    intro s hs
    obtain ⟨htrimmed, honeLine⟩ := trimmed_of_mem_normalize s hs
    rw [htrimmed.trim_eq_self, List.filter_eq_self]
    intro c hc
    rw [honeLine c hc]
    rfl
  have hsame : statements (normalize (normalize text)) = statements (normalize text) := by
    rw [statements_normalize_eq_map (normalize text), List.map_map]
    exact (List.map_congr_left hclean).trans (List.map_id' _)
  rw [← joinStatements_statements (normalize (normalize text)), hsame, joinStatements_statements]

/-! ## Line breaks -/

theorem statements_filter (text : List Char) :
    statements (text.filter fun c => !isLineBreak c) =
      (statements text).map (List.filter fun c => !isLineBreak c) := by
  have hjoin : text.filter (fun c => !isLineBreak c) =
      joinStatements ((statements text).map (List.filter fun c => !isLineBreak c)) := by
    rw [joinStatements, ← filter_intercalate rfl]
    exact congrArg _ (joinStatements_statements text).symm
  rw [hjoin]
  refine statements_joinStatements (List.forall_mem_map.2 fun s hs hmem => ?_)
    (by simpa using statements_ne_nil text)
  exact undivided_of_mem_statements s hs (List.mem_filter.1 hmem).1

/-- Line breaks may as well be dropped first. -/
theorem normalize_filter (text : List Char) :
    normalize (text.filter fun c => !isLineBreak c) = normalize text := by
  apply normalize_eq_of_statements
  rw [statements_filter, List.map_map, List.map_map, List.map_map]
  refine List.map_congr_left fun s _ => ?_
  simp only [Function.comp_apply]
  rw [trim_filter fun c hc => by rw [isLineBreak_of_isBlank hc]; rfl, List.filter_filter]
  simp only [Bool.and_self]

/-! ## Blanks -/

/-- The second text has one character of layout more: a line break anywhere, or
    a blank at an end or next to a semicolon. -/
inductive Spaced : List Char → List Char → Prop
  | lineBreak {front back c} : isLineBreak c → Spaced (front ++ back) (front ++ c :: back)
  | start {text c} : isBlank c → Spaced text (c :: text)
  | stop {text c} : isBlank c → Spaced text (text ++ [c])
  | before {front back c} : isBlank c → Spaced (front ++ ';' :: back) (front ++ c :: ';' :: back)
  | behind {front back c} : isBlank c → Spaced (front ++ ';' :: back) (front ++ ';' :: c :: back)

/-- **A character of layout makes no difference.** -/
theorem Spaced.normalize_eq (h : Spaced text text') : normalize text = normalize text' := by
  cases h with
  | @lineBreak front back c hc =>
    rw [← normalize_filter, ← normalize_filter (front ++ c :: back), List.filter_append,
      List.filter_append, List.filter_cons_of_neg (by simp [hc])]
  | start hc =>
    have htrim := map_trim_blanks_append (List.forall_mem_singleton.2 hc) text
    exact normalize_eq_of_statements (congrArg _ htrim.symm)
  | stop hc =>
    have htrim := map_trim_append_blanks (List.forall_mem_singleton.2 hc) text
    exact normalize_eq_of_statements (congrArg _ htrim.symm)
  | @before front back c hc =>
    have htrim := map_trim_append_blanks (List.forall_mem_singleton.2 hc) front
    have hcut : front ++ c :: ';' :: back = front ++ [c] ++ ';' :: back := by simp
    apply normalize_eq_of_statements
    simp only [hcut, statements_append, List.map_append, htrim]
  | @behind front back c hc =>
    have htrim := map_trim_blanks_append (List.forall_mem_singleton.2 hc) back
    apply normalize_eq_of_statements
    simp only [statements_append, List.map_append, ← htrim, List.singleton_append]

theorem isBlank_of_isLineBreak {c : Char} (h : isLineBreak c) : isBlank c := by
  by_contra hc
  rw [isLineBreak_of_isBlank (by simpa using hc)] at h
  cases h

theorem Spaced.isBlankText_eq (h : Spaced text text') : isBlankText text = isBlankText text' := by
  rw [Bool.eq_iff_iff, isBlankText_eq_true_iff, isBlankText_eq_true_iff]
  cases h with
  | lineBreak hc =>
    simp only [List.forall_mem_append, List.forall_mem_cons, isBlank_of_isLineBreak hc, true_and]
  | start hc => simp only [List.forall_mem_cons, hc, true_and]
  | stop hc => simp only [List.forall_mem_append, List.forall_mem_singleton, hc, and_true]
  | before hc | behind hc =>
    simp only [List.forall_mem_append, List.forall_mem_cons, hc, true_and]

/-! ## Other layouts -/

/-- The texts differ in their layout: characters of it are put in and taken out,
    any number of them. -/
def Relaid : List Char → List Char → Prop := Relation.EqvGen Spaced

/-- What no character of layout changes is the same in all layouts. -/
theorem Relaid.congr {β : Type} {f : List Char → β}
    (hf : ∀ text text', Spaced text text' → f text = f text') (h : Relaid text text') :
    f text = f text' :=
  congrArg (Quot.lift f hf) (Quot.eqvGen_sound h)

/-- **Normalizing undoes the layout and nothing else.**  A text keeps its number
    of statements, each trimmed and on one line; a normalized text stays as it
    is; and texts that differ in their layout are normalized alike, so that they
    are calculated alike. -/
theorem normalize_canonical (text : List Char) :
    (statements (normalize text)).length = (statements text).length ∧
      (∀ s ∈ statements (normalize text), Trimmed s ∧ ∀ c ∈ s, isLineBreak c = false) ∧
      normalize (normalize text) = normalize text ∧
      ∀ text', Relaid text text' → normalize text = normalize text' ∧
        ∀ options env,
          calculate options (.ofList text) env = calculate options (.ofList text') env := by
  refine ⟨length_statements_normalize text, trimmed_of_mem_normalize, normalize_normalize text,
    fun text' h => ?_⟩
  have hnormalize : normalize text = normalize text' := h.congr fun _ _ => Spaced.normalize_eq
  have hblank : isBlankText text = isBlankText text' := h.congr fun _ _ => Spaced.isBlankText_eq
  refine ⟨hnormalize, fun options env => calculate_congr options env ?_ ?_⟩
  · rw [String.toList_ofList, String.toList_ofList, hblank]
  · rw [String.toList_ofList, String.toList_ofList, sourceOf, sourceOf, hnormalize]

/-- A blank in front is taken out, a line break and a wide blank are put in. -/
theorem normalize_canonical_spaced :
    Relaid " =1;B".toList "=1\n;\u3000B".toList ∧
      normalize " =1;B".toList = normalize "=1\n;\u3000B".toList ∧
      normalize "=1\n;\u3000B".toList = "=1;B".toList ∧
      ∀ options env, calculate options (.ofList " =1;B".toList) env =
        calculate options (.ofList "=1\n;\u3000B".toList) env := by
  have hfront : Spaced "=1;B".toList " =1;B".toList := .start rfl
  have hbreak : Spaced "=1;B".toList "=1\n;B".toList :=
    @Spaced.lineBreak "=1".toList ";B".toList '\n' rfl
  have hwide : Spaced "=1\n;B".toList "=1\n;\u3000B".toList :=
    @Spaced.behind "=1\n".toList "B".toList '\u3000' rfl
  have hrelaid : Relaid " =1;B".toList "=1\n;\u3000B".toList :=
    .trans _ _ _ (.symm _ _ (.rel _ _ hfront)) (.trans _ _ _ (.rel _ _ hbreak) (.rel _ _ hwide))
  obtain ⟨-, -, -, hsame⟩ := normalize_canonical " =1;B".toList
  obtain ⟨hnormalize, hcalculate⟩ := hsame _ hrelaid
  exact ⟨hrelaid, hnormalize, by decide +kernel, hcalculate⟩

end ProductFormula
