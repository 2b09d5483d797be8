/-
  The formula text that is run.

  The statements of a formula text, once it is normalized and stripped of
  comments (`keptStatements`), are trimmed, on one line, and no comments (`Canonical`).  Such
  statements joined again are a text that nothing more is done to
  (`sourceOf_joinStatements`), so a front of a reported formula is run as it
  stands, and so is the whole of it (`sourceOf_sourceOf`).
-/
import ProductFormula.Calculation
import ProductFormula.Proofs.Text.Trim

namespace ProductFormula

open Text

/-- A statement of a text that is run. -/
structure Canonical (s : List Char) : Prop where
  trimmed : Trimmed s
  oneLine : ∀ c ∈ s, isLineBreak c = false
  undivided : ';' ∉ s
  notComment : isComment s = false

variable {ss : List (List Char)}

/-! ## Statements of a text -/

theorem statements_ne_nil (text : List Char) : statements text ≠ [] := List.splitOn_ne_nil ';' text

theorem undivided_of_mem_statements {text : List Char} : ∀ s ∈ statements text, ';' ∉ s :=
  not_mem_of_mem_splitOn

theorem statements_joinStatements (h : ∀ s ∈ ss, ';' ∉ s) (hne : ss ≠ []) :
    statements (joinStatements ss) = ss :=
  List.splitOn_intercalate ';' h hne

theorem toList_joined (first second : String) :
    (first ++ ";" ++ second).toList = first.toList ++ ';' :: second.toList := by
  simp

theorem joinStatements_statements (text : List Char) : joinStatements (statements text) = text :=
  List.intercalate_splitOn ';'

/-! ## Canonical statements -/

theorem isLineBreak_of_isBlank {c : Char} (h : isBlank c = false) : isLineBreak c = false := by
  by_cases hline : c = '\n'
  · subst hline
    cases h
  by_cases hreturn : c = '\r'
  · subst hreturn
    cases h
  · simp [isLineBreak, hline, hreturn]

theorem canonical_nil : Canonical [] := ⟨trimmed_nil, by simp, by simp, rfl⟩

/-- Normalizing puts every statement on one line and trims it. -/
theorem statements_normalize (text : List Char) : statements (normalize text) =
    (statements (trim text)).map fun s => (trim s).filter fun c => !isLineBreak c := by
  have hjoin : normalize text = joinStatements
      ((statements (trim text)).map fun s => (trim s).filter fun c => !isLineBreak c) := by
    rw [normalize, joinStatements, filter_intercalate rfl, List.map_map]
    rfl
  rw [hjoin]
  refine statements_joinStatements ?_ (by simpa using statements_ne_nil _)
  rintro _ hs hmem
  obtain ⟨s, hstatement, rfl⟩ := List.mem_map.1 hs
  have hmem := (isPrefix_trimEnd (trimStart s)).subset (List.mem_filter.1 hmem).1
  exact undivided_of_mem_statements s hstatement ((List.dropWhile_suffix isBlank).subset hmem)

theorem canonical_of_mem_normalize {text : List Char} :
    ∀ s ∈ statements (normalize text), isComment s = false → Canonical s := by
  intro s hs hcomment
  refine ⟨?_, ?_, undivided_of_mem_statements s hs, hcomment⟩
  · rw [statements_normalize] at hs
    obtain ⟨s, -, rfl⟩ := List.mem_map.1 hs
    exact (trimmed_trim s).filter fun c hc => by rw [isLineBreak_of_isBlank hc]; rfl
  · rw [statements_normalize] at hs
    obtain ⟨s, -, rfl⟩ := List.mem_map.1 hs
    intro c hc
    simpa using (List.mem_filter.1 hc).2

/-- The statements of a formula that are no comments. -/
def keptStatements (formula : List Char) : List (List Char) :=
  (statements (normalize formula)).filter fun s => !isComment s

theorem sourceOf_eq_join (formula : List Char) :
    sourceOf formula = joinStatements (keptStatements formula) := rfl

theorem canonical_of_mem_keptStatements {formula : List Char} :
    ∀ s ∈ keptStatements formula, Canonical s := by
  intro s hs
  obtain ⟨hmem, hcomment⟩ := List.mem_filter.1 hs
  exact canonical_of_mem_normalize s hmem (by simpa using hcomment)

theorem statements_sourceOf {formula : List Char} (h : keptStatements formula ≠ []) :
    statements (sourceOf formula) = keptStatements formula := by
  rw [sourceOf_eq_join]
  exact statements_joinStatements (fun s hs => (canonical_of_mem_keptStatements s hs).undivided) h

/-- **The statements of a text that is run are canonical.** -/
theorem canonical_of_mem_sourceOf {formula : List Char} :
    ∀ s ∈ statements (sourceOf formula), Canonical s := by
  by_cases hne : keptStatements formula = []
  · -- nothing but comments leaves one empty statement
    rw [sourceOf_eq_join, hne]
    intro s hs
    cases List.mem_singleton.1 hs
    exact canonical_nil
  · rw [statements_sourceOf hne]
    exact canonical_of_mem_keptStatements

/-! ## Texts that stay as they are -/

variable (h : ∀ s ∈ ss, Canonical s)
include h

theorem trim_joinStatements : trim (joinStatements ss) = joinStatements ss :=
  (trimmed_intercalate rfl fun s hs => (h s hs).trimmed).trim_eq_self

theorem normalize_joinStatements (hne : ss ≠ []) :
    normalize (joinStatements ss) = joinStatements ss := by
  have htrim : ss.map trim = ss :=
    (List.map_congr_left fun s hs => (h s hs).trimmed.trim_eq_self).trans (List.map_id' ss)
  have hfilter : ∀ c ∈ joinStatements ss, (!isLineBreak c) = true := by
    refine forall_mem_intercalate (p := fun c => (!isLineBreak c) = true) rfl fun s hs c hc => ?_
    rw [(h s hs).oneLine c hc]
    rfl
  rw [normalize, trim_joinStatements h,
    statements_joinStatements (fun s hs => (h s hs).undivided) hne, htrim,
    List.filter_eq_self.2 hfilter]

/-- **Canonical statements are run as they stand.** -/
theorem sourceOf_joinStatements (hne : ss ≠ []) :
    sourceOf (joinStatements ss) = joinStatements ss := by
  have hfilter : ss.filter (fun s => !isComment s) = ss := by
    refine List.filter_eq_self.2 fun s hs => ?_
    rw [(h s hs).notComment]
    rfl
  rw [sourceOf, normalize_joinStatements h hne, stripComments,
    statements_joinStatements (fun s hs => (h s hs).undivided) hne, hfilter]

omit h

/-- **The text that is run stays as it is.** -/
theorem sourceOf_sourceOf (text : List Char) : sourceOf (sourceOf text) = sourceOf text := by
  by_cases hne : keptStatements text = []
  · have hnil : sourceOf text = [] := by rw [sourceOf_eq_join, hne]; rfl
    rw [hnil]
    rfl
  · exact sourceOf_joinStatements canonical_of_mem_keptStatements hne

end ProductFormula
