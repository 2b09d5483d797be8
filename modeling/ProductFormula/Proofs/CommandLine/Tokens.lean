/-
  Listing the pieces of a formula loses nothing.

  The command `tokens` prints a line for each piece, whitespace included
  (`printTokens_whitespace`): its kind, one tab, and its text escaped
  (`IsLine`).  The escaped text holds no tab and no line feed, so the lines can
  be told apart, and the tab in each of them.  Escaped texts tell what they were
  (`Text.Escaped.unique`), and the pieces joined are the formula.

  * `printTokens_lossless`: the formula is told by what is printed.
-/
import Mathlib.Data.List.Forall2
import ProductFormula.Proofs.CommandLine.Check
import ProductFormula.Proofs.Highlight.Coverage
import ProductFormula.Proofs.Text.Escape

namespace ProductFormula.CommandLine

open Highlight (Span)

variable {span span' : Span}

/-! ## One line -/

/-- A line that lists the span. -/
def IsLine (span : Span) (line : List Char) : Prop :=
  ∃ escaped, line = span.kind.label.toList ++ '\t' :: escaped ∧
    Text.Escaped span.text.toList escaped ∧ '\t' ∉ escaped ∧ '\n' ∉ escaped ∧ line.count '\t' = 1

theorem not_mem_label (kind : Highlight.Kind) :
    '\t' ∉ kind.label.toList ∧ '\n' ∉ kind.label.toList := by
  cases kind <;> decide

theorem escaped_escape (s : String) : Text.Escaped s.toList (Text.escape s).toList := by
  rw [Text.escape, String.toList_ofList]
  exact Text.escaped_escapeChars s.toList

theorem toList_spanLine (span : Span) :
    (spanLine span).toList =
      span.kind.label.toList ++ (['\t'] ++ (Text.escape span.text).toList) := by
  have htab : "\t".toList = ['\t'] := rfl
  rw [spanLine, String.toList_append, String.toList_append, htab, List.append_assoc]

theorem isLine_spanLine (span : Span) : IsLine span (spanLine span).toList := by
  have hescaped := escaped_escape span.text
  have htab := hescaped.not_mem (.inl rfl)
  refine ⟨_, toList_spanLine span, hescaped, htab, hescaped.not_mem (.inr rfl), ?_⟩
  rw [toList_spanLine, List.singleton_append, List.count_append, List.count_cons_self,
    List.count_eq_zero.2 htab, List.count_eq_zero.2 (not_mem_label span.kind).1]

theorem oneLine_spanLine (span : Span) : '\n' ∉ (spanLine span).toList := by
  have hescaped := (escaped_escape span.text).not_mem (.inr rfl)
  rw [toList_spanLine]
  simp [not_mem_label span.kind, hescaped]

/-- A line tells the text of its span. -/
theorem text_eq_of_spanLine_eq (h : spanLine span = spanLine span') : span.text = span'.text := by
  have hlist := congrArg String.toList h
  rw [toList_spanLine, toList_spanLine] at hlist
  have hescape : (Text.escape span.text).toList = (Text.escape span'.text).toList :=
    (Text.append_cons_inj (not_mem_label _).1 (not_mem_label _).1 hlist).2
  have hescaped := escaped_escape span.text
  rw [hescape] at hescaped
  exact String.toList_inj.1 (hescaped.unique (escaped_escape span'.text))

/-! ## All lines -/

theorem printTokens_whitespace (formula : String) :
    printTokens true formula = ⟨0, lines ((highlight formula).map spanLine)⟩ := by
  simp [printTokens]

/-- Lines are what stands between line feeds, and nothing stands behind the
    last one. -/
theorem splitOn_lines {texts : List String} (h : ∀ text ∈ texts, '\n' ∉ text.toList) :
    (lines texts).toList.splitOn '\n' = texts.map String.toList ++ [[]] := by
  have hjoined : (lines texts).toList = ['\n'].intercalate (texts.map String.toList ++ [[]]) := by
    rw [toList_lines]
    induction texts with
    | nil => rfl
    | cons text texts ih =>
      rw [List.flatMap_cons, ih (List.forall_mem_cons.1 h).2, List.map_cons, List.cons_append,
        List.intercalate_cons_of_ne_nil (by simp)]
  have hline : ∀ cs ∈ texts.map String.toList ++ [[]], '\n' ∉ cs := by
    rw [List.forall_mem_append, List.forall_mem_map, List.forall_mem_singleton]
    exact ⟨h, List.not_mem_nil⟩
  rw [hjoined, List.splitOn_intercalate '\n' hline (by simp)]

/-- **The listing of a formula** has a line for each piece in order, and no two
    formulas have the same. -/
theorem printTokens_lossless (formula : String) :
    (∃ listed, (printTokens true formula).text.toList.splitOn '\n' = listed ++ [[]] ∧
      List.Forall₂ IsLine (highlight formula) listed) ∧
    ∀ formula', (printTokens true formula').text = (printTokens true formula).text →
      formula' = formula := by
  have honeLine (formula : String) :
      ∀ line ∈ (highlight formula).map spanLine, '\n' ∉ line.toList :=
    List.forall_mem_map.2 fun span _ => oneLine_spanLine span
  constructor
  · refine ⟨((highlight formula).map spanLine).map String.toList, ?_, ?_⟩
    · rw [printTokens_whitespace, splitOn_lines (honeLine formula)]
    · rw [List.forall₂_map_right_iff, List.forall₂_map_right_iff, List.forall₂_same]
      exact fun span _ => isLine_spanLine span
  · intro formula' h
    rw [printTokens_whitespace, printTokens_whitespace] at h
    have hlines := lines_injective (honeLine formula') (honeLine formula) h
    rw [← List.forall₂_eq_eq_eq, List.forall₂_map_left_iff, List.forall₂_map_right_iff] at hlines
    have htexts : (highlight formula').map (·.text) = (highlight formula).map (·.text) := by
      rw [← List.forall₂_eq_eq_eq, List.forall₂_map_left_iff, List.forall₂_map_right_iff]
      exact hlines.imp fun _ _ => text_eq_of_spanLine_eq
    rw [← Highlight.joinedText_highlight formula', ← Highlight.joinedText_highlight formula,
      Highlight.joinedText, Highlight.joinedText, htexts]

end ProductFormula.CommandLine
