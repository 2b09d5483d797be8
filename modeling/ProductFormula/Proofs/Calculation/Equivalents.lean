/-
  Formulas that do the same.

  A calculation sees the kept statements of a formula and nothing else of its
  text (`calculate_congr`).  So a comment may be put in or taken out anywhere
  (`calculate_comment`), and the formula that a record reports, which is made of
  these statements, gives the same record again (`calculate_reported`).

  Of the kept statements those behind the first return are not run
  (`run_append_of_return`): whatever they are, they change nothing but the
  formula that is reported (`calculate_behind_return`).
-/
import ProductFormula.Proofs.Calculation.Locality
import ProductFormula.Proofs.Calculation.Sequence

namespace ProductFormula

open Calculation Text

variable {options : Options} {env : Environment} {text : List Char} {ss : List (List Char)}

/-! ## The same source -/

/-- Texts that leave the same to be run, both blank or neither, are one
    formula. -/
theorem calculate_congr (options : Options) (env : Environment) {formula formula' : String}
    (hblank : isBlankText formula.toList = isBlankText formula'.toList)
    (hsource : sourceOf formula.toList = sourceOf formula'.toList) :
    calculate options formula env = calculate options formula' env := by
  rw [calculate, calculate, hblank, hsource]

/-! ## Comments -/

/-- A comment is not kept, whatever it says. -/
theorem keptStatements_comment {blanks comment : List Char} (hblanks : ∀ c ∈ blanks, isBlank c)
    (hcomment : ';' ∉ comment) : keptStatements (blanks ++ '/' :: '/' :: comment) = [] := by
  have hslash : isBlank '/' = false := rfl
  have hundivided : ';' ∉ blanks ++ '/' :: '/' :: comment := by
    simp [not_mem_of_blanks hblanks, hcomment]
  have htrim : trim (blanks ++ '/' :: '/' :: comment) = '/' :: '/' :: trimEnd comment := by
    have hstart : trimStart ('/' :: '/' :: comment) = '/' :: '/' :: comment :=
      trimStart_eq_self (by rintro c hc; cases hc; rfl)
    rw [trim_blanks_append hblanks, trim, hstart]
    exact trimEnd_append hslash ['/'] comment
  rw [keptStatements_undivided hundivided, htrim]
  rfl

/-- **A comment is as good as nothing.** -/
theorem calculate_comment (options : Options) (env : Environment)
    (before blanks comment after : String) (hblanks : ∀ c ∈ blanks.toList, isBlank c)
    (hcomment : ';' ∉ comment.toList) :
    calculate options (before ++ ";" ++ (blanks ++ "//" ++ comment) ++ ";" ++ after) env =
      calculate options (before ++ ";" ++ after) env := by
  refine calculate_congr options env ?_ ?_
  · rw [isBlankText_joined, isBlankText_joined]
  · have htext : (blanks ++ "//" ++ comment).toList =
        blanks.toList ++ '/' :: '/' :: comment.toList := by simp
    rw [sourceOf_eq_join, sourceOf_eq_join, toList_joined, toList_joined, toList_joined,
      keptStatements_append, keptStatements_append, keptStatements_append, htext,
      keptStatements_comment hblanks hcomment, List.append_nil]

/-- The comment goes over two lines, and its brace stays open. -/
theorem calculate_comment_over_lines :
    (∀ c ∈ " \n".toList, isBlank c) ∧ ';' ∉ " \x7bA\n=2".toList ∧
      calculate {} ("[A] = 1" ++ ";" ++ (" \n" ++ "//" ++ " \x7bA\n=2") ++ ";" ++ "=\x7bA\x7d")
          .empty = calculate {} ("[A] = 1" ++ ";" ++ "=\x7bA\x7d") .empty ∧
      (calculate {} ("[A] = 1" ++ ";" ++ "=\x7bA\x7d") .empty).record.result =
        some (.number (.ofNat 1)) := by
  have hblanks : ∀ c ∈ " \n".toList, isBlank c := List.all_eq_true.1 (by decide +kernel)
  have hcomment : ';' ∉ " \x7bA\n=2".toList := by decide +kernel
  exact ⟨hblanks, hcomment, calculate_comment {} .empty _ _ _ _ hblanks hcomment, by decide +kernel⟩

/-! ## The reported formula -/

/-- **A reported formula gives the same record again.** -/
theorem calculate_reported {formula : String}
    (h : isBlankText (calculate options formula env).record.formula.toList = false) :
    calculate options (calculate options formula env).record.formula env =
      calculate options formula env := by
  cases hblank : isBlankText formula.toList with
  | true =>
    rw [calculate, if_pos hblank] at h
    cases h
  | false =>
    have hformula : (calculate options formula env).record.formula =
        .ofList (sourceOf formula.toList) := by
      rw [(calculate_eq_run options env hblank).2, formula_recordOf]
    rw [hformula, String.toList_ofList] at h
    rw [hformula]
    refine calculate_congr options env ?_ ?_
    · rw [String.toList_ofList, h, hblank]
    · rw [String.toList_ofList, sourceOf_sourceOf]

/-- Blanks, line breaks and a comment are gone from the formula of the record. -/
theorem calculate_reported_spaced :
    isBlankText (calculate {} " [A] =\n1;/\n/ a;\r=\x7bA\x7d; B" .empty).record.formula.toList =
        false ∧
      (calculate {} " [A] =\n1;/\n/ a;\r=\x7bA\x7d; B" .empty).record.formula =
        "[A] =1;=\x7bA\x7d;B" ∧
      calculate {} (calculate {} " [A] =\n1;/\n/ a;\r=\x7bA\x7d; B" .empty).record.formula .empty =
        calculate {} " [A] =\n1;/\n/ a;\r=\x7bA\x7d; B" .empty := by
  have hformula : (calculate {} " [A] =\n1;/\n/ a;\r=\x7bA\x7d; B" .empty).record.formula =
      "[A] =1;=\x7bA\x7d;B" := by decide +kernel
  have hblank : isBlankText
      (calculate {} " [A] =\n1;/\n/ a;\r=\x7bA\x7d; B" .empty).record.formula.toList = false := by
    rw [hformula]
    decide +kernel
  exact ⟨hblank, hformula, calculate_reported hblank⟩

/-! ## Behind the first return -/

/-- **Statements behind a return are not run.** -/
theorem run_append_of_return (line : Nat) (h : ∃ s ∈ ss, StartsReturn s)
    (more : List (List Char)) :
    run options line env (ss ++ more) = run options line env ss := by
  induction ss generalizing line env with
  | nil => simp at h
  | cons s rest ih =>
    rcases run_cons_cases options line env s with ⟨r, -, -, hrun⟩ | ⟨x, middle, heffect, hx, hrun⟩
    · rw [List.cons_append, hrun, hrun]
    · -- where the run goes on, the return is still to come
      have hs : ¬ StartsReturn s := by
        rw [← next?_of_effect heffect, hx]
        exact Option.some_ne_none middle
      obtain ⟨t, ht, hreturn⟩ := h
      have hrest : t ∈ rest := by
        rcases List.mem_cons.1 ht with rfl | ht
        · exact absurd hreturn hs
        · exact ht
      rw [List.cons_append, hrun, hrun, ih (line + 1) ⟨t, hrest, hreturn⟩]

/-- The calculations end in the same way; they may report different formulas,
    and with them different hints. -/
structure SameEnd (c c' : Calculation) : Prop where
  code : c.record.code = c'.record.code
  message : c.record.message = c'.record.message
  result : c.record.result = c'.record.result
  recorded : c.record.environment = c'.record.environment
  environment : c.environment = c'.environment
  log : c.log = c'.log

/-- Of a record only the hints depend on the formula that it reports. -/
theorem recordOf_reports (formula formula' : String) (r : Run) :
    recordOf formula r =
      { recordOf formula' r with formula := formula, hints := (recordOf formula r).hints } := by
  unfold recordOf
  split <;> rfl

theorem sameEnd_of_runOf {formula formula' : String} (hblank : isBlankText formula.toList = false)
    (hblank' : isBlankText formula'.toList = false)
    (hrun : runOf options formula.toList env = runOf options formula'.toList env) :
    SameEnd (calculate options formula env) (calculate options formula' env) := by
  obtain ⟨henv, hrecord⟩ := calculate_eq_run options env hblank
  obtain ⟨henv', hrecord'⟩ := calculate_eq_run options env hblank'
  have hlog := log_calculate options env hblank
  have hlog' := log_calculate options env hblank'
  rw [hrun] at henv hrecord hlog
  rw [recordOf_reports _ (.ofList (sourceOf formula'.toList)), ← hrecord'] at hrecord
  refine ⟨?_, ?_, ?_, ?_, henv.trans henv'.symm, hlog.trans hlog'.symm⟩
  all_goals rw [hrecord]

/-- There is something to be run if there is a return. -/
theorem sourceOf_ne_nil (h : ∃ s ∈ statements (sourceOf text), StartsReturn s) :
    sourceOf text ≠ [] := by
  intro hnil
  rw [hnil] at h
  obtain ⟨s, hs, hreturn⟩ := h
  cases List.mem_singleton.1 hs
  cases hreturn

theorem sourceOf_of_blank (h : isBlankText text = true) : sourceOf text = [] := by
  have htrim : trim text = [] := by simpa [isBlankText] using h
  rw [sourceOf, normalize, htrim]
  rfl

/-- **What stands behind a return is dead.** -/
theorem calculate_behind_return {formula : String}
    (h : ∃ s ∈ statements (sourceOf formula.toList), StartsReturn s) (more : String) :
    SameEnd (calculate options (formula ++ ";" ++ more) env) (calculate options formula env) := by
  have hsource := sourceOf_ne_nil h
  have hblank : isBlankText formula.toList = false := by
    rw [← Bool.not_eq_true]
    exact fun hblank => hsource (sourceOf_of_blank hblank)
  have hkept : keptStatements formula.toList ≠ [] := by
    intro hnil
    rw [sourceOf_eq_join, hnil] at hsource
    exact hsource rfl
  refine sameEnd_of_runOf (isBlankText_joined formula more) hblank ?_
  rw [statements_sourceOf hkept] at h
  rw [toList_joined, runOf_of_kept options env (by simp [keptStatements_append, hkept]),
    runOf_of_kept options env hkept, keptStatements_append]
  exact run_append_of_return 1 h _

/-- An unbound reference, another value of `A` and an open parenthesis behind
    `={A}`. -/
theorem calculate_behind_return_malformed :
    (∃ s ∈ statements (sourceOf "[A] = 1;=\x7bA\x7d".toList), StartsReturn s) ∧
      SameEnd (calculate {} ("[A] = 1;=\x7bA\x7d" ++ ";" ++ "=\x7bB\x7d;[A] = 2;=(") .empty)
        (calculate {} "[A] = 1;=\x7bA\x7d" .empty) ∧
      (calculate {} "[A] = 1;=\x7bA\x7d" .empty).record.result = some (.number (.ofNat 1)) := by
  have hreturn : ∃ s ∈ statements (sourceOf "[A] = 1;=\x7bA\x7d".toList), StartsReturn s :=
    ⟨"=\x7bA\x7d".toList, by decide +kernel, by decide +kernel⟩
  exact ⟨hreturn, calculate_behind_return hreturn _, by decide +kernel⟩

end ProductFormula
