/-
  Formulas one behind the other.

  The statements that are left of a text, once it is normalized and stripped of
  comments (`keptStatements`), are those of its parts wherever it is cut at a
  semicolon (`keptStatements_append`).  So a formula behind another one is run
  in the environment that the first one leaves, if that one comes through, and
  only the numbers of its statements are later ones.

  * `run_later`: from which number statements are counted shows in the line of
    an error only;
  * `calculate_sequence`: what the whole formula does is what the second part
    does behind the first.
-/
import ProductFormula.Proofs.Calculation.Atomicity

namespace ProductFormula

open Calculation Text

variable {options : Options} {env env' : Environment} {front rest s text : List Char}

/-! ## Statements of texts put together -/

theorem statements_append (front rest : List Char) :
    statements (front ++ ';' :: rest) = statements front ++ statements rest :=
  List.splitOn_append_cons_self front rest

theorem statements_eq_singleton (h : ';' ∉ s) : statements s = [s] := List.splitOn_eq_singleton h

/-- The first statement of a text, and the others. -/
theorem statements_cut (h : ';' ∉ s) (rest : List Char) :
    statements (s ++ ';' :: rest) = s :: statements rest :=
  List.splitOn_append_cons_self_of_not_mem h rest

theorem not_mem_of_blanks (h : ∀ c ∈ text, isBlank c) : ';' ∉ text :=
  fun hmem => absurd (h ';' hmem) (by decide)

theorem map_trim_blanks_append (h : ∀ c ∈ front, isBlank c) (text : List Char) :
    (statements (front ++ text)).map trim = (statements text).map trim := by
  have hfront := not_mem_of_blanks h
  by_cases hmem : ';' ∈ text
  · obtain ⟨s, rest, rfl, hs⟩ := List.eq_append_cons_of_mem hmem
    have hboth : ';' ∉ front ++ s := by simp [hfront, hs]
    rw [← List.append_assoc, statements_cut hboth, statements_cut hs, List.map_cons, List.map_cons,
      trim_blanks_append h]
  · have hboth : ';' ∉ front ++ text := by simp [hfront, hmem]
    rw [statements_eq_singleton hboth, statements_eq_singleton hmem, List.map_singleton,
      List.map_singleton, trim_blanks_append h]

theorem map_trim_append_blanks (h : ∀ c ∈ rest, isBlank c) (text : List Char) :
    (statements (text ++ rest)).map trim = (statements text).map trim := by
  by_cases hmem : ';' ∈ text
  · obtain ⟨s, more, htext, hs⟩ := List.eq_append_cons_of_mem hmem
    have shorter : more.length < text.length := by
      simp only [htext, List.length_append, List.length_cons]
      omega
    rw [htext, List.append_assoc, List.cons_append, statements_cut hs, statements_cut hs,
      List.map_cons, List.map_cons, map_trim_append_blanks h more]
  · have hboth : ';' ∉ text ++ rest := by simp [hmem, not_mem_of_blanks h]
    rw [statements_eq_singleton hboth, statements_eq_singleton hmem, List.map_singleton,
      List.map_singleton, trim_append_blanks h]
termination_by text.length

/-- Each statement is trimmed anyway, so blanks around the whole do not matter. -/
theorem map_trim_statements (text : List Char) :
    (statements (trim text)).map trim = (statements text).map trim := by
  obtain ⟨front, back, htext, hfront, hback⟩ := exists_eq_append_trim text
  calc (statements (trim text)).map trim
      = (statements (front ++ trim text)).map trim := (map_trim_blanks_append hfront _).symm
    _ = (statements (front ++ trim text ++ back)).map trim := (map_trim_append_blanks hback _).symm
    _ = (statements text).map trim := by rw [← htext]

theorem statements_normalize_eq_map (text : List Char) : statements (normalize text) =
    ((statements text).map trim).map (List.filter fun c => !isLineBreak c) := by
  rw [statements_normalize, ← map_trim_statements, List.map_map]
  rfl

theorem statements_normalize_append (front rest : List Char) :
    statements (normalize (front ++ ';' :: rest)) =
      statements (normalize front) ++ statements (normalize rest) := by
  simp only [statements_normalize_eq_map, statements_append, List.map_append]

/-! ## Kept statements -/

theorem keptStatements_append (front rest : List Char) :
    keptStatements (front ++ ';' :: rest) = keptStatements front ++ keptStatements rest := by
  rw [keptStatements, statements_normalize_append, List.filter_append]
  rfl

theorem keptStatements_undivided (h : ';' ∉ s) : keptStatements s =
    [(trim s).filter fun c => !isLineBreak c].filter fun s => !isComment s := by
  rw [keptStatements, statements_normalize_eq_map, statements_eq_singleton h, List.map_singleton,
    List.map_singleton]

/-- A statement on its own is kept as it is trimmed, on one line. -/
theorem keptStatements_of_undivided (h : ';' ∉ s)
    (hcomment : isComment ((trim s).filter fun c => !isLineBreak c) = false) :
    keptStatements s = [(trim s).filter fun c => !isLineBreak c] := by
  rw [keptStatements_undivided h, List.filter_cons_of_pos (by rw [hcomment]; rfl), List.filter_nil]

theorem keptStatements_of_canonical (h : Canonical s) : keptStatements s = [s] := by
  have hfilter : (trim s).filter (fun c => !isLineBreak c) = s := by
    rw [h.trimmed.trim_eq_self, List.filter_eq_self]
    intro c hc
    rw [h.oneLine c hc]
    rfl
  rw [keptStatements_of_undivided h.undivided (by rw [hfilter]; exact h.notComment), hfilter]

theorem runOf_of_kept (options : Options) {formula : List Char} (env : Environment)
    (h : keptStatements formula ≠ []) :
    runOf options formula env = run options 1 env (keptStatements formula) := by
  rw [runOf, statements_sourceOf h]

/-- A formula is run as its kept statements; where nothing is kept there is one
    empty statement, which does nothing. -/
theorem runOf_eq_run (options : Options) (formula : List Char) (env : Environment) :
    (runOf options formula env).environment =
        (run options 1 env (keptStatements formula)).environment ∧
      (runOf options formula env).outcome =
        (run options 1 env (keptStatements formula)).outcome := by
  by_cases hne : keptStatements formula = []
  · rw [runOf, sourceOf_eq_join, hne]
    exact run_cons_next 1 [] (effect_nil options env) rfl
  · rw [runOf_of_kept options env hne]
    exact ⟨rfl, rfl⟩

/-! ## Later lines -/

/-- The error with its statement that much later. -/
def Error.later (count : Nat) : Error → Error
  | unresolvedVariable name line => unresolvedVariable name (line + count)
  | malformed line detail => malformed (line + count) detail
  | nestingLimit line limit => nestingLimit (line + count) limit
  | e => e

theorem Error.later_atLine {e : Error} (h : e.Bare) (line count : Nat) :
    (e.atLine line).later count = e.atLine (line + count) := by
  cases e with
  | emptyFormula => rfl
  | unresolvedVariable name held | malformed held detail | nestingLimit held limit =>
    -- an error with a line of its own does not take another one
    have hzero : some held = some 0 := h 0
    have hone : some held = some 1 := h 1
    cases hzero.symm.trans hone
  | parse | evaluation | unknownFunction | argumentCount | missingVariable | depthExceeded => rfl

/-- **Only the line of an error tells from which number statements are
    counted.** -/
theorem run_later (options : Options) (line count : Nat) (env : Environment)
    (ss : List (List Char)) :
    (run options (line + count) env ss).environment = (run options line env ss).environment ∧
      (run options (line + count) env ss).outcome =
        (run options line env ss).outcome.mapError (.later count) := by
  induction ss generalizing line env with
  | nil => exact ⟨rfl, rfl⟩
  | cons s ss ih =>
    cases heffect : effect options env s with
    | error e =>
      have hbare := bare_effect options env s e heffect
      obtain ⟨henv, houtcome⟩ := run_cons_error line ss heffect
      obtain ⟨henv', houtcome'⟩ := run_cons_error (line + count) ss heffect
      rw [henv, henv', houtcome, houtcome', ← Error.later_atLine hbare]
      exact ⟨rfl, rfl⟩
    | ok x =>
      cases hnext : x.next? env with
      | none =>
        cases x with
        | returns v =>
          obtain ⟨henv, houtcome⟩ := run_cons_returns line ss heffect
          obtain ⟨henv', houtcome'⟩ := run_cons_returns (line + count) ss heffect
          rw [henv, henv', houtcome, houtcome']
          exact ⟨rfl, rfl⟩
        | assigns | nothing => cases hnext
      | some middle =>
        obtain ⟨henv, houtcome⟩ := run_cons_next line ss heffect hnext
        obtain ⟨henv', houtcome'⟩ := run_cons_next (line + count) ss heffect hnext
        rw [henv, henv', houtcome, houtcome', Nat.add_right_comm]
        exact ih (line + 1) middle

/-- **A text behind one that came through is run where that one ended.** -/
theorem runOf_append (h : Passes options 1 env (keptStatements front) env') (rest : List Char) :
    (runOf options (front ++ ';' :: rest) env).environment =
        (runOf options rest env').environment ∧
      (runOf options (front ++ ';' :: rest) env).outcome =
        (runOf options rest env').outcome.mapError (.later (keptStatements front).length) := by
  obtain ⟨hwholeEnv, hwholeOutcome⟩ := runOf_eq_run options (front ++ ';' :: rest) env
  obtain ⟨hrestEnv, hrestOutcome⟩ := runOf_eq_run options rest env'
  obtain ⟨hbehindEnv, hbehindOutcome⟩ := run_append h (keptStatements rest)
  obtain ⟨hlaterEnv, hlaterOutcome⟩ :=
    run_later options 1 (keptStatements front).length env' (keptStatements rest)
  rw [hwholeEnv, hwholeOutcome, hrestEnv, hrestOutcome, keptStatements_append]
  exact ⟨hbehindEnv.trans hlaterEnv, hbehindOutcome.trans hlaterOutcome⟩

/-! ## One formula behind the other -/

/-- A formula without an error and without a return comes through. -/
theorem passes_of_calculate {formula : String}
    (hcode : (calculate options formula env).record.code = 0)
    (hreturn : ∀ s ∈ statements (calculate options formula env).record.formula.toList,
      ¬ StartsReturn s) :
    Passes options 1 env (keptStatements formula.toList)
      (calculate options formula env).environment := by
  have hblank : isBlankText formula.toList = false := by
    rw [← Bool.not_eq_true]
    intro hblank
    rw [calculate, if_pos hblank] at hcode
    cases hcode
  obtain ⟨henv, hrecord⟩ := calculate_eq_run options env hblank
  rw [hrecord, formula_recordOf, String.toList_ofList] at hreturn
  rw [hrecord, recordOf] at hcode
  obtain ⟨hkeptEnv, hkeptOutcome⟩ := runOf_eq_run options formula.toList env
  rw [henv, hkeptEnv]
  refine ⟨?_, rfl⟩
  rw [← hkeptOutcome]
  cases ends options env (statements (sourceOf formula.toList)) with
  | passed h => exact h.1
  | failed _ _ _ houtcome _ =>
    rw [← runOf] at houtcome
    rw [houtcome] at hcode
    exact absurd hcode (code_ne_zero _)
  | returned hss _ _ _ hs => exact absurd hs (hreturn _ (by rw [hss]; simp))

theorem isBlankText_of_mem {c : Char} (h : c ∈ text) (hc : isBlank c = false) :
    isBlankText text = false := by
  rw [isBlankText, beq_eq_false_iff_ne]
  exact List.ne_nil_of_mem (mem_trim h hc)

theorem isBlankText_joined (first second : String) :
    isBlankText (first ++ ";" ++ second).toList = false := by
  refine isBlankText_of_mem (c := ';') ?_ rfl
  rw [toList_joined]
  simp

/-- The second calculation is the end of the whole one: it has the same outcome
    and leaves the same, and an error has its statement that much later. -/
structure Continues (count : Nat) (second whole : Calculation) : Prop where
  code : whole.record.code = second.record.code
  result : whole.record.result = second.record.result
  environment : whole.environment = second.environment
  failed : second.record.code ≠ 0 → ∃ error line, error.line? = some line ∧
    second.record = .failure second.record.formula second.environment error ∧
    whole.record = .failure whole.record.formula whole.environment (error.later count)

theorem code_later (e : Error) (count : Nat) : (e.later count).code = e.code := by
  cases e <;> rfl

/-- An error of a run carries the number of its statement. -/
theorem exists_line {ss : List (List Char)} {e : Error}
    (h : (run options 1 env ss).outcome = .error e) : ∃ line, e.line? = some line := by
  cases ends options env ss with
  | passed hpasses => cases hpasses.1.symm.trans h
  | failed _ _ _ houtcome hline =>
    cases houtcome.symm.trans h
    exact ⟨_, hline⟩
  | returned _ _ _ houtcome => cases houtcome.symm.trans h

theorem continues_of_run {count : Nat} {second whole : Calculation} {r r' : Run}
    {formula formula' : String} (hsecond : second.record = recordOf formula r)
    (hwhole : whole.record = recordOf formula' r') (henv : second.environment = r.environment)
    (henv' : whole.environment = r'.environment) (hsame : r'.environment = r.environment)
    (houtcome : r'.outcome = r.outcome.mapError (.later count))
    (hline : ∀ e, r.outcome = .error e → ∃ line, e.line? = some line) :
    Continues count second whole := by
  have hleft : whole.environment = second.environment := by rw [henv, henv', hsame]
  cases hr : r.outcome with
  | ok result =>
    rw [hr, Except.mapError] at houtcome
    have hsuccess : second.record = .success formula r.environment result := by
      rw [hsecond, recordOf, hr]
    have hsuccess' : whole.record = .success formula' r'.environment result := by
      rw [hwhole, recordOf, houtcome]
    refine ⟨?_, ?_, hleft, fun hcode => absurd ?_ hcode⟩
    · rw [hsuccess, hsuccess']
      rfl
    · rw [hsuccess, hsuccess']
      rfl
    · rw [hsuccess]
      rfl
  | error e =>
    obtain ⟨line, hline⟩ := hline e hr
    rw [hr, Except.mapError] at houtcome
    have hfailure : second.record = .failure formula second.environment e := by
      rw [hsecond, recordOf, hr, henv]
    have hfailure' : whole.record = .failure formula' whole.environment (e.later count) := by
      rw [hwhole, recordOf, houtcome, henv']
    refine ⟨?_, ?_, hleft, fun _ => ⟨e, line, hline, ?_, ?_⟩⟩
    · rw [hfailure, hfailure']
      exact code_later e count
    · rw [hfailure, hfailure']
      rfl
    · rw [hfailure]
      rfl
    · rw [hfailure']
      rfl

/-- **A formula behind another one that comes through does what it does from
    where that one ended**, in statements that are later by those of the first
    that are no comments. -/
theorem calculate_sequence {first second : String}
    (hcode : (calculate options first env).record.code = 0)
    (hreturn : ∀ s ∈ statements (calculate options first env).record.formula.toList,
      ¬ StartsReturn s)
    (hsecond : isBlankText second.toList = false) :
    Continues (keptStatements first.toList).length
      (calculate options second (calculate options first env).environment)
      (calculate options (first ++ ";" ++ second) env) := by
  have hpasses := passes_of_calculate hcode hreturn
  obtain ⟨hsame, houtcome⟩ := runOf_append hpasses second.toList
  obtain ⟨henv, hrecord⟩ := calculate_eq_run options _ hsecond
  obtain ⟨henv', hrecord'⟩ := calculate_eq_run options env (isBlankText_joined first second)
  rw [toList_joined] at henv' hrecord'
  exact continues_of_run hrecord hrecord' henv henv' hsame houtcome fun e he => exists_line he

/-- `={B}` behind a comment and an assignment fails in the second statement. -/
theorem calculate_sequence_unbound :
    (calculate {} "// rate;[A] = 1" .empty).record.code = 0 ∧
      (∀ s ∈ statements (calculate {} "// rate;[A] = 1" .empty).record.formula.toList,
        ¬ StartsReturn s) ∧
      isBlankText "=\x7bB\x7d".toList = false ∧
      Continues 1 (calculate {} "=\x7bB\x7d" (calculate {} "// rate;[A] = 1" .empty).environment)
        (calculate {} ("// rate;[A] = 1" ++ ";" ++ "=\x7bB\x7d") .empty) := by
  have hcode : (calculate {} "// rate;[A] = 1" .empty).record.code = 0 := by decide +kernel
  have hreturn : ∀ s ∈ statements (calculate {} "// rate;[A] = 1" .empty).record.formula.toList,
      ¬ StartsReturn s := by decide +kernel
  have hkept : (keptStatements "// rate;[A] = 1".toList).length = 1 := by decide +kernel
  have hsecond : isBlankText "=\x7bB\x7d".toList = false := by decide
  have hcontinues := calculate_sequence hcode hreturn hsecond
  rw [hkept] at hcontinues
  exact ⟨hcode, hreturn, hsecond, hcontinues⟩

end ProductFormula
