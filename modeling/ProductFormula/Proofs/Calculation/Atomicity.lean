/-
  A statement is run wholly or not at all.

  A calculation leaves what the statements before the one it ends at leave when
  they are a formula of their own (`calculate_atomic`): the failing statement,
  the return, and all behind them leave no trace.

  * `Leaves` says what a formula of its own leaves, if it neither fails nor
    returns;
  * `leaves_of_passes`: statements that a run came through are such a formula.
-/
import ProductFormula.Proofs.Calculation.Lines
import ProductFormula.Proofs.Calculation.Source

namespace ProductFormula

open Calculation Text

variable {options : Options} {env env' : Environment}

/-! ## Calculations and runs -/

/-- The record of a run. -/
def recordOf (formula : String) (r : Run) : Record :=
  match r.outcome with
  | .ok result => .success formula r.environment result
  | .error e => .failure formula r.environment e

/-- The run of a formula's statements. -/
def runOf (options : Options) (formula : List Char) (env : Environment) : Run :=
  run options 1 env (statements (sourceOf formula))

/-- A formula that is not blank is a run of its statements. -/
theorem calculate_eq_run (options : Options) (env : Environment) {formula : String}
    (h : isBlankText formula.toList = false) :
    (calculate options formula env).environment =
        (runOf options formula.toList env).environment ∧
      (calculate options formula env).record =
        recordOf (.ofList (sourceOf formula.toList)) (runOf options formula.toList env) := by
  rw [calculate, if_neg (by simp [h])]
  dsimp only
  rw [← runOf]
  generalize runOf options formula.toList env = r
  obtain ⟨environment, outcome, log⟩ := r
  cases outcome with
  | error e => exact ⟨rfl, rfl⟩
  | ok result => exact ⟨rfl, rfl⟩

theorem formula_recordOf (formula : String) (r : Run) :
    (recordOf formula r).formula = formula := by
  unfold recordOf
  split <;> rfl

theorem environment_recordOf (formula : String) (r : Run) :
    (recordOf formula r).environment = r.environment := by
  unfold recordOf
  split <;> rfl

theorem code_ne_zero (e : Error) : e.code ≠ 0 := by
  cases e <;> simp [Error.code]

/-! ## Formulas of their own -/

/-- The formula neither fails nor returns, and leaves this environment; a blank
    one is not run. -/
inductive Leaves (options : Options) (formula : String) (env env' : Environment) : Prop
  | blank : isBlankText formula.toList = true → env' = env → Leaves options formula env env'
  | runs : (calculate options formula env).record.code = 0 →
      (calculate options formula env).record.result = none →
      (calculate options formula env).environment = env' → Leaves options formula env env'

/-- The first statements of a formula. -/
def firstStatements (count : Nat) (formula : String) : String :=
  .ofList (joinStatements ((statements formula.toList).take count))

theorem effect_nil (options : Options) (env : Environment) :
    effect options env [] = .ok .nothing := by
  simp [effect, requiredNames, Segment.ofText, checkBound, Statement.ofText,
    Statement.assignment?, perform, bind, Except.bind]

theorem passes_empty (h : Passes options 1 env [[]] env') : env' = env := by
  obtain ⟨x, middle, heffect, hx, hrest⟩ := passes_cons_iff.1 h
  rw [effect_nil] at heffect
  cases heffect
  cases hx
  exact hrest.2.symm

theorem joinStatements_eq_nil {ss : List (List Char)} (h : joinStatements ss = []) :
    ss = [] ∨ ss = [[]] := by
  rcases ss with _ | ⟨s, ss⟩
  · exact .inl rfl
  · right
    by_cases hne : ss = []
    · subst hne
      simpa [joinStatements] using h
    · rw [joinStatements, List.intercalate_cons_of_ne_nil hne] at h
      simp at h

/-- Canonical statements that a run came through do the same on their own. -/
theorem leaves_of_passes {ss : List (List Char)} (hss : ∀ s ∈ ss, Canonical s)
    (h : Passes options 1 env ss env') :
    Leaves options (.ofList (joinStatements ss)) env env' := by
  have hblank : isBlankText (String.ofList (joinStatements ss)).toList =
      (joinStatements ss == []) := by
    rw [String.toList_ofList, isBlankText, trim_joinStatements hss]
  by_cases hnil : joinStatements ss = []
  · refine .blank (by rw [hblank, hnil]; rfl) ?_
    rcases joinStatements_eq_nil hnil with rfl | rfl
    · exact h.2.symm
    · exact passes_empty h
  · have hne : ss ≠ [] := by
      rintro rfl
      exact hnil rfl
    have hrun := calculate_eq_run options env (by rw [hblank]; simpa using hnil)
    rw [String.toList_ofList, runOf, sourceOf_joinStatements hss hne,
      statements_joinStatements (fun s hs => (hss s hs).undivided) hne] at hrun
    obtain ⟨henvironment, hrecord⟩ := hrun
    have houtcome : (calculate options (.ofList (joinStatements ss)) env).record =
        .success (.ofList (joinStatements ss)) (run options 1 env ss).environment none := by
      rw [hrecord, recordOf, h.1]
    exact .runs (by rw [houtcome]; rfl) (by rw [houtcome]; rfl) (henvironment.trans h.2)

/-! ## Ends of runs -/

/-- How a run of these statements ends. -/
inductive Ends (options : Options) (env : Environment) (ss : List (List Char)) : Prop
  | passed {left} : Passes options 1 env ss left → Ends options env ss
  | failed {front s rest left e} : ss = front ++ s :: rest → Passes options 1 env front left →
      (run options 1 env ss).environment = left → (run options 1 env ss).outcome = .error e →
      e.line? = some (front.length + 1) → Ends options env ss
  | returned {front s rest left v} : ss = front ++ s :: rest → Passes options 1 env front left →
      (run options 1 env ss).environment = left → (run options 1 env ss).outcome = .ok (some v) →
      StartsReturn s → Ends options env ss

/-- Every run ends in one of these ways. -/
theorem ends (options : Options) (env : Environment) (ss : List (List Char)) :
    Ends options env ss := by
  rcases passes_or_stops options 1 env ss with
    ⟨env', h⟩ | ⟨front, s, rest, env', hss, hfront, hstop⟩
  · exact .passed h
  · obtain ⟨hrunEnv, hrunOutcome⟩ := run_append hfront (s :: rest)
    rw [← hss, Nat.add_comm] at hrunEnv hrunOutcome
    cases heffect : effect options env' s with
    | error e =>
      obtain ⟨henv, houtcome⟩ := run_cons_error (front.length + 1) rest heffect
      exact .failed hss hfront (hrunEnv.trans henv) (hrunOutcome.trans houtcome)
        (bare_effect options env' s e heffect _)
    | ok x =>
      have hreturn := hstop x heffect
      cases x with
      | returns v =>
        obtain ⟨henv, houtcome⟩ := run_cons_returns (front.length + 1) rest heffect
        exact .returned hss hfront (hrunEnv.trans henv) (hrunOutcome.trans houtcome) hreturn
      | assigns => cases (next?_of_effect heffect).2 hreturn
      | nothing => cases (next?_of_effect heffect).2 hreturn

/-! ## Atomicity -/

/-- The first return is the statement with this number. -/
def ReturnsAt (ss : List (List Char)) (line : Nat) : Prop :=
  ∃ front s rest, ss = front ++ s :: rest ∧ (∀ t ∈ front, ¬ StartsReturn t) ∧ StartsReturn s ∧
    line = front.length + 1

theorem ReturnsAt.line_eq {front rest : List (List Char)} {s : List Char} {line : Nat}
    (h : ReturnsAt (front ++ s :: rest) line) (hfront : ∀ t ∈ front, ¬ StartsReturn t)
    (hs : StartsReturn s) : line = front.length + 1 := by
  obtain ⟨front', s', rest', heq, hfront', hs', rfl⟩ := h
  rcases List.append_eq_append_iff.1 heq with ⟨between, rfl, h⟩ | ⟨between, rfl, h⟩
  · rcases between with _ | ⟨t, between⟩
    · simp
    · cases h
      exact absurd hs (hfront' s (by simp))
  · rcases between with _ | ⟨t, between⟩
    · simp
    · cases h
      exact absurd hs' (hfront s' (by simp))

/-- What the statements in front of one leave on their own. -/
theorem leaves_firstStatements {formula : String} {front rest : List (List Char)} {s : List Char}
    (hcanonical : ∀ s ∈ statements formula.toList, Canonical s)
    (hss : statements formula.toList = front ++ s :: rest)
    (h : Passes options 1 env front env') :
    Leaves options (firstStatements front.length formula) env env' := by
  have hfront : ∀ s ∈ front, Canonical s := fun s hs =>
    hcanonical s (by rw [hss]; exact List.mem_append_left _ hs)
  rw [firstStatements, hss, List.take_left]
  exact leaves_of_passes hfront h

/-- The calculation leaves what the statements before its end leave on their
    own.  The end is the failing statement, else the first return, else that of
    the formula. -/
structure Atomic (options : Options) (env : Environment) (c : Calculation) : Prop where
  environment_record : c.record.environment = c.environment
  /-- the error carries the number of the failing statement -/
  failed : c.record.code = 2 ∨ c.record.code = 4 ∨ c.record.code = 5 →
    ∃ error line, error.line? = some line ∧
      c.record = .failure c.record.formula c.environment error ∧
      1 ≤ line ∧ line ≤ (statements c.record.formula.toList).length ∧
      (∀ s ∈ (statements c.record.formula.toList).take (line - 1), ¬ StartsReturn s) ∧
      Leaves options (firstStatements (line - 1) c.record.formula) env c.environment
  returned : c.record.code = 0 → ∀ line, ReturnsAt (statements c.record.formula.toList) line →
    Leaves options (firstStatements (line - 1) c.record.formula) env c.environment
  passed : c.record.code = 0 → (∀ s ∈ statements c.record.formula.toList, ¬ StartsReturn s) →
    Leaves options c.record.formula env c.environment

/-- A blank formula ends before its first statement. -/
theorem atomic_of_code_one {c : Calculation} (hcode : c.record.code = 1)
    (henv : c.record.environment = c.environment) : Atomic options env c :=
  ⟨henv, fun hfailed => absurd hfailed (by rw [hcode]; decide),
    fun hok => absurd (hcode.symm.trans hok) (by decide),
    fun hok => absurd (hcode.symm.trans hok) (by decide)⟩

theorem atomic_of_run (formula : String) {c : Calculation}
    (hcanonical : ∀ s ∈ statements formula.toList, Canonical s)
    (henv : c.environment = (run options 1 env (statements formula.toList)).environment)
    (hrecord : c.record =
      recordOf formula (run options 1 env (statements formula.toList))) :
    Atomic options env c := by
  have hformula : c.record.formula = formula := by rw [hrecord, formula_recordOf]
  have hrecordEnv : c.record.environment = c.environment := by
    rw [hrecord, environment_recordOf, henv]
  cases ends options env (statements formula.toList) with
  | passed h =>
    have hcode : c.record.code = 0 := by rw [hrecord, recordOf, h.1]; rfl
    have hleaves := leaves_of_passes hcanonical h
    rw [joinStatements_statements, String.ofList_toList, ← h.2, ← henv] at hleaves
    refine ⟨hrecordEnv, fun hfailed => absurd hfailed (by rw [hcode]; decide),
      fun _ line hline => ?_, fun _ _ => ?_⟩
    · rw [hformula] at hline
      obtain ⟨front, s, rest, hss, -, hs, -⟩ := hline
      exact absurd hs (h.not_startsReturn s (by rw [hss]; simp))
    · rwa [hformula]
  | @failed front s rest left e hss hfront hrunEnv houtcome hline =>
    have hfailure : c.record = .failure formula c.environment e := by
      rw [hrecord, recordOf, houtcome, henv]
    have hcode : c.record.code ≠ 0 := by
      rw [hfailure]
      exact code_ne_zero e
    have hleaves := leaves_firstStatements hcanonical hss hfront
    rw [← hrunEnv, ← henv] at hleaves
    refine ⟨hrecordEnv, fun _ => ⟨e, front.length + 1, hline, ?_⟩, fun hok => absurd hok hcode,
      fun hok => absurd hok hcode⟩
    rw [hformula, hss, Nat.add_sub_cancel, List.take_left]
    exact ⟨hfailure, by omega, by simp, hfront.not_startsReturn, hleaves⟩
  | @returned front s rest left v hss hfront hrunEnv houtcome hreturn =>
    have hcode : c.record.code = 0 := by rw [hrecord, recordOf, houtcome]; rfl
    have hleaves := leaves_firstStatements hcanonical hss hfront
    rw [← hrunEnv, ← henv] at hleaves
    refine ⟨hrecordEnv, fun hfailed => absurd hfailed (by rw [hcode]; decide),
      fun _ line hline => ?_, fun _ hnone => ?_⟩
    · rw [hformula, hss] at hline
      rw [hformula, hline.line_eq hfront.not_startsReturn hreturn]
      exact hleaves
    · rw [hformula, hss] at hnone
      exact absurd hreturn (hnone s (by simp))

/-- **A failing statement leaves no trace, nor does a return, nor anything
    behind them.** -/
theorem calculate_atomic (options : Options) (formula : String) (env : Environment) :
    Atomic options env (calculate options formula env) := by
  cases hblank : isBlankText formula.toList with
  | true =>
    have hc : calculate options formula env =
        ⟨.failure "" env .emptyFormula, env, [.failed .emptyFormula]⟩ := by
      rw [calculate, if_pos hblank]
    rw [hc]
    exact atomic_of_code_one rfl rfl
  | false =>
    obtain ⟨henv, hrecord⟩ := calculate_eq_run options env hblank
    have hsource : (String.ofList (sourceOf formula.toList)).toList = sourceOf formula.toList :=
      String.toList_ofList
    refine atomic_of_run (.ofList (sourceOf formula.toList)) ?_ ?_ ?_
    · rw [hsource]
      exact canonical_of_mem_sourceOf
    · rw [hsource]
      exact henv
    · rw [hsource]
      exact hrecord

end ProductFormula
