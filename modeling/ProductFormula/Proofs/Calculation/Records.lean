/-
  Records agree with themselves.

  The code, the message, the result and the hints of a record are filled in
  apart from each other, and each of them says whether the calculation failed.
  They say the same (`calculate_consistent`): a calculation that logged no error
  reports success in all of them, and one that failed logged one error, which
  the record is made of.

  * `Error.IsReported`: that error is about the formula or about one of its
    statements; the errors of the parser and the evaluator, which know of no
    statement, do not come out;
  * `calculate_reports` says this of records as a whole, `Consistent` of their
    fields.
-/
import ProductFormula.Proofs.Calculation.Locality
import ProductFormula.Proofs.Calculation.Sequence

namespace ProductFormula

open Calculation Text

variable {options : Options} {env : Environment} {formula : String}

/-! ## Errors -/

namespace Error

/-- An error for the formula's author, with the number of the statement that it
    is about, if it is about one. -/
def IsReported : Error → Prop
  | emptyFormula | unresolvedVariable _ _ | malformed _ _ | nestingLimit _ _ => True
  | parse _ | evaluation _ | unknownFunction _ | argumentCount _ _ _ | missingVariable _
  | depthExceeded _ => False

/-- What is about a statement is reported, and is not about the whole formula. -/
theorem isReported_of_line {e : Error} {line : Nat} (h : e.line? = some line) :
    e.IsReported ∧ e ≠ .emptyFormula := by
  cases e <;> cases h <;> exact ⟨trivial, nofun⟩

theorem code_mem (e : Error) : e.code ∈ [1, 2, 4, 5] := by
  unfold code
  split <;> decide

theorem code_eq_one_iff {e : Error} : e.code = 1 ↔ e = .emptyFormula := by
  cases e <;> simp [code]

theorem message_ne_empty (e : Error) : e.message ≠ "" := by
  unfold message
  split <;> simp

end Error

/-! ## Blank formulas -/

theorem isBlankText_eq_true_iff {text : List Char} :
    isBlankText text = true ↔ ∀ c ∈ text, isBlank c := by
  constructor
  · intro h c hc
    by_contra hblank
    have htext := isBlankText_of_mem hc (by simpa using hblank)
    rw [htext] at h
    cases h
  · intro h
    have htrim := trim_append_blanks h []
    rw [List.nil_append] at htrim
    rw [isBlankText, htrim]
    rfl

/-! ## Errors in the log -/

/-- The error that an entry tells of. -/
def LogEntry.error? : LogEntry → Option Error
  | failed e => some e
  | returned _ | skipped _ | assigned _ _ _ => none

/-- The errors that the log of a calculation tells of. -/
def Calculation.errors (c : Calculation) : List Error := c.log.filterMap LogEntry.error?

/-- Statements log what they do, and no error. -/
theorem errors_run (options : Options) (line : Nat) (env : Environment) (ss : List (List Char)) :
    (run options line env ss).log.filterMap LogEntry.error? = [] := by
  induction ss generalizing line env with
  | nil => rfl
  | cons s rest ih =>
    rcases run_cons_cases options line env s with ⟨r, -, hlog, hrun⟩ | ⟨x, middle, -, -, hrun⟩
    · rw [hrun]
      rcases hlog with hlog | hlog
      · rw [hlog]
        rfl
      · rw [hlog]
        rfl
    · rw [hrun]
      cases x <;> exact ih (line + 1) middle

theorem errors_calculate (options : Options) (env : Environment)
    (h : isBlankText formula.toList = false) :
    (calculate options formula env).errors =
      (failures (runOf options formula.toList env).outcome).filterMap LogEntry.error? := by
  rw [errors, log_calculate options env h, List.filterMap_append, runOf, errors_run,
    List.nil_append]

/-! ## Records as a whole -/

/-- How a calculation reports its end: without an error, or with the one that it
    logged. -/
inductive Reports (formula : String) (c : Calculation) : Prop
  | success : c.errors = [] →
      c.record = .success c.record.formula c.environment c.record.result →
      isBlankText formula.toList = false → Reports formula c
  | blank : c.errors = [.emptyFormula] →
      c.record = .failure c.record.formula c.environment .emptyFormula →
      isBlankText formula.toList = true → Reports formula c
  | failure {e line} : c.errors = [e] →
      c.record = .failure c.record.formula c.environment e →
      isBlankText formula.toList = false → e.line? = some line → Reports formula c

/-- Every calculation reports its end in one of these ways. -/
theorem calculate_reports (options : Options) (formula : String) (env : Environment) :
    Reports formula (calculate options formula env) := by
  cases hblank : isBlankText formula.toList with
  | true =>
    have hc : calculate options formula env =
        ⟨.failure "" env .emptyFormula, env, [.failed .emptyFormula]⟩ := by
      rw [calculate, if_pos hblank]
    rw [hc]
    exact .blank rfl rfl hblank
  | false =>
    obtain ⟨henv, hrecord⟩ := calculate_eq_run options env hblank
    have herrors := errors_calculate options env hblank
    cases houtcome : (runOf options formula.toList env).outcome with
    | ok result =>
      rw [houtcome] at herrors
      rw [recordOf, houtcome, ← henv] at hrecord
      refine .success herrors ?_ hblank
      rw [hrecord]
      rfl
    | error e =>
      obtain ⟨line, hline⟩ := exists_line houtcome
      rw [houtcome] at herrors
      rw [recordOf, houtcome, ← henv] at hrecord
      refine .failure herrors ?_ hblank hline
      rw [hrecord]
      rfl

/-! ## Fields of records -/

/-- The fields of a record agree, with each other and with what is logged. -/
structure Consistent (formula : String) (c : Calculation) : Prop where
  code_mem : c.record.code ∈ [0, 1, 2, 4, 5]
  message_eq_empty_iff : c.record.message = "" ↔ c.record.code = 0
  hints_eq_none_iff : c.record.hints = none ↔ c.record.code = 0
  result_eq_none : c.record.code ≠ 0 → c.record.result = none
  hints_eq : c.record.code ≠ 0 → c.record.hints = some (bracketHints c.record.formula)
  code_eq_one_iff : c.record.code = 1 ↔ ∀ character ∈ formula.toList, isBlank character
  environment_eq : c.record.environment = c.environment
  errors_eq_nil : c.record.code = 0 → c.errors = []
  /-- the one error that is logged is reported -/
  errors_eq : c.record.code ≠ 0 → ∃ e : Error, c.errors = [e] ∧ e.IsReported ∧
    c.record.code = e.code ∧ c.record.message = e.message

theorem consistent_of_success {c : Calculation} {result : Option Value} (herrors : c.errors = [])
    (hrecord : c.record = .success c.record.formula c.environment result)
    (hblank : isBlankText formula.toList = false) : Consistent formula c := by
  have hcode : c.record.code = 0 := by rw [hrecord]; rfl
  have hmessage : c.record.message = "" := by rw [hrecord]; rfl
  have hhints : c.record.hints = none := by rw [hrecord]; rfl
  have henv : c.record.environment = c.environment := by rw [hrecord]; rfl
  have hone : c.record.code = 1 ↔ ∀ character ∈ formula.toList, isBlank character := by
    rw [← isBlankText_eq_true_iff, hcode, hblank]
    decide
  exact {
    code_mem := by rw [hcode]; decide
    message_eq_empty_iff := iff_of_true hmessage hcode
    hints_eq_none_iff := iff_of_true hhints hcode
    result_eq_none := fun h => absurd hcode h
    hints_eq := fun h => absurd hcode h
    code_eq_one_iff := hone
    environment_eq := henv
    errors_eq_nil := fun _ => herrors
    errors_eq := fun h => absurd hcode h }

theorem consistent_of_failure {c : Calculation} {e : Error} (herrors : c.errors = [e])
    (hrecord : c.record = .failure c.record.formula c.environment e) (hreported : e.IsReported)
    (hblank : e.code = 1 ↔ isBlankText formula.toList = true) : Consistent formula c := by
  have hcode : c.record.code = e.code := by rw [hrecord]; rfl
  have hmessage : c.record.message = e.message := by rw [hrecord]; rfl
  have hhints : c.record.hints = some (bracketHints c.record.formula) := by rw [hrecord]; rfl
  have hresult : c.record.result = none := by rw [hrecord]; rfl
  have henv : c.record.environment = c.environment := by rw [hrecord]; rfl
  have hne : c.record.code ≠ 0 := hcode ▸ code_ne_zero e
  have hone : c.record.code = 1 ↔ ∀ character ∈ formula.toList, isBlank character := by
    rw [hcode, hblank, isBlankText_eq_true_iff]
  exact {
    code_mem := by rw [hcode]; exact List.mem_cons_of_mem _ e.code_mem
    message_eq_empty_iff := iff_of_false (hmessage ▸ e.message_ne_empty) hne
    hints_eq_none_iff := iff_of_false (hhints ▸ Option.some_ne_none _) hne
    result_eq_none := fun _ => hresult
    hints_eq := fun _ => hhints
    code_eq_one_iff := hone
    environment_eq := henv
    errors_eq_nil := fun h => absurd h hne
    errors_eq := fun _ => ⟨e, herrors, hreported, hcode, hmessage⟩ }

/-- **All fields of a record tell of one end of the calculation**, and an error
    is reported with the number of its statement, unless the formula is
    blank. -/
theorem calculate_consistent (options : Options) (formula : String) (env : Environment) :
    Consistent formula (calculate options formula env) := by
  cases calculate_reports options formula env with
  | success herrors hrecord hblank => exact consistent_of_success herrors hrecord hblank
  | blank herrors hrecord hblank =>
    exact consistent_of_failure herrors hrecord trivial (by rw [hblank]; decide)
  | failure herrors hrecord hblank hline =>
    obtain ⟨hreported, hne⟩ := Error.isReported_of_line hline
    refine consistent_of_failure herrors hrecord hreported ?_
    simp [Error.code_eq_one_iff, hne, hblank]

end ProductFormula
