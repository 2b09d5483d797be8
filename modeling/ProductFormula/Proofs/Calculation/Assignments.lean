/-
  What assignments leave.

  The statements in front of the first return, and of the line of the error if
  there is one, are run to their end (`Calculation.completed`), and what they
  leave is what the calculation leaves (`passes_completed`).  Each of them
  writes the name that it assigns and no other (`written_or_kept`), so a name
  stands at the end for the value of the last assignment to it, in the
  environment that this one was run in (`LastWrite`), and for what it stood for
  before if nothing assigns it.

  * `calculate_last_write` says this of every calculation, and that no binding
    is lost.
-/
import Mathlib.Data.List.Induction
import ProductFormula.Proofs.Calculation.Records

namespace ProductFormula

open Calculation Statement

variable {options : Options} {env env' : Environment} {s : List Char} {ss : List (List Char)}

/-! ## One statement -/

/-- A statement that a run goes on behind writes the name that it assigns, and
    no other. -/
theorem written_or_kept {x : Effect} (h : effect options env s = .ok x)
    (hx : x.next? env = some env') (name : String) :
    (∃ expression v, Assigns name expression s ∧
        evaluateText options.maxDepth ⟨env, options.stripDots⟩ expression = .ok v ∧
        env'.get? name = some v) ∨
      (∀ expression, ¬ Assigns name expression s) ∧ env'.get? name = env.get? name := by
  have hassigns : ∀ {expression}, Assigns name expression s →
      ofText s = .assignment name expression := ofText_eq_assignment_iff.2
  have hperforms := performs_of_effect h
  generalize hs : ofText s = statement at hperforms
  cases hperforms with
  | returnText | returnValue => cases hx
  | @assignment assigned expression v hv =>
    cases hx
    by_cases hname : name = assigned
    · subst hname
      refine .inl ⟨expression, v, ofText_eq_assignment_iff.1 hs, hv, ?_⟩
      rw [Environment.get?_set, if_pos rfl]
    · refine .inr ⟨fun other hother => ?_, by rw [Environment.get?_set, if_neg hname]⟩
      cases hs.symm.trans (hassigns hother)
      exact hname rfl
  | other =>
    cases hx
    refine .inr ⟨fun other hother => ?_, rfl⟩
    cases hs.symm.trans (hassigns hother)

/-! ## Statements one after the other -/

/-- What a name stands for behind statements that came through: the value that
    the last assignment to it had in the environment in front of that one, or
    what it stood for at first if nothing assigns it. -/
inductive LastWrite (options : Options) (env : Environment) (ss : List (List Char))
    (name : String) : Option Value → Prop
  | untouched : (∀ s ∈ ss, ∀ expression, ¬ Assigns name expression s) →
      LastWrite options env ss name (env.get? name)
  | written {front s rest expression before v} : ss = front ++ s :: rest →
      Assigns name expression s → (∀ t ∈ rest, ∀ other, ¬ Assigns name other t) →
      Passes options 1 env front before →
      evaluateText options.maxDepth ⟨before, options.stripDots⟩ expression = .ok v →
      LastWrite options env ss name (some v)

/-- A statement that does not assign the name makes no difference to it. -/
theorem LastWrite.concat {name : String} {held : Option Value}
    (h : LastWrite options env ss name held) (hs : ∀ expression, ¬ Assigns name expression s) :
    LastWrite options env (ss ++ [s]) name held := by
  cases h with
  | untouched hss =>
    refine .untouched fun t ht => ?_
    rcases List.mem_append.1 ht with ht | ht
    · exact hss t ht
    · exact List.mem_singleton.1 ht ▸ hs
  | @written front t rest expression before v heq ht hrest hbefore hv =>
    have hwhole : ss ++ [s] = front ++ t :: (rest ++ [s]) := by simp [heq]
    refine .written hwhole ht (fun t' ht' => ?_) hbefore hv
    rcases List.mem_append.1 ht' with ht' | ht'
    · exact hrest t' ht'
    · exact List.mem_singleton.1 ht' ▸ hs

/-- **Behind statements that came through a name stands for what was assigned
    to it last.** -/
theorem lastWrite_of_passes (h : Passes options 1 env ss env') (name : String) :
    LastWrite options env ss name (env'.get? name) := by
  -- from the end, so that the first assignment met is the last one
  induction ss using List.reverseRecOn generalizing env' with
  | nil =>
    cases h.2
    exact .untouched (by simp)
  | append_singleton ss s ih =>
    obtain ⟨middle, hfront, hlast⟩ := passes_append_iff.1 h
    obtain ⟨x, left, heffect, hx, hnil⟩ := passes_cons_iff.1 hlast
    obtain rfl : left = env' := hnil.2
    rcases written_or_kept heffect hx name with ⟨expression, v, hs, hv, hget⟩ | ⟨hs, hget⟩
    · rw [hget]
      exact .written rfl hs (by simp) hfront hv
    · rw [hget]
      exact (ih hfront).concat hs

/-- What was bound is bound. -/
theorem LastWrite.isSome {name : String} {held : Option Value}
    (h : LastWrite options env ss name held) (hname : env.contains name) : held.isSome := by
  cases h with
  | untouched => exact hname
  | written => rfl

/-! ## Completed statements -/

/-- The line that the error of a calculation is at, if it failed at one. -/
def Calculation.line? (c : Calculation) : Option Nat := c.errors.findSome? Error.line?

/-- The statements that are run to their end: those in front of the first
    return, and of the line of the error. -/
def Calculation.completed (c : Calculation) : List (List Char) :=
  let front := (statements c.record.formula.toList).takeWhile fun s => ¬ StartsReturn s
  match c.line? with
  | some line => front.take (line - 1)
  | none => front

theorem takeWhile_of_not_startsReturn {front : List (List Char)}
    (h : ∀ s ∈ front, ¬ StartsReturn s) (rest : List (List Char)) :
    (front ++ rest).takeWhile (fun s => ¬ StartsReturn s) =
      front ++ rest.takeWhile fun s => ¬ StartsReturn s :=
  List.takeWhile_append_of_pos fun s hs => decide_eq_true (h s hs)

/-- What a calculation leaves is what its completed statements leave. -/
theorem passes_completed (options : Options) (formula : String) (env : Environment) :
    Passes options 1 env (calculate options formula env).completed
      (calculate options formula env).environment := by
  cases hblank : isBlankText formula.toList with
  | true =>
    rw [calculate, if_pos hblank]
    exact passes_cons_iff.2 ⟨_, env, effect_nil options env, rfl, passes_nil options _ env⟩
  | false =>
    obtain ⟨henv, hrecord⟩ := calculate_eq_run options env hblank
    have herrors := errors_calculate options env hblank
    rw [completed, line?, herrors, hrecord, formula_recordOf, String.toList_ofList, henv]
    cases ends options env (statements (sourceOf formula.toList)) with
    | @passed left h =>
      have hfront := takeWhile_of_not_startsReturn h.not_startsReturn []
      rw [List.append_nil, List.takeWhile_nil, List.append_nil] at hfront
      rw [runOf, h.1, hfront]
      exact ⟨h.1, rfl⟩
    | @failed front s rest left e hss hfront hleft houtcome hline =>
      have htake := takeWhile_of_not_startsReturn hfront.not_startsReturn (s :: rest)
      rw [← runOf] at houtcome hleft
      rw [houtcome, hss, htake, hleft]
      simpa [failures, LogEntry.error?, hline] using hfront
    | @returned front s rest left v hss hfront hleft houtcome hs =>
      have htake := takeWhile_of_not_startsReturn hfront.not_startsReturn (s :: rest)
      rw [← runOf] at houtcome hleft
      rw [houtcome, hss, htake, hleft]
      simpa [failures, hs] using hfront

example : (calculate {} "[A] = 1;[B] = (;[A] = 2" .empty).completed = ["[A] = 1".toList] := by
  decide +kernel

/-! ## All names -/

/-- Every binding at the end is accounted for by the completed statements. -/
structure Accounted (options : Options) (env : Environment) (c : Calculation) : Prop where
  /-- the error is at the line, and at none only if the formula is blank -/
  failed : c.record.code ≠ 0 → ∃ e : Error,
    c.record = .failure c.record.formula c.environment e ∧ c.line? = e.line? ∧
      (c.line? = none ↔ e = .emptyFormula)
  succeeded : c.record.code = 0 → c.line? = none
  stands : ∀ name, LastWrite options env c.completed name (c.environment.get? name)
  bound : ∀ name, env.contains name → c.environment.contains name

/-- **Only assigned names change, to what was assigned to them last**, and no
    name loses its binding. -/
theorem calculate_last_write (options : Options) (formula : String) (env : Environment) :
    Accounted options env (calculate options formula env) := by
  have hstands := lastWrite_of_passes (passes_completed options formula env)
  have hbound : ∀ name, env.contains name →
      (calculate options formula env).environment.contains name :=
    fun name hname => (hstands name).isSome hname
  have hfailure : ∀ {e : Error}, (calculate options formula env).errors = [e] →
      (calculate options formula env).line? = e.line? := by
    intro e he
    rw [line?, he]
    cases h : e.line? <;> simp [h]
  cases calculate_reports options formula env with
  | success herrors hrecord hblank =>
    refine ⟨fun hcode => absurd ?_ hcode, fun _ => ?_, hstands, hbound⟩
    · rw [hrecord]
      rfl
    · rw [line?, herrors]
      rfl
  | blank herrors hrecord _ =>
    have hline := hfailure herrors
    exact ⟨fun _ => ⟨_, hrecord, hline, iff_of_true hline rfl⟩, fun _ => hline, hstands, hbound⟩
  | @failure e line herrors hrecord _ he =>
    have hline := hfailure herrors
    obtain ⟨-, hne⟩ := Error.isReported_of_line he
    refine ⟨fun _ => ⟨e, hrecord, hline, iff_of_false ?_ hne⟩, fun hcode => ?_, hstands, hbound⟩
    · rw [hline, he]
      exact Option.some_ne_none line
    · rw [hrecord] at hcode
      exact absurd hcode (code_ne_zero e)

end ProductFormula
