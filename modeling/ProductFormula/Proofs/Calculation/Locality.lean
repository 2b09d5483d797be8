/-
  What a calculation depends on.

  A formula mentions the names that stand between its braces, with or without a
  caret in front, dots counted or not (`Mentions`).  Every way to read a
  reference, be it checked, evaluated or put into a text, looks up such a name
  (`resolve_congr`), so a statement does the same in environments that agree on
  what it mentions, and what it assigns is the same in both.

  * `calculate_local`: environments that agree on the mentioned names give the
    same outcome, agree on what was assigned, and keep all else;
  * `Keeps`: only assigned names are written.
-/
import ProductFormula.Proofs.Calculation.Atomicity
import ProductFormula.Proofs.Calculation.Forms
import ProductFormula.Proofs.Grammar.Acceptance
import ProductFormula.Proofs.Reference.Tokens

namespace ProductFormula

open Calculation

/-! ## Mentioned names -/

/-- The name stands between braces of the text, a caret in front and dots left
    out, or not. -/
def Mentions (text : List Char) (name : String) : Prop :=
  ∃ inner written, Encloses text inner ∧ (inner = written ∨ inner = '^' :: written) ∧
    (name = .ofList written ∨ name = .ofList (written.filter (· != '.')))

/-- The same bindings for these names, or none in both. -/
def AgreeOn (names : String → Prop) (env env' : Environment) : Prop :=
  ∀ name, names name → env.get? name = env'.get? name

variable {names names' : String → Prop} {env env' : Environment} {text part s : List Char}
  {name : String}

theorem Mentions.mono (h : Mentions part name) (hpart : part <:+: text) : Mentions text name := by
  obtain ⟨inner, written, hinner, hwritten, hname⟩ := h
  exact ⟨inner, written, hinner.mono hpart, hwritten, hname⟩

/-- A mentioned name is spelled with characters of the text. -/
theorem Mentions.subset (h : Mentions text name) : ∀ c ∈ name.toList, c ∈ text := by
  obtain ⟨inner, written, ⟨-, hpart⟩, hwritten, hname⟩ := h
  have hsub : written ⊆ text := by
    intro c hc
    refine hpart.subset ?_
    rcases hwritten with rfl | rfl
    · simp [hc]
    · simp [hc]
  intro c hc
  rcases hname with rfl | rfl
  · exact hsub (by simpa using hc)
  · rw [String.toList_ofList] at hc
    exact hsub (List.mem_filter.1 hc).1

theorem AgreeOn.mono (h : AgreeOn names env env') (hsub : ∀ name, names' name → names name) :
    AgreeOn names' env env' :=
  fun name hname => h name (hsub name hname)

/-- A name written in both environments is one more they agree on. -/
theorem AgreeOn.set (h : AgreeOn names env env') (name : String) (value : Value) :
    AgreeOn (fun other => names other ∨ other = name) (env.set name value) (env'.set name value) := by
  intro other hother
  rw [Environment.get?_set, Environment.get?_set]
  split
  · rfl
  next hne => exact h other (hother.resolve_right hne)

/-! ## Three ways to read a reference -/

section

variable (stripDots : Bool)

/-- The reference written so between braces is resolved alike. -/
theorem resolve_congr (h : AgreeOn (Mentions text) env env') {inner written : List Char}
    (hinner : Encloses text inner) (hwritten : inner = written ∨ inner = '^' :: written)
    (optional : Bool) : (⟨env, stripDots⟩ : Context).resolve (.ofList written) optional =
      (⟨env', stripDots⟩ : Context).resolve (.ofList written) optional := by
  have hplain : env.get? (.ofList written) = env'.get? (.ofList written) :=
    h _ ⟨inner, written, hinner, hwritten, .inl rfl⟩
  have hstripped : env.get? (.ofList (written.filter (· != '.'))) =
      env'.get? (.ofList (written.filter (· != '.'))) :=
    h _ ⟨inner, written, hinner, hwritten, .inr rfl⟩
  cases optional with
  | true => simp [Context.resolve, hplain]
  | false =>
    cases stripDots with
    | false => simp [Context.resolve, Context.lookupName, hplain]
    | true => simp [Context.resolve, Context.lookupName, hstripped]

theorem checkBound_congr (h : AgreeOn (Mentions text) env env') :
    checkBound ⟨env, stripDots⟩ (requiredNames text) =
      checkBound ⟨env', stripDots⟩ (requiredNames text) := by
  have hresolve : ∀ name ∈ requiredNames text,
      (⟨env, stripDots⟩ : Context).resolve name false =
        (⟨env', stripDots⟩ : Context).resolve name false := by
    intro name hname
    obtain ⟨segment, hsegment, hrequired⟩ := List.mem_filterMap.1 hname
    cases segment with
    | plain => cases hrequired
    | braced inner =>
      rw [Segment.requiredName?] at hrequired
      split at hrequired
      · cases hrequired
      · cases hrequired
        exact resolve_congr stripDots h (Segment.encloses_of_mem hsegment) (.inl rfl) false
  generalize requiredNames text = names at hresolve ⊢
  induction names with
  | nil => rfl
  | cons name names ih =>
    obtain ⟨hname, hnames⟩ := List.forall_mem_cons.1 hresolve
    rw [checkBound, checkBound, hname, ih hnames]

theorem fill_congr (h : AgreeOn (Mentions text) env env') {segment : Segment}
    (hsegment : segment ∈ Segment.ofText text) :
    segment.fill ⟨env, stripDots⟩ = segment.fill ⟨env', stripDots⟩ := by
  cases segment with
  | plain => rfl
  | braced inner =>
    have hinner := Segment.encloses_of_mem hsegment
    have hresolve : (⟨env, stripDots⟩ : Context).resolve (Segment.referent inner).1
          (Segment.referent inner).2 =
        (⟨env', stripDots⟩ : Context).resolve (Segment.referent inner).1
          (Segment.referent inner).2 := by
      unfold Segment.referent
      split
      · exact resolve_congr stripDots h hinner (.inr rfl) true
      · exact resolve_congr stripDots h hinner (.inl rfl) false
    simp only [Segment.fill, hresolve]

theorem interpolate_congr (h : AgreeOn (Mentions text) env env') :
    interpolate ⟨env, stripDots⟩ text = interpolate ⟨env', stripDots⟩ text := by
  have hfill : ∀ segment ∈ Segment.ofText text,
      segment.fill ⟨env, stripDots⟩ = segment.fill ⟨env', stripDots⟩ :=
    fun _ hsegment => fill_congr stripDots h hsegment
  rw [interpolate, interpolate]
  generalize Segment.ofText text = segments at hfill ⊢
  congr 1
  induction segments with
  | nil => rfl
  | cons segment segments ih =>
    obtain ⟨hsegment, hsegments⟩ := List.forall_mem_cons.1 hfill
    rw [Segment.fillAll, Segment.fillAll, hsegment, ih hsegments]

/-- A reference among the tokens is written as it is named, or behind a caret. -/
theorem ofReferenceText_eq {inner : List Char} {optional : Bool}
    (h : Token.ofReferenceText inner = .reference name optional) :
    ∃ written, name = .ofList written ∧ (inner = written ∨ inner = '^' :: written) := by
  unfold Token.ofReferenceText at h
  split at h
  · cases h
  · split at h
    · cases h
    · cases h
      exact ⟨_, rfl, .inr rfl⟩
  · cases h
    exact ⟨_, rfl, .inl rfl⟩

theorem evaluateText_congr (h : AgreeOn (Mentions text) env env') (maxDepth : Nat) :
    evaluateText maxDepth ⟨env, stripDots⟩ text = evaluateText maxDepth ⟨env', stripDots⟩ text := by
  rw [evaluateText, evaluateText]
  cases hparse : Expr.parse maxDepth (.ofList text) with
  | error => rfl
  | ok e =>
    refine Expr.evaluate_congr e fun name optional hname => ?_
    have hderives := (Grammar.parse_eq_ok_iff_nests.1 hparse).derives
    rw [String.toList_ofList] at hderives
    obtain ⟨inner, hinner, htoken⟩ :=
      Token.encloses_of_mem_lex ((hderives.mem_leaves_iff rfl).1 hname)
    obtain ⟨written, rfl, hwritten⟩ := ofReferenceText_eq htoken
    exact resolve_congr stripDots h hinner hwritten optional

/-- **What a statement does depends on the names it mentions only.** -/
theorem perform_congr (h : AgreeOn (Mentions s) env env') (maxDepth : Nat) :
    perform maxDepth ⟨env, stripDots⟩ (.ofText s) =
      perform maxDepth ⟨env', stripDots⟩ (.ofText s) := by
  have hexpression : ∀ expression, (Statement.ofText s).expression? = some expression →
      evaluateText maxDepth ⟨env, stripDots⟩ expression =
        evaluateText maxDepth ⟨env', stripDots⟩ expression := by
    intro expression hexpression
    obtain ⟨front, hs, -⟩ := Statement.exists_front hexpression
    refine evaluateText_congr stripDots (h.mono fun name hname => hname.mono ?_) maxDepth
    exact hs ▸ (List.suffix_append front expression).isInfix
  cases hs : Statement.ofText s with
  | returnText text =>
    have hpart : text <:+: s :=
      Statement.ofText_eq_returnText hs ▸ (List.suffix_append ['=', '#'] text).isInfix
    have hfilled := interpolate_congr stripDots (h.mono fun name hname => hname.mono hpart)
    rw [perform, perform, hfilled]
  | returnValue expression | assignment _ expression =>
    rw [perform, perform, hexpression expression (by rw [hs]; rfl)]
  | other => rfl

end

/-! ## Assigned names -/

/-- The names that a log says were assigned. -/
def assignedNames (log : List LogEntry) : List String :=
  log.filterMap fun
    | .assigned _ name _ => some name
    | _ => none

/-- All names but the assigned ones stand for what they stood for. -/
def Keeps (log : List LogEntry) (env env' : Environment) : Prop :=
  ∀ name, name ∉ assignedNames log → env'.get? name = env.get? name

theorem keeps_refl (log : List LogEntry) (env : Environment) : Keeps log env env :=
  fun _ _ => rfl

/-- A run writes assigned names only. -/
theorem keeps_run (options : Options) (line : Nat) (env : Environment) (ss : List (List Char)) :
    Keeps (run options line env ss).log env (run options line env ss).environment := by
  induction ss generalizing line env with
  | nil => exact keeps_refl _ _
  | cons s rest ih =>
    rcases run_cons_cases options line env s with ⟨r, henv, -, hrun⟩ | ⟨x, middle, -, hx, hrun⟩
    · rw [hrun, henv]
      exact keeps_refl _ _
    · rw [hrun]
      cases x with
      | returns => cases hx
      | assigns assigned value =>
        cases hx
        intro name hname
        simp only [Run.logged, Effect.entry, assignedNames, List.filterMap_cons, List.mem_cons,
          not_or] at hname
        exact (ih (line + 1) _ name hname.2).trans (by rw [Environment.get?_set, if_neg hname.1])
      | nothing =>
        cases hx
        exact ih (line + 1) env

/-! ## Runs side by side -/

/-- Two runs with one outcome and one log, which agree on these names and all
    that were assigned. -/
structure Alike (names : String → Prop) (r r' : Run) : Prop where
  outcome : r.outcome = r'.outcome
  log : r.log = r'.log
  agree : AgreeOn (fun name => names name ∨ name ∈ assignedNames r.log) r.environment r'.environment

theorem alike_of_agreeOn (h : AgreeOn names env env') (outcome : Except Error (Option Value))
    {log : List LogEntry} (hlog : assignedNames log = []) :
    Alike names ⟨env, outcome, log⟩ ⟨env', outcome, log⟩ where
  outcome := rfl
  log := rfl
  agree := h.mono fun name hname => hname.resolve_right (by simp [hlog])

theorem Alike.assigned {r r' : Run} {value : Value}
    (h : Alike (fun other => names other ∨ other = name) r r') (line : Nat) :
    Alike names (r.logged (.assigned line name value)) (r'.logged (.assigned line name value)) where
  outcome := h.outcome
  log := by rw [Run.logged, Run.logged, h.log]
  agree := by
    refine h.agree.mono fun other hother => ?_
    rcases hother with hother | hother
    · exact .inl (.inl hother)
    · rcases List.mem_cons.1 hother with rfl | hother
      · exact .inl (.inr rfl)
      · exact .inr hother

theorem Alike.skipped {r r' : Run} (h : Alike names r r') (line : Nat) :
    Alike names (r.logged (.skipped line)) (r'.logged (.skipped line)) where
  outcome := h.outcome
  log := by rw [Run.logged, Run.logged, h.log]
  agree := h.agree

/-- **Runs depend on the mentioned names only.** -/
theorem run_congr (options : Options) (line : Nat) (h : AgreeOn names env env')
    {ss : List (List Char)} (hss : ∀ s ∈ ss, ∀ name, Mentions s name → names name) :
    Alike names (run options line env ss) (run options line env' ss) := by
  induction ss generalizing line env env' names with
  | nil => exact alike_of_agreeOn h _ rfl
  | cons s rest ih =>
    obtain ⟨hs, hrest⟩ := List.forall_mem_cons.1 hss
    have hcheck := checkBound_congr options.stripDots (h.mono hs)
    have hperform := perform_congr options.stripDots (h.mono hs) options.maxDepth
    rw [run, run]
    dsimp only
    rw [hcheck, hperform]
    split
    · exact alike_of_agreeOn h _ rfl
    · split
      · refine alike_of_agreeOn h _ ?_
        split <;> rfl
      · exact alike_of_agreeOn h _ rfl
      next name value _ =>
        have hnext := ih (line + 1) (h.set name value) fun t ht other hother =>
          .inl (hrest t ht other hother)
        exact hnext.assigned line
      · exact (ih (line + 1) h hrest).skipped line

/-! ## Calculations side by side -/

/-- What the log ends with when the calculation fails. -/
def failures : Except Error (Option Value) → List LogEntry
  | .ok _ => []
  | .error e => [.failed e]

theorem log_calculate (options : Options) (env : Environment) {formula : String}
    (h : isBlankText formula.toList = false) :
    (calculate options formula env).log = (runOf options formula.toList env).log ++
      failures (runOf options formula.toList env).outcome := by
  rw [calculate, if_neg (by simp [h])]
  dsimp only
  rw [← runOf]
  generalize runOf options formula.toList env = r
  obtain ⟨environment, outcome, log⟩ := r
  cases outcome with
  | error e => rfl
  | ok result => exact (List.append_nil log).symm

theorem assignedNames_failures (log : List LogEntry) (outcome : Except Error (Option Value)) :
    assignedNames (log ++ failures outcome) = assignedNames log := by
  cases outcome with
  | error e => simp [assignedNames, failures]
  | ok result => rw [failures, List.append_nil]

/-- A calculation writes assigned names only. -/
theorem keeps_calculate (options : Options) (formula : String) (env : Environment) :
    Keeps (calculate options formula env).log env (calculate options formula env).environment := by
  cases hblank : isBlankText formula.toList with
  | true =>
    rw [calculate, if_pos hblank]
    exact keeps_refl _ _
  | false =>
    intro name hname
    rw [log_calculate options env hblank, assignedNames_failures] at hname
    rw [(calculate_eq_run options env hblank).1]
    exact keeps_run options 1 env _ name hname

/-- Records of runs with one outcome differ in their environments only. -/
theorem recordOf_congr {formula : String} {r r' : Run} (h : r.outcome = r'.outcome) :
    recordOf formula r = { recordOf formula r' with environment := r.environment } := by
  rw [recordOf, recordOf, h]
  cases r'.outcome with
  | error e => rfl
  | ok result => rfl

/-- Two calculations with one outcome and one log, which agree on these names
    and all that were assigned. -/
structure SameOutcome (names : String → Prop) (c c' : Calculation) : Prop where
  code : c.record.code = c'.record.code
  formula : c.record.formula = c'.record.formula
  message : c.record.message = c'.record.message
  result : c.record.result = c'.record.result
  hints : c.record.hints = c'.record.hints
  log : c.log = c'.log
  agree : AgreeOn (fun name => names name ∨ name ∈ assignedNames c.log)
    c.environment c'.environment

theorem sameOutcome_of_blank (options : Options) {formula : String}
    (hblank : isBlankText formula.toList = true) (h : AgreeOn names env env') :
    SameOutcome names (calculate options formula env) (calculate options formula env') := by
  rw [calculate, calculate, if_pos hblank, if_pos hblank]
  exact ⟨rfl, rfl, rfl, rfl, rfl, rfl, h.mono fun _ hname => hname.resolve_right List.not_mem_nil⟩

theorem sameOutcome_of_alike (options : Options) {formula : String}
    (hblank : isBlankText formula.toList = false)
    (h : Alike names (runOf options formula.toList env) (runOf options formula.toList env')) :
    SameOutcome names (calculate options formula env) (calculate options formula env') := by
  obtain ⟨henv, hrecord⟩ := calculate_eq_run options env hblank
  obtain ⟨henv', hrecord'⟩ := calculate_eq_run options env' hblank
  have hlog := log_calculate options env hblank
  have hlog' := log_calculate options env' hblank
  have hagree := h.agree
  rw [← henv, ← henv', ← assignedNames_failures _ (runOf options formula.toList env).outcome,
    ← hlog] at hagree
  rw [← h.outcome, ← h.log, ← hlog] at hlog'
  refine ⟨?_, ?_, ?_, ?_, ?_, hlog'.symm, hagree⟩
  all_goals rw [hrecord, hrecord', recordOf_congr h.outcome]

/-- **A calculation depends on the mentioned names only**, and writes assigned
    names only. -/
theorem calculate_local (options : Options) (formula : String)
    (h : AgreeOn (Mentions (sourceOf formula.toList)) env env') :
    SameOutcome (Mentions (sourceOf formula.toList)) (calculate options formula env)
        (calculate options formula env') ∧
      Keeps (calculate options formula env).log env (calculate options formula env).environment ∧
      Keeps (calculate options formula env').log env'
        (calculate options formula env').environment := by
  refine ⟨?_, keeps_calculate options formula env, keeps_calculate options formula env'⟩
  cases hblank : isBlankText formula.toList with
  | true => exact sameOutcome_of_blank options hblank h
  | false =>
    refine sameOutcome_of_alike options hblank (run_congr options 1 h fun s hs name hname => ?_)
    have hpart := isInfix_intercalate ';' hs
    rw [← joinStatements, joinStatements_statements] at hpart
    exact hname.mono hpart

/-- `[B] = {A};={B}` does not depend on `C`. -/
theorem calculate_local_unmentioned :
    AgreeOn (Mentions (sourceOf "[B] = \x7bA\x7d;=\x7bB\x7d".toList))
        (.ofList [("A", .text "a"), ("C", .text "c")]) (.ofList [("A", .text "a")]) ∧
      SameOutcome (Mentions (sourceOf "[B] = \x7bA\x7d;=\x7bB\x7d".toList))
        (calculate {} "[B] = \x7bA\x7d;=\x7bB\x7d" (.ofList [("A", .text "a"), ("C", .text "c")]))
        (calculate {} "[B] = \x7bA\x7d;=\x7bB\x7d" (.ofList [("A", .text "a")])) ∧
      (calculate {} "[B] = \x7bA\x7d;=\x7bB\x7d" (.ofList [("A", .text "a")])).record.result =
        some (.text "a") := by
  have hagree : AgreeOn (Mentions (sourceOf "[B] = \x7bA\x7d;=\x7bB\x7d".toList))
      (.ofList [("A", .text "a"), ("C", .text "c")]) (.ofList [("A", .text "a")]) := by
    intro name hname
    have hne : name ≠ "C" := by
      rintro rfl
      exact absurd (hname.subset 'C' (by decide)) (by decide +kernel)
    exact (Environment.get?_set (.ofList [("A", .text "a")]) "C" name (.text "c")).trans (if_neg hne)
  exact ⟨hagree, (calculate_local {} _ hagree).1, by decide +kernel⟩

end ProductFormula
