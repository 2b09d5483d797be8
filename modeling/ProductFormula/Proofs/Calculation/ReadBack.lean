/-
  Reading back what was assigned.

  A name passes through four readers on its way into the environment and back:
  that of assignments, the check of references, the parser, and the filling of
  texts.  All of them take it as it stands, blanks included, so what `[n] = e`
  assigns is found under `n` (`keptStatements_assignment`, `assigns_inv`), and
  the three returns look it up under the same name (`effect_statement`).

  The exception are dots: a required reference is looked up without them if the
  options say so, while an assignment and an optional reference keep them
  (`reads_back`).
-/
import ProductFormula.Proofs.Calculation.Forms
import ProductFormula.Proofs.Calculation.Locality
import ProductFormula.Proofs.Calculation.Sequence
import ProductFormula.Proofs.Printer.Lexing
import ProductFormula.Proofs.Reference.Dots

namespace ProductFormula

open Calculation Text

/-! ## Names -/

/-- A name without what would end it on its way, or make it another one: what
    may not stand in it, or not in front. -/
structure Readable (n : String) : Prop where
  nonempty : n ≠ ""
  noBracket : ']' ∉ n.toList
  noBrace : '\x7d' ∉ n.toList
  noSemicolon : ';' ∉ n.toList
  noLineFeed : '\n' ∉ n.toList
  noReturn : '\r' ∉ n.toList
  noCaret : n.toList.head? ≠ some '^'

/-- `[n] = e` -/
def assignmentText (n e : String) : String := "[" ++ n ++ "] = " ++ e

/-- The returns that read one name. -/
inductive Reading where
  /-- `={n}` -/
  | value
  /-- `={^n}` -/
  | optionalValue
  /-- `=#{n}` -/
  | text
deriving DecidableEq

namespace Reading

/-- What stands between the equals sign and the name. -/
def opening : Reading → List Char
  | value => ['\x7b']
  | optionalValue => ['\x7b', '^']
  | text => ['#', '\x7b']

def statement (n : String) (r : Reading) : String :=
  .ofList ('=' :: (r.opening ++ (n.toList ++ ['\x7d'])))

def isOptional : Reading → Bool
  | optionalValue => true
  | _ => false

/-- What is returned for the value that is read. -/
def yields (v : Value) : Reading → Value
  | text => .text v.display
  | _ => v

end Reading

variable {options : Options} {env env' : Environment} {n e : String} {rest : List Char}

theorem Readable.toList_ne_nil (hn : Readable n) : n.toList ≠ [] :=
  fun h => hn.nonempty (String.toList_eq_nil_iff.1 h)

theorem Readable.oneLine (hn : Readable n) : ∀ c ∈ n.toList, isLineBreak c = false := by
  intro c hc
  have hfeed : c ≠ '\n' := fun h => hn.noLineFeed (h ▸ hc)
  have hreturn : c ≠ '\r' := fun h => hn.noReturn (h ▸ hc)
  simp [isLineBreak, hfeed, hreturn]

/-! ## The assignment -/

/-- Nothing is trimmed from the name. -/
theorem keptStatements_assignment (hn : Readable n) (he : ';' ∉ e.toList) :
    ∃ rest, keptStatements (assignmentText n e).toList =
      ['[' :: (n.toList ++ ']' :: rest)] := by
  have htext : (assignmentText n e).toList =
      ('[' :: n.toList) ++ ']' :: (' ' :: '=' :: ' ' :: e.toList) := by
    simp [assignmentText]
  have hundivided : ';' ∉ (assignmentText n e).toList := by
    rw [htext]
    simp [hn.noSemicolon, he]
  have hline : n.toList.filter (fun c => !isLineBreak c) = n.toList := by
    rw [List.filter_eq_self]
    intro c hc
    rw [hn.oneLine c hc]
    rfl
  let rest := (trimEnd (' ' :: '=' :: ' ' :: e.toList)).filter fun c => !isLineBreak c
  have hkept : (trim (assignmentText n e).toList).filter (fun c => !isLineBreak c) =
      '[' :: (n.toList ++ ']' :: rest) := by
    have hopening : isLineBreak '[' = false := rfl
    have hclosing : isLineBreak ']' = false := rfl
    rw [htext, trim, trimStart_eq_self (by simp; decide), trimEnd_append (by decide)]
    simp [List.filter_append, hline, hopening, hclosing, rest]
  refine ⟨rest, ?_⟩
  rw [keptStatements_of_undivided hundivided (by rw [hkept]; rfl), hkept]

theorem ofText_bracketed (hn : Readable n) (rest : List Char) :
    Statement.ofText ('[' :: (n.toList ++ ']' :: rest)) =
      match Statement.rightSide? rest with
      | some expression => .assignment n expression
      | none => .other := by
  have hassignment := Statement.assignment?_bracketed hn.toList_ne_nil hn.noBracket rest
  rw [Statement.ofText, hassignment, String.ofList_toList]
  · cases Statement.rightSide? rest <;> rfl
  · simp
  · simp

/-- An expression takes a level of nesting. -/
theorem depth_pos_of_parse {limit : Nat} {text : String} {tree : Expr}
    (h : Expr.parse limit text = .ok tree) : 1 ≤ limit := by
  rw [Grammar.parse_eq_ok_iff_nests] at h
  generalize Token.lex text.toList = ts at h
  cases h <;> exact Nat.le_add_left _ _

/-- What is assigned has the name that stands between the brackets. -/
theorem assigns_inv (hn : Readable n) {m : String} {w : Value}
    (h : effect options env ('[' :: (n.toList ++ ']' :: rest)) = .ok (.assigns m w)) :
    m = n ∧ 1 ≤ options.maxDepth := by
  obtain ⟨_, -, hperform⟩ := bind_eq_ok.1 h
  rw [ofText_bracketed hn] at hperform
  split at hperform
  · obtain ⟨v, hv, hx⟩ := bind_eq_ok.1 hperform
    obtain ⟨tree, htree, -⟩ := bind_eq_ok.1 hv
    cases hx
    exact ⟨rfl, depth_pos_of_parse htree⟩
  · cases hperform

/-- What the log of one statement says was assigned is what the statement does. -/
theorem effect_of_assigned {s : List Char} {line : Nat} {m : String} {w : Value}
    (h : .assigned line m w ∈ (run options 1 env [s]).log) :
    effect options env s = .ok (.assigns m w) := by
  rcases run_cons_cases options 1 env s with ⟨r, -, hlog, hrun⟩ | ⟨x, middle, heffect, -, hrun⟩
  · rw [hrun] at h
    rcases hlog with hlog | hlog <;> simp [hlog] at h
  · rw [hrun, run, Run.logged, List.mem_singleton] at h
    cases x with
    | returns | nothing => cases h
    | assigns name value =>
      cases h
      exact heffect

/-- The assignment that the log tells of came through, and wrote the name
    between the brackets. -/
theorem passes_assignment (hn : Readable n) (he : ';' ∉ e.toList) {line : Nat} {m : String}
    {w : Value}
    (h : .assigned line m w ∈ (calculate options (assignmentText n e) env).log) :
    m = n ∧ 1 ≤ options.maxDepth ∧
      (keptStatements (assignmentText n e).toList).length = 1 ∧
      Passes options 1 env (keptStatements (assignmentText n e).toList) (env.set n w) := by
  obtain ⟨rest, hkept⟩ := keptStatements_assignment hn he
  have hblank : isBlankText (assignmentText n e).toList = false :=
    isBlankText_of_mem (c := '[') (by simp [assignmentText]) rfl
  rw [log_calculate options env hblank, runOf_of_kept options env (by rw [hkept]; simp), hkept,
    List.mem_append] at h
  have hlog := h.resolve_right (by cases (run options 1 env _).outcome <;> simp [failures])
  have heffect := effect_of_assigned hlog
  obtain ⟨rfl, hdepth⟩ := assigns_inv hn heffect
  rw [hkept]
  exact ⟨rfl, hdepth, rfl, passes_cons_iff.2 ⟨_, _, heffect, rfl, passes_nil _ _ _⟩⟩

/-! ## The returns -/

theorem toList_statement (n : String) (r : Reading) :
    (r.statement n).toList = '=' :: (r.opening ++ (n.toList ++ ['\x7d'])) :=
  String.toList_ofList

theorem canonical_statement (hn : Readable n) (r : Reading) :
    Canonical (r.statement n).toList := by
  rw [toList_statement]
  have hopening : ∀ c ∈ r.opening, isLineBreak c = false ∧ c ≠ ';' := by
    cases r <;> simp [Reading.opening, isLineBreak]
  refine ⟨⟨?_, ?_⟩, ?_, ?_, rfl⟩
  · intro c hc
    cases hc
    rfl
  · intro c hc
    rw [← List.append_assoc, ← List.cons_append, List.getLast?_concat] at hc
    cases hc
    rfl
  · intro c hc
    simp only [List.mem_cons, List.mem_append, List.not_mem_nil, or_false] at hc
    rcases hc with rfl | hc | hc | rfl
    · rfl
    · exact (hopening c hc).1
    · exact hn.oneLine c hc
    · rfl
  · intro hc
    simp only [List.mem_cons, List.mem_append, List.not_mem_nil, or_false] at hc
    rcases hc with hc | hc | hc | hc
    · cases hc
    · exact (hopening _ hc).2 rfl
    · exact hn.noSemicolon hc
    · cases hc

/-- A reading requires the name, unless it is optional. -/
theorem requiredNames_statement (hn : Readable n) (r : Reading) :
    requiredNames (r.statement n).toList = if r.isOptional then [] else [n] := by
  have hequals : '=' ≠ '\x7b' := by decide
  have hsign : '#' ≠ '\x7b' := by decide
  have hrequired := requiredNames_braced hn.toList_ne_nil hn.noBrace hn.noCaret []
  rw [String.ofList_toList, requiredNames_nil] at hrequired
  rw [toList_statement, requiredNames_plain hequals]
  cases r with
  | value => exact hrequired
  | optionalValue => exact (requiredNames_caret hn.noBrace []).trans requiredNames_nil
  | text => exact (requiredNames_plain hsign _).trans hrequired

theorem parse_braced (hn : Readable n) {limit : Nat} (h : 1 ≤ limit) (optional : Bool) :
    Expr.parse limit (.ofList (braced n optional)) = .ok (.reference n optional) := by
  have hlex := @Token.lex_braced n optional hn.nonempty hn.noBrace (fun _ => hn.noCaret) []
  rw [List.append_nil, Token.lex_nil] at hlex
  rw [Grammar.parse_eq_ok_iff_nests, String.toList_ofList, hlex]
  exact (Grammar.derives_iff_nests h).1 (.loosen .reference (Nat.zero_le _))

theorem evaluateText_braced (hn : Readable n) {limit : Nat} (h : 1 ≤ limit) (ctx : Context)
    (optional : Bool) : evaluateText limit ctx (braced n optional) = ctx.resolve n optional := by
  rw [evaluateText, parse_braced hn h]
  rfl

theorem interpolate_braced (hn : Readable n) (ctx : Context) :
    interpolate ctx (braced n false) = (ctx.resolve n false).map (·.display) := by
  have hsegments := Segment.ofText_braced hn.toList_ne_nil hn.noBrace []
  rw [Segment.ofText_nil] at hsegments
  have hreferent : Segment.referent n.toList = (n, false) := by
    rw [Segment.referent, String.ofList_toList]
    rintro c name h
    exact hn.noCaret (by rw [h]; rfl)
  have hfilled : interpolate ctx (braced n false) =
      (Segment.fillAll ctx [.braced n.toList]).map .ofList := by
    rw [interpolate, ← hsegments]
    rfl
  rw [hfilled, Segment.fillAll, Segment.fill, hreferent]
  cases hresolve : ctx.resolve n false with
  | error => simp [hresolve, Except.map, bind, Except.bind]
  | ok v => simp [hresolve, Segment.fillAll, Except.map, bind, Except.bind, pure, Except.pure]

theorem perform_statement (hn : Readable n) {limit : Nat} (h : 1 ≤ limit) (ctx : Context)
    (r : Reading) : perform limit ctx (.ofText (r.statement n).toList) =
      (ctx.resolve n r.isOptional).map fun v => .returns (r.yields v) := by
  rw [toList_statement]
  cases r with
  | value =>
    have hvalue := evaluateText_braced hn h ctx false
    exact congrArg (Except.map Effect.returns) hvalue
  | optionalValue =>
    have hvalue := evaluateText_braced hn h ctx true
    exact congrArg (Except.map Effect.returns) hvalue
  | text =>
    have htext := interpolate_braced hn ctx
    have hoptional : Reading.text.isOptional = false := rfl
    refine (congrArg (Except.map fun t => Effect.returns (.text t)) htext).trans ?_
    rw [hoptional]
    cases ctx.resolve n false with
    | error => rfl
    | ok => rfl

/-- **A reading returns what the name resolves to.** -/
theorem effect_statement (hn : Readable n) (hdepth : 1 ≤ options.maxDepth) (r : Reading) :
    effect options env (r.statement n).toList =
      ((⟨env, options.stripDots⟩ : Context).resolve n r.isOptional).map fun v =>
        .returns (r.yields v) := by
  rw [effect, requiredNames_statement hn, perform_statement hn hdepth]
  cases hoptional : r.isOptional with
  | true => rfl
  | false =>
    cases hresolve : (⟨env, options.stripDots⟩ : Context).resolve n false with
    | error e => simp [checkBound, hresolve, Except.map, bind, Except.bind]
    | ok v => simp [checkBound, hresolve, Except.map, bind, Except.bind]

/-! ## Behind the assignment -/

section

variable {first second : String}

/-- The run of a statement behind a formula that came through. -/
theorem runOf_behind (hfirst : Passes options 1 env (keptStatements first.toList) env')
    (hs : Canonical second.toList) :
    (runOf options (first ++ ";" ++ second).toList env).environment =
        (run options 1 env' [second.toList]).environment ∧
      (runOf options (first ++ ";" ++ second).toList env).outcome =
        (run options 1 env' [second.toList]).outcome.mapError
          (.later (keptStatements first.toList).length) := by
  have hkept := keptStatements_of_canonical hs
  have hrun := runOf_append hfirst second.toList
  rwa [runOf_of_kept options env' (by simp [hkept]), hkept, ← toList_joined] at hrun

theorem result_behind (hfirst : Passes options 1 env (keptStatements first.toList) env')
    (hs : Canonical second.toList) {v : Value}
    (heffect : effect options env' second.toList = .ok (.returns v)) :
    (calculate options (first ++ ";" ++ second) env).record.result = some v := by
  obtain ⟨-, hrecord⟩ := calculate_eq_run options env (isBlankText_joined first second)
  obtain ⟨-, houtcome⟩ := runOf_behind hfirst hs
  rw [(run_cons_returns 1 [] heffect).2] at houtcome
  rw [hrecord, recordOf, houtcome]
  rfl

theorem failure_behind (hfirst : Passes options 1 env (keptStatements first.toList) env')
    (hs : Canonical second.toList) {err : Error}
    (heffect : effect options env' second.toList = .error err) :
    (calculate options (first ++ ";" ++ second) env).record =
      .failure (calculate options (first ++ ";" ++ second) env).record.formula env'
        (err.atLine (1 + (keptStatements first.toList).length)) := by
  obtain ⟨-, hrecord⟩ := calculate_eq_run options env (isBlankText_joined first second)
  obtain ⟨henv, houtcome⟩ := runOf_behind hfirst hs
  obtain ⟨hstopEnv, hstopOutcome⟩ := run_cons_error 1 [] heffect
  rw [hstopEnv] at henv
  rw [hstopOutcome, Except.mapError, Error.later_atLine (bare_effect _ _ _ _ heffect)] at houtcome
  rw [hrecord, formula_recordOf, recordOf, houtcome, henv]

end

/-! ## Both together -/

/-- The readings of a name behind the formula that assigned it: they return what
    was assigned, unless dots of the name are dropped on the way. -/
structure ReadsBack (options : Options) (env : Environment) (first n : String) (w : Value) :
    Prop where
  optional : ∀ r : Reading, r.isOptional = true →
    (calculate options (first ++ ";" ++ r.statement n) env).record.result = some (r.yields w)
  required : ∀ r : Reading, r.isOptional = false → (options.stripDots = true → '.' ∉ n.toList) →
    (calculate options (first ++ ";" ++ r.statement n) env).record.result = some (r.yields w)
  /-- where dots are dropped, what the name without them stands for is found -/
  found : ∀ r : Reading, r.isOptional = false → options.stripDots = true → '.' ∈ n.toList →
    ∀ v, env.get? (undotted n) = some v →
      (calculate options (first ++ ";" ++ r.statement n) env).record.result = some (r.yields v)
  /-- or nothing is, which is an error of the second statement -/
  unbound : ∀ r : Reading, r.isOptional = false → options.stripDots = true → '.' ∈ n.toList →
    env.get? (undotted n) = none →
      (calculate options (first ++ ";" ++ r.statement n) env).record =
        .failure (calculate options (first ++ ";" ++ r.statement n) env).record.formula
          (env.set n w) (.unresolvedVariable n 2)

/-- **What a formula assigns it reads back** under the same name, dots apart. -/
theorem reads_back (hn : Readable n) (he : ';' ∉ e.toList) {line : Nat} {m : String} {w : Value}
    (h : .assigned line m w ∈ (calculate options (assignmentText n e) env).log) :
    m = n ∧ ReadsBack options env (assignmentText n e) n w := by
  obtain ⟨hm, hdepth, hcount, hpasses⟩ := passes_assignment hn he h
  let ctx : Context := ⟨env.set n w, options.stripDots⟩
  have hreturns {r : Reading} {v : Value}
      (hv : ctx.env.get? (if r.isOptional then n else ctx.lookupName n) = some v) :
      (calculate options (assignmentText n e ++ ";" ++ r.statement n) env).record.result =
        some (r.yields v) := by
    refine result_behind hpasses (canonical_statement hn r) ?_
    have hresolve := resolve_eq_ok hv
    rw [effect_statement hn hdepth, hresolve]
    rfl
  have hassigned : (env.set n w).get? n = some w := by rw [Environment.get?_set, if_pos rfl]
  have hundotted (hdot : '.' ∈ n.toList) :
      (env.set n w).get? (undotted n) = env.get? (undotted n) := by
    rw [Environment.get?_set, if_neg (mt undotted_eq_self_iff.1 (not_not_intro hdot))]
  refine ⟨hm, ?_, ?_, ?_, ?_⟩
  · intro r hr
    exact hreturns (by rw [hr, if_pos rfl, hassigned])
  · intro r hr hdots
    have hlookup : ctx.lookupName n = n := lookupName_eq_self hdots
    exact hreturns (by rw [hr, if_neg Bool.false_ne_true, hlookup, hassigned])
  · intro r hr hstrip hdot v hv
    have hlookup : ctx.lookupName n = undotted n := lookupName_of_strip hstrip n
    exact hreturns (by rw [hr, if_neg Bool.false_ne_true, hlookup, hundotted hdot, hv])
  · intro r hr hstrip hdot hnone
    have hlookup : ctx.lookupName n = undotted n := lookupName_of_strip hstrip n
    have hresolve : ctx.resolve n r.isOptional = .error (.missingVariable n) := by
      simp [Context.resolve, hr, hlookup, ctx, hundotted hdot, hnone]
    have hfailure := failure_behind hpasses (canonical_statement hn r)
      (by rw [effect_statement hn hdepth, hresolve]; rfl)
    rwa [hcount] at hfailure

/-- A name with a blank in it is read back. -/
theorem reads_back_spaced :
    Readable "A B" ∧ ';' ∉ "true".toList ∧
      .assigned 1 "A B" (.boolean true) ∈
        (calculate {} (assignmentText "A B" "true") .empty).log ∧
      ReadsBack {} .empty (assignmentText "A B" "true") "A B" (.boolean true) := by
  have hn : Readable "A B" := by constructor <;> decide
  have he : ';' ∉ "true".toList := by decide
  have hassigned : .assigned 1 "A B" (.boolean true) ∈
      (calculate {} (assignmentText "A B" "true") .empty).log := by decide +kernel
  exact ⟨hn, he, hassigned, (reads_back hn he hassigned).2⟩

/-- A name with a dot is assigned, and not found where dots are dropped. -/
theorem dotted_not_read_back :
    Readable "A.B" ∧ ';' ∉ "true".toList ∧
      (calculate {} "[A.B] = true" .empty).record.code = 0 ∧
      (calculate {} "[A.B] = true" .empty).environment.get? "A.B" = some (.boolean true) ∧
      (calculate {} "[A.B] = true;=\x7bA.B\x7d" .empty).record.result ≠ some (.boolean true) := by
  have hn : Readable "A.B" := by constructor <;> decide
  exact ⟨hn, by decide, by decide +kernel, by decide +kernel, by decide +kernel⟩

end ProductFormula
