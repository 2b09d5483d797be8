/-
  Running statements one after the other.

  What one statement does is its effect in the environment it is run in
  (`Calculation.effect`, `Performs`), and a run goes on behind a statement iff the
  effect leaves an environment to go on with (`Effect.next?`).

  * `run_append`: statements behind others that came through are run as if in
    the environment those left;
  * `passes_or_stops`: a run that does not come through ends at one statement, with
    the environment that the ones before it left.
-/
import ProductFormula.Calculation
import ProductFormula.Proofs.Outcome

namespace ProductFormula.Calculation

/-! ## One statement -/

/-- The effect of a statement, its references checked. -/
def effect (options : Options) (env : Environment) (s : List Char) : Except Error Effect := do
  checkBound ⟨env, options.stripDots⟩ (requiredNames s)
  perform options.maxDepth ⟨env, options.stripDots⟩ (.ofText s)

/-- The environment for the next statement, none behind a return. -/
def Effect.next? (env : Environment) : Effect → Option Environment
  | returns _ => none
  | assigns name value => some (env.set name value)
  | nothing => some env

/-- A statement that is a return. -/
def StartsReturn (s : List Char) : Prop := s.head? = some '='

instance : DecidablePred StartsReturn := fun s => inferInstanceAs (Decidable (s.head? = some '='))

variable {options : Options} {line : Nat} {env env' : Environment} {s : List Char}
  {rest front ss : List (List Char)} {e : Error}

theorem isReturn_ofText (s : List Char) : isReturn (.ofText s) ↔ StartsReturn s := by
  unfold Statement.ofText
  split
  · simp [isReturn, StartsReturn]
  · simp [isReturn, StartsReturn]
  next hplain =>
    have hhead : ¬ StartsReturn s := by
      rcases s with _ | ⟨c, cs⟩
      · simp [StartsReturn]
      · intro h
        cases h
        exact hplain cs rfl
    split <;> simp [isReturn, hhead]

/-- What a statement can do, by its kind. -/
inductive Performs (maxDepth : Nat) (ctx : Context) : Statement → Effect → Prop
  | returnText {text filled} : interpolate ctx text = .ok filled →
      Performs maxDepth ctx (.returnText text) (.returns (.text filled))
  | returnValue {expression v} : evaluateText maxDepth ctx expression = .ok v →
      Performs maxDepth ctx (.returnValue expression) (.returns v)
  | assignment {name expression v} : evaluateText maxDepth ctx expression = .ok v →
      Performs maxDepth ctx (.assignment name expression) (.assigns name v)
  | other : Performs maxDepth ctx .other .nothing

/-- A statement with an effect does one of these things. -/
theorem performs_of_effect {x : Effect} (h : effect options env s = .ok x) :
    Performs options.maxDepth ⟨env, options.stripDots⟩ (.ofText s) x := by
  obtain ⟨_, -, hperform⟩ := bind_eq_ok.1 h
  generalize Statement.ofText s = statement at hperform
  cases statement with
  | returnText text =>
    obtain ⟨filled, hfilled, hx⟩ := bind_eq_ok.1 hperform
    cases hx
    exact .returnText hfilled
  | returnValue expression =>
    obtain ⟨v, hv, hx⟩ := bind_eq_ok.1 hperform
    cases hx
    exact .returnValue hv
  | assignment name expression =>
    obtain ⟨v, hv, hx⟩ := bind_eq_ok.1 hperform
    cases hx
    exact .assignment hv
  | other =>
    cases hperform
    exact .other

/-- A run goes on behind a statement iff it is no return. -/
theorem next?_of_effect {x : Effect} (h : effect options env s = .ok x) :
    x.next? env = none ↔ StartsReturn s := by
  have hperforms := performs_of_effect h
  rw [← isReturn_ofText]
  generalize Statement.ofText s = statement at hperforms
  cases hperforms <;> simp [Effect.next?, isReturn]

/-- An error ends a run. -/
theorem run_cons_error (line : Nat) (rest : List (List Char))
    (h : effect options env s = .error e) :
    (run options line env (s :: rest)).environment = env ∧
      (run options line env (s :: rest)).outcome = .error (e.atLine line) := by
  rcases bind_eq_error.1 h with hcheck | ⟨_, hcheck, hperform⟩
  · simp only [run, hcheck, and_self]
  · simp only [run, hcheck, hperform, and_self]

/-- A return ends a run. -/
theorem run_cons_returns (line : Nat) (rest : List (List Char)) {v : Value}
    (h : effect options env s = .ok (.returns v)) :
    (run options line env (s :: rest)).environment = env ∧
      (run options line env (s :: rest)).outcome = .ok (some v) := by
  obtain ⟨_, hcheck, hperform⟩ := bind_eq_ok.1 h
  simp only [run, hcheck, hperform, and_self]

/-- Behind any other statement a run goes on. -/
theorem run_cons_next (line : Nat) (rest : List (List Char)) {x : Effect}
    (h : effect options env s = .ok x) (hx : x.next? env = some env') :
    (run options line env (s :: rest)).environment =
        (run options (line + 1) env' rest).environment ∧
      (run options line env (s :: rest)).outcome =
        (run options (line + 1) env' rest).outcome := by
  obtain ⟨_, hcheck, hperform⟩ := bind_eq_ok.1 h
  cases x with
  | returns => cases hx
  | assigns name value =>
    cases hx
    simp only [run, hcheck, hperform, Run.logged, and_self]
  | nothing =>
    cases hx
    simp only [run, hcheck, hperform, Run.logged, and_self]

/-- What the log says of an effect. -/
def Effect.entry (line : Nat) : Effect → LogEntry
  | returns _ => .returned line
  | assigns name value => .assigned line name value
  | nothing => .skipped line

/-- **A statement ends a run, whatever stands behind it, or hands an environment
    on**, and the log tells which. -/
theorem run_cons_cases (options : Options) (line : Nat) (env : Environment) (s : List Char) :
    (∃ r : Run, r.environment = env ∧ (r.log = [] ∨ r.log = [.returned line]) ∧
        ∀ rest, run options line env (s :: rest) = r) ∨
      ∃ x env', effect options env s = .ok x ∧ x.next? env = some env' ∧
        ∀ rest, run options line env (s :: rest) =
          (run options (line + 1) env' rest).logged (x.entry line) := by
  cases hcheck : checkBound ⟨env, options.stripDots⟩ (requiredNames s) with
  | error e =>
    refine .inl ⟨⟨env, .error (e.atLine line), []⟩, rfl, .inl rfl, fun rest => ?_⟩
    simp only [run, hcheck]
  | ok =>
    cases hperform : perform options.maxDepth ⟨env, options.stripDots⟩ (.ofText s) with
    | error e =>
      let log : List LogEntry := if isReturn (.ofText s) then [.returned line] else []
      have hlog : log = [] ∨ log = [.returned line] := by
        dsimp only [log]
        split
        · exact .inr rfl
        · exact .inl rfl
      refine .inl ⟨⟨env, .error (e.atLine line), log⟩, rfl, hlog, fun rest => ?_⟩
      simp only [run, hcheck, hperform, log]
    | ok x =>
      have heffect : effect options env s = .ok x := bind_eq_ok.2 ⟨_, hcheck, hperform⟩
      cases x with
      | returns v =>
        refine .inl ⟨⟨env, .ok (some v), [.returned line]⟩, rfl, .inr rfl, fun rest => ?_⟩
        simp only [run, hcheck, hperform]
      | assigns name v =>
        refine .inr ⟨_, _, heffect, rfl, fun rest => ?_⟩
        simp only [run, hcheck, hperform, Effect.entry]
      | nothing =>
        refine .inr ⟨_, _, heffect, rfl, fun rest => ?_⟩
        simp only [run, hcheck, hperform, Effect.entry]

/-! ## Runs -/

/-- The statements came through: no error, and no return. -/
def Passes (options : Options) (line : Nat) (env : Environment) (ss : List (List Char))
    (env' : Environment) : Prop :=
  (run options line env ss).outcome = .ok none ∧ (run options line env ss).environment = env'

theorem passes_nil (options : Options) (line : Nat) (env : Environment) :
    Passes options line env [] env := ⟨rfl, rfl⟩

theorem passes_cons_iff : Passes options line env (s :: rest) env' ↔
    ∃ x middle, effect options env s = .ok x ∧ x.next? env = some middle ∧
      Passes options (line + 1) middle rest env' := by
  constructor
  · rintro ⟨houtcome, henv⟩
    cases h : effect options env s with
    | error e =>
      rw [(run_cons_error line rest h).2] at houtcome
      cases houtcome
    | ok x =>
      cases hx : x.next? env with
      | none =>
        cases x with
        | returns v =>
          rw [(run_cons_returns line rest h).2] at houtcome
          cases houtcome
        | assigns => cases hx
        | nothing => cases hx
      | some middle =>
        obtain ⟨hnextEnv, hnextOutcome⟩ := run_cons_next line rest h hx
        exact ⟨x, middle, rfl, hx, hnextOutcome ▸ houtcome, hnextEnv ▸ henv⟩
  · rintro ⟨x, middle, h, hx, houtcome, henv⟩
    obtain ⟨hnextEnv, hnextOutcome⟩ := run_cons_next line rest h hx
    exact ⟨hnextOutcome.trans houtcome, hnextEnv.trans henv⟩

/-- No statement that a run came through is a return. -/
theorem Passes.not_startsReturn (h : Passes options line env ss env') :
    ∀ s ∈ ss, ¬ StartsReturn s := by
  induction ss generalizing line env with
  | nil => simp
  | cons s rest ih =>
    obtain ⟨x, middle, heffect, hx, hrest⟩ := passes_cons_iff.1 h
    have hs : ¬ StartsReturn s := by
      rw [← next?_of_effect heffect, hx]
      exact Option.some_ne_none middle
    intro s' hs'
    rcases List.mem_cons.1 hs' with rfl | hs'
    · exact hs
    · exact ih hrest s' hs'

/-- Statements behind others that came through are run in the environment
    those left. -/
theorem run_append (h : Passes options line env front env') (rest : List (List Char)) :
    (run options line env (front ++ rest)).environment =
        (run options (line + front.length) env' rest).environment ∧
      (run options line env (front ++ rest)).outcome =
        (run options (line + front.length) env' rest).outcome := by
  induction front generalizing line env with
  | nil =>
    cases h.2
    exact ⟨rfl, rfl⟩
  | cons s front ih =>
    obtain ⟨x, middle, heffect, hx, hfront⟩ := passes_cons_iff.1 h
    obtain ⟨hnextEnv, hnextOutcome⟩ :=
      run_cons_next line (front ++ rest) heffect hx
    obtain ⟨henv, houtcome⟩ := ih hfront
    have hline : line + 1 + front.length = line + (s :: front).length := by
      rw [List.length_cons]
      omega
    rw [hline] at henv houtcome
    exact ⟨hnextEnv.trans henv, hnextOutcome.trans houtcome⟩

/-- Statements put together come through iff the first of them do, and the
    others where those ended. -/
theorem passes_append_iff : Passes options line env (front ++ rest) env' ↔
    ∃ middle, Passes options line env front middle ∧
      Passes options (line + front.length) middle rest env' := by
  constructor
  · intro h
    induction front generalizing line env with
    | nil => exact ⟨env, passes_nil options line env, h⟩
    | cons s front ih =>
      obtain ⟨x, next, heffect, hx, hrest⟩ := passes_cons_iff.1 h
      obtain ⟨middle, hfront, hrest⟩ := ih hrest
      refine ⟨middle, passes_cons_iff.2 ⟨x, next, heffect, hx, hfront⟩, ?_⟩
      rwa [List.length_cons, Nat.add_comm front.length, ← Nat.add_assoc]
  · rintro ⟨middle, hfront, houtcome, henv⟩
    obtain ⟨hrunEnv, hrunOutcome⟩ := run_append hfront rest
    exact ⟨hrunOutcome.trans houtcome, hrunEnv.trans henv⟩

/-- **A run comes through or ends at one statement**, all before it having come
    through. -/
theorem passes_or_stops (options : Options) (line : Nat) (env : Environment)
    (ss : List (List Char)) : (∃ env', Passes options line env ss env') ∨
      ∃ front s rest env', ss = front ++ s :: rest ∧ Passes options line env front env' ∧
        ∀ x, effect options env' s = .ok x → StartsReturn s := by
  induction ss generalizing line env with
  | nil => exact .inl ⟨env, passes_nil options line env⟩
  | cons s ss ih =>
    by_cases hstop : ∀ x, effect options env s = .ok x → StartsReturn s
    · exact .inr ⟨[], s, ss, env, rfl, passes_nil options line env, hstop⟩
    · obtain ⟨x, hx⟩ := Classical.not_forall.1 hstop
      obtain ⟨heffect, hs⟩ := Classical.not_imp.1 hx
      rw [← next?_of_effect heffect] at hs
      obtain ⟨middle, hx⟩ := Option.ne_none_iff_exists'.1 hs
      rcases ih (line + 1) middle with ⟨env', hrest⟩ | ⟨front, s', rest, env', rfl, hfront, hstop⟩
      · exact .inl ⟨env', passes_cons_iff.2 ⟨x, middle, heffect, hx, hrest⟩⟩
      · exact .inr ⟨s :: front, s', rest, env', rfl,
          passes_cons_iff.2 ⟨x, middle, heffect, hx, hfront⟩, hstop⟩

end ProductFormula.Calculation
