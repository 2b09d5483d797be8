/-
  Texts in quotes.

  A quoted text denotes what stands between the quotes, whatever that is
  (`parse_quoted`), but a calculation looks at it twice before it looks for
  quotes.  A formula is divided at every semicolon, also at one in a text, which
  is then left open (`keptStatements_divided`, `parse_opened`); and what stands
  in braces must be bound, also in a text.

  * `effect_quoted` and `effect_opened`: what the first statement does;
  * `literal_denotes`: a formula that returns a quoted text has it as its result
    iff it holds no semicolon and nothing unbound in braces.
-/
import Mathlib.Data.List.Induction
import ProductFormula.Proofs.Calculation.References
import ProductFormula.Proofs.Calculation.Sequence
import ProductFormula.Proofs.Printer.Lexing

namespace ProductFormula

open Calculation Text

variable {options : Options} {env : Environment} {cs : List Char}

/-! ## Backslashes -/

/-- The text with a backslash before every quote and backslash. -/
def escapedText (cs : List Char) : List Char := cs.flatMap backslashed

theorem escapedText_append (front rest : List Char) :
    escapedText (front ++ rest) = escapedText front ++ escapedText rest := List.flatMap_append

/-- Backslashes are all that is put in. -/
theorem mem_escapedText {c : Char} (h : c ∈ escapedText cs) : c ∈ cs ∨ c = '\\' := by
  obtain ⟨d, hd, hc⟩ := List.mem_flatMap.1 h
  unfold backslashed at hc
  split at hc
  · rcases List.mem_cons.1 hc with rfl | hc
    · exact .inr rfl
    · exact .inl (List.mem_singleton.1 hc ▸ hd)
  · exact .inl (List.mem_singleton.1 hc ▸ hd)

theorem oneLine_escapedText (h : ∀ c ∈ cs, isLineBreak c = false) :
    ∀ c ∈ escapedText cs, isLineBreak c = false := by
  intro c hc
  rcases mem_escapedText hc with hc | rfl
  · exact h c hc
  · rfl

theorem undivided_escapedText (h : ';' ∉ cs) : ';' ∉ escapedText cs := by
  intro hc
  rcases mem_escapedText hc with hc | hc
  · exact h hc
  · cases hc

/-- The last character of an escaped text is that of the text. -/
theorem trimEnd_escapedText (cs : List Char) :
    trimEnd (escapedText cs) = escapedText (trimEnd cs) := by
  induction cs using List.reverseRecOn with
  | nil => rfl
  | append_singleton cs c ih =>
    cases hc : isBlank c with
    | true =>
      have hplain : escapedText [c] = [c] := by
        have hquote : ¬ (c = '"' ∨ c = '\\') := by
          rintro (rfl | rfl) <;> cases hc
        simp [escapedText, backslashed, hquote]
      have hdrop (front : List Char) : trimEnd (front ++ [c]) = trimEnd front := by
        rw [trimEnd, List.reverse_append, List.reverse_singleton, List.singleton_append,
          List.dropWhile_cons_of_pos hc, trimEnd]
      rw [escapedText_append, hplain, hdrop, hdrop, ih]
    | false =>
      have hlast : ∃ front, escapedText [c] = front ++ [c] := by
        unfold escapedText
        rw [List.flatMap_singleton, backslashed]
        split
        · exact ⟨['\\'], rfl⟩
        · exact ⟨[], rfl⟩
      obtain ⟨front, hfront⟩ := hlast
      rw [escapedText_append, trimEnd_append hc, hfront, ← List.append_assoc, trimEnd_append hc,
        trimEnd, List.reverse_nil, List.dropWhile_nil, List.reverse_nil, escapedText_append,
        hfront, List.append_assoc]

/-! ## Two readings of a text -/

/-- An opening quote and a text that no quote closes. -/
def opened (cs : List Char) : List Char := '"' :: escapedText cs

theorem quoted_eq (s : String) : quoted s = opened s.toList ++ ['"'] := rfl

theorem stringContent?_escapedText (cs : List Char) :
    Token.stringContent? '"' (escapedText cs) = none := by
  induction cs with
  | nil => rw [escapedText, List.flatMap_nil, Token.stringContent?.eq_def]
  | cons c cs ih =>
    rw [escapedText] at ih
    rw [escapedText, List.flatMap_cons, backslashed]
    by_cases hquote : c = '"'
    · subst hquote
      simp [Token.stringContent?, ih]
    by_cases hslash : c = '\\'
    · subst hslash
      simp [Token.stringContent?, ih]
    · rw [if_neg (not_or.2 ⟨hquote, hslash⟩), List.singleton_append, Token.stringContent?.eq_def]
      simp [hquote, hslash, ih]

theorem lex_opened (cs : List Char) :
    Token.lex (opened cs) = [.invalid .unterminatedString] := by
  have hscan : Token.scan '"' (escapedText cs) = Token.scanString '"' (escapedText cs) := rfl
  rw [opened, Token.lex_cons rfl, hscan, Token.scanString, stringContent?_escapedText]
  simp [Token.lex_nil]

namespace Parser

variable {room : Nat} {ts : List Token} {failure : Failure}

/-- A failure in the first operand is one of every tier. -/
theorem tier_eq_error (h : unary room ts = .error failure) (t : Tier) :
    tier t room ts = .error failure := by
  have hoperand : operand t room ts = .error failure := by
    cases ht : t.tighter? with
    | none => rw [operand_of_tightest ht, h]
    | some t' => rw [operand_of_tighter ht, tier_eq_error h t']
  rw [tier, hoperand]
  rfl
termination_by t.rank
decreasing_by
  have := Tier.rank_of_tighter? ht
  omega

theorem expression_invalid (room : Nat) (fault : LexicalFault) (ts : List Token) :
    expression (room + 1) (.invalid fault :: ts) = .error (.malformed (.lexical fault)) := by
  have hunary : unary room (.invalid fault :: ts) = .error (.malformed (.lexical fault)) := by
    rw [unary_unsigned rfl]
    rfl
  rw [expression, tier_eq_error hunary]
  rfl

end Parser

/-- **A quoted text is parsed to the text, whatever it holds.** -/
theorem parse_quoted {limit : Nat} (h : 1 ≤ limit) (s : String) :
    Expr.parse limit (.ofList (quoted s)) = .ok (.string s) := by
  have hlex := Token.lex_quoted s []
  rw [List.append_nil, Token.lex_nil] at hlex
  rw [Grammar.parse_eq_ok_iff_nests, String.toList_ofList, hlex]
  exact (Grammar.derives_iff_nests h).1 (.loosen .string (Nat.zero_le _))

theorem parse_opened {limit : Nat} (h : 1 ≤ limit) (cs : List Char) :
    Expr.parse limit (.ofList (opened cs)) =
      .error (.parse LexicalFault.unterminatedString.message) := by
  obtain ⟨room, rfl⟩ : ∃ room, limit = room + 1 := ⟨limit - 1, by omega⟩
  rw [Expr.parse, String.toList_ofList, lex_opened, Parser.expression_invalid]
  rfl

/-! ## The statement -/

/-- `="…"`, the text escaped. -/
def literalText (s : String) : String := .ofList ('=' :: quoted s)

theorem toList_literalText (s : String) : (literalText s).toList = '=' :: quoted s :=
  String.toList_ofList

/-- Every name is bound, dots dropped if the options say so. -/
def AllBound (options : Options) (env : Environment) (names : List String) : Prop :=
  ∀ name ∈ names, ∃ v, (⟨env, options.stripDots⟩ : Context).resolve name false = .ok v

/-- A check that fails names what is not bound. -/
theorem checkBound_eq_error {ctx : Context} {names : List String} {e : Error}
    (h : checkBound ctx names = .error e) :
    ∃ name ∈ names, ctx.resolve name false = .error e ∧ e = .missingVariable name := by
  induction names with
  | nil => cases h
  | cons name names ih =>
    rcases bind_eq_error.1 h with hname | ⟨_, -, hrest⟩
    · refine ⟨name, List.mem_cons_self, hname, ?_⟩
      unfold Context.resolve at hname
      rw [if_neg Bool.false_ne_true] at hname
      split at hname
      · cases hname
      · cases hname
        rfl
    · obtain ⟨missing, hmem, hmissing⟩ := ih hrest
      exact ⟨missing, List.mem_cons_of_mem _ hmem, hmissing⟩

/-- A value return checks the names of its expression and does what that does. -/
theorem effect_returnValue {expression : List Char} (h : expression.head? ≠ some '#')
    (options : Options) (env : Environment) :
    effect options env ('=' :: expression) =
      (checkBound ⟨env, options.stripDots⟩ (requiredNames expression)).bind fun _ =>
        (evaluateText options.maxDepth ⟨env, options.stripDots⟩ expression).map .returns := by
  rw [effect, requiredNames_plain (by decide), Statement.ofText_returnValue h, perform]
  rfl

theorem effect_quoted (h : 1 ≤ options.maxDepth) (env : Environment) (s : String) :
    effect options env ('=' :: quoted s) =
      (checkBound ⟨env, options.stripDots⟩ (requiredNames (quoted s))).map fun _ =>
        .returns (.text s) := by
  have hquote : (quoted s).head? ≠ some '#' := by simp [quoted]
  rw [effect_returnValue hquote, evaluateText, parse_quoted h]
  cases checkBound ⟨env, options.stripDots⟩ (requiredNames (quoted s)) <;> rfl

theorem effect_opened (h : 1 ≤ options.maxDepth) (env : Environment) (cs : List Char) :
    effect options env ('=' :: opened cs) =
      (checkBound ⟨env, options.stripDots⟩ (requiredNames (opened cs))).bind fun _ =>
        .error (.parse LexicalFault.unterminatedString.message) := by
  have hquote : (opened cs).head? ≠ some '#' := by simp [opened]
  rw [effect_returnValue hquote, evaluateText, parse_opened h]
  rfl

theorem oneLine_opened (h : ∀ c ∈ cs, isLineBreak c = false) :
    ∀ c ∈ '=' :: opened cs, isLineBreak c = false := by
  simp only [opened, List.forall_mem_cons]
  exact ⟨rfl, rfl, oneLine_escapedText h⟩

theorem undivided_opened (h : ';' ∉ cs) : ';' ∉ '=' :: opened cs := by
  simp [opened, undivided_escapedText h]

theorem trim_opened (cs : List Char) : trim ('=' :: opened cs) = '=' :: opened (trimEnd cs) := by
  have hquote : isBlank '"' = false := rfl
  have htrimEnd := trimEnd_append hquote ['='] (escapedText cs)
  rw [trimEnd_escapedText] at htrimEnd
  rw [trim, trimStart_eq_self (by rintro c hc; cases hc; rfl), opened]
  exact htrimEnd

/-- A text without a semicolon is one statement, as it stands. -/
theorem canonical_quoted {s : String} (hline : ∀ c ∈ s.toList, isLineBreak c = false)
    (hs : ';' ∉ s.toList) : Canonical ('=' :: quoted s) where
  trimmed := by
    constructor
    · rintro c hc
      cases hc
      rfl
    · rw [quoted_eq, ← List.cons_append, List.getLast?_concat]
      rintro c hc
      cases hc
      rfl
  oneLine := by
    rw [quoted_eq, ← List.cons_append]
    intro c hc
    rcases List.mem_append.1 hc with hc | hc
    · exact oneLine_opened hline c hc
    · rw [List.mem_singleton.1 hc]
      rfl
  undivided := by
    rw [quoted_eq, ← List.cons_append, List.mem_append]
    rintro (hc | hc)
    · exact undivided_opened hs hc
    · cases List.mem_singleton.1 hc
  notComment := rfl

/-- A semicolon in a text leaves the text open. -/
theorem keptStatements_divided {s : String} (hline : ∀ c ∈ s.toList, isLineBreak c = false)
    (hs : ';' ∈ s.toList) : ∃ cs rest, keptStatements (literalText s).toList =
      ('=' :: opened cs) :: rest := by
  obtain ⟨front, back, htext, hfront⟩ := List.eq_append_cons_of_mem hs
  have hformula : (literalText s).toList =
      ('=' :: opened front) ++ ';' :: (escapedText back ++ ['"']) := by
    have hsemicolon : escapedText (';' :: back) = ';' :: escapedText back := rfl
    rw [toList_literalText, quoted_eq, opened, opened, htext, escapedText_append, hsemicolon]
    simp
  have hfrontLine : ∀ c ∈ trimEnd front, isLineBreak c = false := by
    intro c hc
    refine hline c ?_
    rw [htext]
    exact List.mem_append_left _ ((isPrefix_trimEnd front).subset hc)
  have hkept : (trim ('=' :: opened front)).filter (fun c => !isLineBreak c) =
      '=' :: opened (trimEnd front) := by
    rw [trim_opened, List.filter_eq_self]
    intro c hc
    rw [oneLine_opened hfrontLine c hc]
    rfl
  have hfirst := keptStatements_of_undivided (undivided_opened hfront) (by rw [hkept]; rfl)
  refine ⟨trimEnd front, keptStatements (escapedText back ++ ['"']), ?_⟩
  rw [hformula, keptStatements_append, hfirst, hkept]
  rfl

/-! ## The calculation -/

section

variable {first : List Char} {rest : List (List Char)} {formula : String}

/-- Where the run ends with the first statement, the calculation does. -/
theorem calculate_first (hblank : isBlankText formula.toList = false)
    (hkept : keptStatements formula.toList = first :: rest) {outcome : Except Error (Option Value)}
    (hrun : (run options 1 env (first :: rest)).environment = env ∧
      (run options 1 env (first :: rest)).outcome = outcome) :
    (calculate options formula env).environment = env ∧
      (calculate options formula env).record =
        recordOf (.ofList (sourceOf formula.toList)) ⟨env, outcome, []⟩ := by
  obtain ⟨henv, hrecord⟩ := calculate_eq_run options env hblank
  obtain ⟨hrunEnv, houtcome⟩ := hrun
  rw [runOf_of_kept options env (by simp [hkept]), hkept] at henv hrecord
  rw [henv, hrecord, recordOf, recordOf, houtcome, hrunEnv]
  exact ⟨rfl, rfl⟩

end

theorem isBlankText_literalText (s : String) : isBlankText (literalText s).toList = false := by
  rw [toList_literalText]
  exact isBlankText_of_mem List.mem_cons_self rfl

/-- The outcome of a formula that returns a quoted text. -/
structure Denotes (options : Options) (env : Environment) (s : String) : Prop where
  environment : (calculate options (literalText s) env).environment = env
  text_iff : (calculate options (literalText s) env).record.code = 0 ∧
      (calculate options (literalText s) env).record.result = some (.text s) ↔
    ';' ∉ s.toList ∧ AllBound options env (requiredNames (quoted s))
  /-- without a semicolon only an unbound name is an error -/
  unbound : ';' ∉ s.toList → ¬ AllBound options env (requiredNames (quoted s)) →
    ∃ name ∈ requiredNames (quoted s), (calculate options (literalText s) env).record =
      .failure (literalText s) env (.unresolvedVariable name 1)
  /-- what a semicolon leaves of the text is not closed -/
  divided : ';' ∈ s.toList → ∃ e : Error,
    ((∃ name, e = .unresolvedVariable name 1) ∨
      e = .malformed 1 "Parse error: unterminated string") ∧
    (calculate options (literalText s) env).record =
      .failure (calculate options (literalText s) env).record.formula env e

theorem denotes_of_undivided (hdepth : 1 ≤ options.maxDepth) {s : String}
    (hline : ∀ c ∈ s.toList, isLineBreak c = false) (hs : ';' ∉ s.toList) :
    Denotes options env s := by
  have hcanonical := canonical_quoted hline hs
  rw [← toList_literalText] at hcanonical
  have hkept := keptStatements_of_canonical hcanonical
  have hsource : String.ofList (sourceOf (literalText s).toList) = literalText s := by
    rw [sourceOf_eq_join, hkept, joinStatements, List.intercalate_singleton, String.ofList_toList]
  have heffect := effect_quoted hdepth env s
  rw [← toList_literalText] at heffect
  cases hcheck : checkBound ⟨env, options.stripDots⟩ (requiredNames (quoted s)) with
  | ok =>
    rw [hcheck] at heffect
    have hbound := checkBound_eq_ok_iff.1 hcheck
    obtain ⟨henv, hrecord⟩ :=
      calculate_first (isBlankText_literalText s) hkept (run_cons_returns 1 [] heffect)
    refine ⟨henv, ?_, fun _ hnot => absurd hbound hnot, fun hmem => absurd hmem hs⟩
    rw [hrecord]
    exact iff_of_true ⟨rfl, rfl⟩ ⟨hs, hbound⟩
  | error e =>
    rw [hcheck] at heffect
    obtain ⟨name, hname, hresolve, rfl⟩ := checkBound_eq_error hcheck
    have hunbound : ¬ AllBound options env (requiredNames (quoted s)) := by
      intro hbound
      obtain ⟨v, hv⟩ := hbound name hname
      cases hv.symm.trans hresolve
    obtain ⟨henv, hrecord⟩ :=
      calculate_first (isBlankText_literalText s) hkept (run_cons_error 1 [] heffect)
    rw [hsource] at hrecord
    refine ⟨henv, ?_, fun _ _ => ⟨name, hname, hrecord⟩, fun hmem => absurd hmem hs⟩
    rw [hrecord]
    exact iff_of_false (fun h => code_ne_zero (.unresolvedVariable name 1) h.1)
      fun h => hunbound h.2

theorem denotes_of_divided (hdepth : 1 ≤ options.maxDepth) {s : String}
    (hline : ∀ c ∈ s.toList, isLineBreak c = false) (hs : ';' ∈ s.toList) :
    Denotes options env s := by
  obtain ⟨cs, rest, hkept⟩ := keptStatements_divided hline hs
  have hfails : ∃ e : Error, effect options env ('=' :: opened cs) = .error e ∧
      ((∃ name, e.atLine 1 = .unresolvedVariable name 1) ∨
        e.atLine 1 = .malformed 1 "Parse error: unterminated string") := by
    rw [effect_opened hdepth]
    cases hcheck : checkBound ⟨env, options.stripDots⟩ (requiredNames (opened cs)) with
    | ok => exact ⟨_, rfl, .inr rfl⟩
    | error e =>
      obtain ⟨name, -, -, rfl⟩ := checkBound_eq_error hcheck
      exact ⟨_, rfl, .inl ⟨name, rfl⟩⟩
  obtain ⟨e, heffect, hreported⟩ := hfails
  obtain ⟨henv, hrecord⟩ :=
    calculate_first (isBlankText_literalText s) hkept (run_cons_error 1 rest heffect)
  refine ⟨henv, ?_, fun hmem => absurd hs hmem, fun _ => ⟨e.atLine 1, hreported, ?_⟩⟩
  · rw [hrecord]
    exact iff_of_false (fun h => code_ne_zero (e.atLine 1) h.1) fun h => h.1 hs
  · rw [hrecord]
    rfl

/-- **A formula that returns a quoted text has it as its result** iff no
    semicolon divides it and what stands in its braces is bound. -/
theorem literal_denotes (hdepth : 1 ≤ options.maxDepth) {s : String}
    (hline : ∀ c ∈ s.toList, isLineBreak c = false) (env : Environment) :
    Denotes options env s := by
  by_cases hs : ';' ∈ s.toList
  · exact denotes_of_divided hdepth hline hs
  · exact denotes_of_undivided hdepth hline hs

/-- A text with quotes, a backslash, and a bound name in braces. -/
theorem literal_denotes_escaped :
    1 ≤ ({} : Options).maxDepth ∧
      (∀ c ∈ "5\" \\ \x7bA\x7d // ^".toList, isLineBreak c = false) ∧
      literalText "5\" \\ \x7bA\x7d // ^" = "=\"5\\\" \\\\ \x7bA\x7d // ^\"" ∧
      (calculate {} (literalText "5\" \\ \x7bA\x7d // ^")
        (.ofList [("A", .boolean true)])).record.result = some (.text "5\" \\ \x7bA\x7d // ^") := by
  have hdepth : 1 ≤ ({} : Options).maxDepth := by decide
  have hline : ∀ c ∈ "5\" \\ \x7bA\x7d // ^".toList, isLineBreak c = false := by
    simp [isLineBreak]
  have hbound : AllBound {} (.ofList [("A", .boolean true)])
      (requiredNames (quoted "5\" \\ \x7bA\x7d // ^")) := by
    have hnames : requiredNames (quoted "5\" \\ \x7bA\x7d // ^") = ["A"] := by decide +kernel
    rw [hnames, AllBound, List.forall_mem_singleton]
    exact ⟨.boolean true, by decide +kernel⟩
  exact ⟨hdepth, hline, by decide +kernel,
    ((literal_denotes hdepth hline _).text_iff.2 ⟨by decide, hbound⟩).2⟩

/-- A semicolon alone is not denoted, nor is a name in braces that is not bound. -/
theorem semicolon_not_denoted :
    (calculate {} (literalText ";") .empty).record.code = 4 ∧
      (calculate {} (literalText "\x7bX\x7d") .empty).record.code = 2 := by
  exact ⟨by decide +kernel, by decide +kernel⟩

end ProductFormula
