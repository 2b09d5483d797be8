/-
  Hints of a formula and of what is run of it.

  A failed calculation counts the brackets of the text that was run, the command
  `check` those of the formula as it was given.  Trimming and joining lines take
  no brackets away, so the two differ by the statements that are dropped as
  comments (`count_sourceOf`).  A hint tells its pair and both numbers
  (`BracketPair.imbalance_inj`), and lines tell their texts
  (`CommandLine.lines_injective`), so what is printed tells which hints there
  are.

  * `CommandLine.printCheck_eq_report_iff`: the command prints the hints of the
    record iff the dropped statements leave each of them as it is.
-/
import ProductFormula.CommandLine.Command
import ProductFormula.Proofs.Calculation.Records
import ProductFormula.Proofs.Grammar.Brackets

namespace ProductFormula

open Text

/-! ## Dropped statements -/

/-- The statements of a formula that are dropped, one behind the other. -/
def droppedText (formula : List Char) : List Char :=
  ((statements (normalize formula)).filter isComment).flatten

/-- Normalizing keeps the character: it stands neither around statements nor
    between them. -/
structure Kept (c : Char) : Prop where
  notBlank : isBlank c = false
  notDivider : c ≠ ';'

theorem kept_of_mem_all {pair : BracketPair} (h : pair ∈ BracketPair.all) :
    Kept pair.opening ∧ Kept pair.closing := by
  have hall : ∀ pair ∈ BracketPair.all, (isBlank pair.opening = false ∧ pair.opening ≠ ';') ∧
      isBlank pair.closing = false ∧ pair.closing ≠ ';' := by decide
  obtain ⟨⟨hopening, hopening'⟩, hclosing, hclosing'⟩ := hall pair h
  exact ⟨⟨hopening, hopening'⟩, ⟨hclosing, hclosing'⟩⟩

section

variable {c : Char} (h : Kept c)
include h

theorem count_trim (cs : List Char) : (trim cs).count c = cs.count c := by
  obtain ⟨front, back, hcs, hfront, hback⟩ := exists_eq_append_trim cs
  have hnone {blanks : List Char} (hblanks : ∀ c ∈ blanks, isBlank c) : blanks.count c = 0 := by
    refine List.count_eq_zero.2 fun hc => ?_
    have hblank := hblanks c hc
    rw [h.notBlank] at hblank
    cases hblank
  have hcount := congrArg (List.count c) hcs
  rw [List.count_append, List.count_append, hnone hfront, hnone hback] at hcount
  omega

theorem count_joinStatements (ss : List (List Char)) :
    (joinStatements ss).count c = ss.flatten.count c := by
  induction ss with
  | nil => rfl
  | cons s ss ih =>
    rw [joinStatements] at ih ⊢
    by_cases hne : ss = []
    · subst hne
      simp
    · rw [List.intercalate_cons_of_ne_nil hne, List.count_append, List.count_append, ih,
        List.count_singleton, if_neg (by simpa using h.notDivider.symm), List.flatten_cons,
        List.count_append, Nat.add_zero]

/-- Normalizing takes nothing but blanks away. -/
theorem count_normalize (text : List Char) : (normalize text).count c = text.count c := by
  have hline : isLineBreak c = false := isLineBreak_of_isBlank h.notBlank
  have hmap : ((statements (trim text)).map trim).map (List.count c) =
      (statements (trim text)).map (List.count c) := by
    rw [List.map_map]
    exact List.map_congr_left fun s _ => count_trim h s
  rw [normalize, List.count_filter (by simp [hline]), count_joinStatements h, List.count_flatten,
    hmap, ← List.count_flatten, ← count_joinStatements h, joinStatements_statements, count_trim h]

/-- **What a formula has more than the text that is run stands in dropped
    statements.** -/
theorem count_sourceOf (formula : List Char) :
    formula.count c = (droppedText formula).count c + (sourceOf formula).count c := by
  have hparts := (List.filter_append_perm isComment (statements (normalize formula))).flatten
  have hcount := hparts.count_eq c
  rw [List.flatten_append, List.count_append, ← droppedText, ← keptStatements,
    ← count_joinStatements h, ← count_joinStatements h, ← sourceOf_eq_join,
    joinStatements_statements, count_normalize h] at hcount
  exact hcount.symm

end

/-! ## Hints apart -/

theorem not_mem_toDigits {c : Char} (h : c.isDigit = false) (n : Nat) : c ∉ Nat.toDigits 10 n := by
  intro hc
  rw [Numeral.isDigit_toDigits n c hc] at h
  cases h

theorem toDigits_inj {m n : Nat} (h : Nat.toDigits 10 m = Nat.toDigits 10 n) : m = n := by
  calc
    m = Nat.ofDigitChars 10 (Nat.toDigits 10 m) 0 := Nat.ofDigitChars_ten_toDigits.symm
    _ = Nat.ofDigitChars 10 (Nat.toDigits 10 n) 0 := by rw [h]
    _ = n := Nat.ofDigitChars_ten_toDigits

namespace BracketPair

variable {pair pair' : BracketPair}

theorem toList_imbalance (pair : BracketPair) (opened closed : Nat) :
    (pair.imbalance opened closed).toList = "Unbalanced ".toList ++ (pair.label.toList ++
      ([':', ' '] ++ (Nat.toDigits 10 opened ++ ([' ', '\''] ++ ([pair.opening] ++
        ("' opened, ".toList ++ (Nat.toDigits 10 closed ++ ([' ', '\''] ++ ([pair.closing] ++
          "' closed".toList))))))))) := by
  have hcolon : ": ".toList = [':', ' '] := rfl
  have hquote : " '".toList = [' ', '\''] := rfl
  unfold imbalance
  rw [← hcolon, ← hquote]
  simp only [String.toList_append, Nat.toString_eq_ofList_toDigits, String.toList_ofList,
    String.toList_singleton, List.append_assoc]

/-- **A hint tells its pair, and the brackets that were counted.** -/
theorem imbalance_inj (h : pair ∈ all) (h' : pair' ∈ all) {opened closed opened' closed' : Nat}
    (heq : pair.imbalance opened closed = pair'.imbalance opened' closed') :
    pair = pair' ∧ opened = opened' ∧ closed = closed' := by
  have hlabel : ∀ pair ∈ all, ':' ∉ pair.label.toList := by decide
  have hpairs : ∀ pair ∈ all, ∀ pair' ∈ all, pair.label.toList = pair'.label.toList →
      pair = pair' := by decide
  have hspace (n : Nat) := not_mem_toDigits (c := ' ') rfl n
  have hlist := congrArg String.toList heq
  rw [toList_imbalance, toList_imbalance, List.append_right_inj] at hlist
  obtain ⟨hlabels, hlist⟩ := append_cons_inj (hlabel pair h) (hlabel pair' h') hlist
  obtain rfl := hpairs pair h pair' h' hlabels
  obtain ⟨hopened, hlist⟩ := append_cons_inj (hspace _) (hspace _) hlist
  rw [List.append_right_inj, List.append_right_inj] at hlist
  obtain ⟨hclosed, -⟩ := append_cons_inj (hspace _) (hspace _) hlist
  exact ⟨rfl, toDigits_inj hopened, toDigits_inj hclosed⟩

/-- A hint is one line. -/
theorem imbalance_oneLine (h : pair ∈ all) (opened closed : Nat) :
    '\n' ∉ (pair.imbalance opened closed).toList := by
  have hpair : ∀ pair ∈ all, '\n' ∉ pair.label.toList ∧ '\n' ≠ pair.opening ∧
      '\n' ≠ pair.closing := by decide
  have hnumber (n : Nat) := not_mem_toDigits (c := '\n') rfl n
  rw [toList_imbalance]
  simp [hpair pair h, hnumber]

/-- Two texts give the same hint if the brackets are as many in both, or balance
    in both. -/
theorem hint?_eq_iff (h : pair ∈ all) {cs cs' : List Char} : pair.hint? cs = pair.hint? cs' ↔
    cs.count pair.opening = cs'.count pair.opening ∧
        cs.count pair.closing = cs'.count pair.closing ∨
      cs.count pair.opening = cs.count pair.closing ∧
        cs'.count pair.opening = cs'.count pair.closing := by
  unfold hint?
  dsimp only
  split
  next heq =>
    split
    next heq' => exact iff_of_true rfl (.inr ⟨heq, heq'⟩)
    next hne' => exact iff_of_false nofun (by omega)
  next hne =>
    split
    next heq' => exact iff_of_false nofun (by omega)
    next hne' =>
      rw [Option.some_inj]
      constructor
      · intro himbalance
        exact .inl (imbalance_inj h h himbalance).2
      · rintro (⟨hopening, hclosing⟩ | ⟨heq, -⟩)
        · rw [hopening, hclosing]
        · exact absurd heq hne

theorem exists_imbalance_of_hint? {cs : List Char} {hint : String} (h : pair.hint? cs = some hint) :
    ∃ opened closed, hint = pair.imbalance opened closed := by
  unfold hint? at h
  dsimp only at h
  split at h <;> cases h
  exact ⟨_, _, rfl⟩

/-- A hint for a pair among the hints of a text is the hint of the pair. -/
theorem hint?_of_mem_bracketHints {text : String} (h : pair ∈ all) {opened closed : Nat}
    (hmem : pair.imbalance opened closed ∈ bracketHints text) :
    pair.hint? text.toList = some (pair.imbalance opened closed) := by
  obtain ⟨pair', h', hhint⟩ := List.mem_filterMap.1 hmem
  obtain ⟨opened', closed', himbalance⟩ := exists_imbalance_of_hint? hhint
  obtain ⟨rfl, -⟩ := imbalance_inj h h' himbalance
  exact hhint

end BracketPair

theorem bracketHints_eq_iff {text text' : String} : bracketHints text = bracketHints text' ↔
    ∀ pair ∈ BracketPair.all, pair.hint? text.toList = pair.hint? text'.toList := by
  constructor
  · intro heq pair hpair
    refine Option.ext fun hint => ⟨fun hhint => ?_, fun hhint => ?_⟩
    · have hmem : hint ∈ bracketHints text := List.mem_filterMap.2 ⟨pair, hpair, hhint⟩
      obtain ⟨opened, closed, rfl⟩ := BracketPair.exists_imbalance_of_hint? hhint
      exact BracketPair.hint?_of_mem_bracketHints hpair (heq ▸ hmem)
    · have hmem : hint ∈ bracketHints text' := List.mem_filterMap.2 ⟨pair, hpair, hhint⟩
      obtain ⟨opened, closed, rfl⟩ := BracketPair.exists_imbalance_of_hint? hhint
      exact BracketPair.hint?_of_mem_bracketHints hpair (heq ▸ hmem)
  · exact fun h => List.filterMap_congr h

/-- The statements that are dropped leave the hint for the pair as it is: they
    hold none of its brackets, or hold as many of both kinds where what is run
    does so too. -/
def LeavesHint (formula : List Char) (pair : BracketPair) : Prop :=
  (droppedText formula).count pair.opening = (droppedText formula).count pair.closing ∧
    ((droppedText formula).count pair.opening = 0 ∨
      (sourceOf formula).count pair.opening = (sourceOf formula).count pair.closing)

instance (formula : List Char) (pair : BracketPair) : Decidable (LeavesHint formula pair) :=
  inferInstanceAs (Decidable (_ ∧ _))

/-- **The hints of a formula are those of the text that is run** iff what is
    dropped leaves them all. -/
theorem bracketHints_sourceOf_iff {formula : String} :
    bracketHints formula = bracketHints (.ofList (sourceOf formula.toList)) ↔
      ∀ pair ∈ BracketPair.all, LeavesHint formula.toList pair := by
  rw [bracketHints_eq_iff]
  refine forall₂_congr fun pair hpair => ?_
  obtain ⟨hopening, hclosing⟩ := kept_of_mem_all hpair
  rw [BracketPair.hint?_eq_iff hpair, String.toList_ofList, count_sourceOf hopening,
    count_sourceOf hclosing, LeavesHint]
  omega

namespace CommandLine

/-! ## What is printed -/

theorem toList_lines (texts : List String) :
    (lines texts).toList = texts.flatMap fun text => text.toList ++ ['\n'] := by
  simp [lines, String.toList_join, List.flatMap_map]

/-- **Lines tell the texts that are printed on them.** -/
theorem lines_injective {texts texts' : List String} (h : ∀ text ∈ texts, '\n' ∉ text.toList)
    (h' : ∀ text ∈ texts', '\n' ∉ text.toList) (heq : lines texts = lines texts') :
    texts = texts' := by
  have hlist := congrArg String.toList heq
  rw [toList_lines, toList_lines] at hlist
  clear heq
  induction texts generalizing texts' with
  | nil =>
    cases texts' with
    | nil => rfl
    | cons text' texts' => simp at hlist
  | cons text texts ih =>
    cases texts' with
    | nil => simp at hlist
    | cons text' texts' =>
      obtain ⟨htext, htexts⟩ := List.forall_mem_cons.1 h
      obtain ⟨htext', htexts'⟩ := List.forall_mem_cons.1 h'
      rw [List.flatMap_cons, List.flatMap_cons, List.append_assoc, List.append_assoc] at hlist
      obtain ⟨hfront, hrest⟩ := append_cons_inj htext htext' hlist
      rw [String.toList_inj.1 hfront, ih htexts htexts' hrest]

/-- What is printed for these hints. -/
def report : List String → Printed
  | [] => ⟨0, lines ["ok"]⟩
  | hints => ⟨failureStatus, lines hints⟩

theorem printCheck_eq_report (formula : String) :
    printCheck formula = report (bracketHints formula) := by
  unfold printCheck
  cases bracketHints formula <;> rfl

theorem oneLine_bracketHints (text : String) : ∀ hint ∈ bracketHints text, '\n' ∉ hint.toList := by
  intro hint hmem
  obtain ⟨pair, hpair, hhint⟩ := List.mem_filterMap.1 hmem
  obtain ⟨opened, closed, rfl⟩ := BracketPair.exists_imbalance_of_hint? hhint
  exact BracketPair.imbalance_oneLine hpair opened closed

/-- The status tells whether there are hints, and the lines tell them. -/
theorem report_bracketHints_inj {text text' : String}
    (h : report (bracketHints text) = report (bracketHints text')) :
    bracketHints text = bracketHints text' := by
  have hline := oneLine_bracketHints text
  have hline' := oneLine_bracketHints text'
  generalize bracketHints text = hints at h hline ⊢
  generalize bracketHints text' = hints' at h hline' ⊢
  cases hints with
  | nil =>
    cases hints' with
    | nil => rfl
    | cons => cases congrArg Printed.status h
  | cons =>
    cases hints' with
    | nil => cases congrArg Printed.status h
    | cons => exact lines_injective hline hline' (congrArg Printed.text h)

/-! ## The record and the command -/

variable {options : Options} {formula : String} {env : Environment}

/-- A failed calculation has the hints of the text that was run, which is empty
    if the formula is blank. -/
theorem hints_of_failed (h : (calculate options formula env).record.isOk = false) :
    (calculate options formula env).record.hints =
      some (bracketHints (.ofList (sourceOf formula.toList))) := by
  cases hblank : isBlankText formula.toList with
  | true =>
    have htrim : trim formula.toList = [] := eq_of_beq hblank
    have hsource : sourceOf formula.toList = [] := by
      rw [sourceOf, normalize, htrim]
      rfl
    rw [calculate, if_pos hblank, hsource]
    rfl
  | false =>
    have hrecord := (calculate_eq_run options env hblank).2
    unfold recordOf at hrecord
    split at hrecord
    · rw [hrecord] at h
      cases h
    · rw [hrecord]
      rfl

/-- **The command `check` prints the hints of a failed record** iff what is
    dropped from the formula leaves them all. -/
theorem printCheck_eq_report_iff (h : (calculate options formula env).record.isOk = false) :
    ∃ hints, (calculate options formula env).record.hints = some hints ∧
      (printCheck formula = report hints ↔
        ∀ pair ∈ BracketPair.all, LeavesHint formula.toList pair) := by
  refine ⟨_, hints_of_failed h, ?_⟩
  rw [← bracketHints_sourceOf_iff, printCheck_eq_report]
  exact ⟨report_bracketHints_inj, congrArg report⟩

/-- A comment without braces, and with parentheses that balance, as those behind
    it do. -/
theorem printCheck_comment_balanced :
    (calculate {} "// (a) ;=(1)-\x7bX" .empty).record.isOk = false ∧
      ∃ hints, (calculate {} "// (a) ;=(1)-\x7bX" .empty).record.hints = some hints ∧
        printCheck "// (a) ;=(1)-\x7bX" = report hints := by
  have hfailed : (calculate {} "// (a) ;=(1)-\x7bX" .empty).record.isOk = false := by
    decide +kernel
  obtain ⟨hints, hhints, hprinted⟩ := printCheck_eq_report_iff hfailed
  exact ⟨hfailed, hints, hhints, hprinted.2 (by decide +kernel)⟩

/-- The command misses the partner of a parenthesis in a comment, which the
    record has no hint about. -/
theorem printCheck_comment_unbalanced :
    (calculate {} "//(;=\x7bX\x7d" .empty).record.isOk = false ∧
      (calculate {} "//(;=\x7bX\x7d" .empty).record.hints = some [] ∧
      report [] = ⟨0, "ok\n"⟩ ∧
      printCheck "//(;=\x7bX\x7d" =
        ⟨2, "Unbalanced parentheses: 1 '(' opened, 0 ')' closed\n"⟩ := by
  decide +kernel

end CommandLine

end ProductFormula
