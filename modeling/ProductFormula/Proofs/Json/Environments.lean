/-
  Environments in JSON, read back.

  Whatever the layout, an object is read member by member as it is written
  (`members?_items`): blanks between the words are passed over, and names,
  texts and booleans come back as they were.  So an environment is read as the
  environment with what its numbers are read as (`environment?_ofEnvironment`),
  and a number that is not finite, being written as `null`, is none.

  * `environment_readBack`: an environment comes back as it was, or is refused.
-/
import ProductFormula.Proofs.Json.Numbers
import ProductFormula.Proofs.Json.Strings
import ProductFormula.Proofs.Separated

namespace ProductFormula

/-! ## Bindings in order -/

/-- A name behind all others is written at the end. -/
theorem insertBinding_last {name : String} {value : Value} {bindings : List Binding}
    (h : ∀ b ∈ bindings, b.1 < name) :
    insertBinding name value bindings = bindings ++ [(name, value)] := by
  induction bindings with
  | nil => rfl
  | cons b bindings ih =>
    obtain ⟨hb, hrest⟩ := List.forall_mem_cons.1 h
    have hbefore : ¬ name < b.1 := String.lt_asymm hb
    have hdiffers : name ≠ b.1 := fun hname => String.lt_irrefl name (hname ▸ hb)
    rw [insertBinding, if_neg hbefore, if_neg hdiffers, ih hrest]
    rfl

namespace Environment

theorem setAll_bindings {env : Environment} {bindings : List Binding}
    (h : (env.bindings ++ bindings).Pairwise fun a b => a.1 < b.1) :
    (env.setAll bindings).bindings = env.bindings ++ bindings := by
  induction bindings generalizing env with
  | nil => exact (List.append_nil _).symm
  | cons b bindings ih =>
    have hbefore : ∀ a ∈ env.bindings, a.1 < b.1 := by
      intro a ha
      exact (List.pairwise_append.1 h).2.2 a ha b List.mem_cons_self
    have hset : (env.set b.1 b.2).bindings = env.bindings ++ [b] := insertBinding_last hbefore
    have hsplit : env.bindings ++ b :: bindings = (env.set b.1 b.2).bindings ++ bindings := by
      rw [hset, List.append_assoc, List.singleton_append]
    rw [hsplit] at h ⊢
    exact ih h

/-- **An environment is that of its bindings.** -/
theorem ofList_bindings (env : Environment) : ofList env.bindings = env := by
  obtain ⟨bindings, sorted⟩ := env
  have hall := @setAll_bindings empty bindings sorted
  rw [ofList]
  generalize empty.setAll bindings = filled at hall
  cases filled
  cases hall
  rfl

end Environment

namespace Json

open Numeral

variable {layout : Layout} {front start rest : List Char}

/-! ## Blanks -/

theorem cases_of_isBlank {c : Char} (h : isBlank c) :
    c = ' ' ∨ c = '\t' ∨ c = '\n' ∨ c = '\r' := by
  simpa [isBlank, or_assoc] using h

theorem skipBlanks_append (hfront : ∀ c ∈ front, isBlank c) {first : Char}
    (hfirst : isBlank first = false) (rest : List Char) :
    skipBlanks (front ++ first :: rest) = first :: rest := by
  rw [skipBlanks, List.dropWhile_append_of_pos hfront,
    List.dropWhile_cons_of_neg (by simp [hfirst])]

theorem isBlank_lineBreak (layout : Layout) (level : Nat) :
    ∀ c ∈ layout.lineBreak level, isBlank c := by
  intro c hc
  cases layout with
  | compact => cases hc
  | indented =>
    rcases List.mem_cons.1 hc with rfl | hc
    · rfl
    · rw [List.eq_of_mem_replicate hc]
      rfl

/-- Blanks end a number. -/
theorem ends_blanks (hfront : ∀ c ∈ front, isBlank c) (hrest : Numeral.Ends rest) :
    Numeral.Ends (front ++ rest) := by
  cases front with
  | nil => exact hrest
  | cons c front =>
    intro c' hc
    cases hc
    have hblank := hfront c List.mem_cons_self
    rcases cases_of_isBlank hblank with rfl | rfl | rfl | rfl <;> decide

/-! ## Values -/

/-- What a value is read as, once it is written. -/
def readBackValue? : Value → Option Value
  | .number n => (readBack? n).map .number
  | v => some v

/-- No text, no boolean and no blank starts with the character. -/
structure StartsNumber (first : Char) : Prop where
  notQuote : first ≠ '"'
  notTrue : first ≠ 't'
  notFalse : first ≠ 'f'
  notBlank : isBlank first = false

theorem startsNumber_digit {first : Char} (h : first.isDigit) : StartsNumber first where
  notQuote := by
    rintro rfl
    cases h
  notTrue := by
    rintro rfl
    cases h
  notFalse := by
    rintro rfl
    cases h
  notBlank := by
    rw [← Bool.not_eq_true]
    intro hblank
    rcases cases_of_isBlank hblank with rfl | rfl | rfl | rfl <;> cases h

theorem exists_head_numberChars (n : Number) :
    ∃ first tail, numberChars n = first :: tail ∧ StartsNumber first := by
  have hnull : StartsNumber 'n' := by constructor <;> decide
  have hsign : StartsNumber '-' := by constructor <;> decide
  cases n with
  | nan => exact ⟨'n', _, rfl, hnull⟩
  | infinite => exact ⟨'n', _, rfl, hnull⟩
  | finite negative units h =>
    cases negative with
    | true => exact ⟨'-', _, rfl, hsign⟩
    | false =>
      obtain ⟨n, hn, -, -⟩ := Number.exists_numeral_magnitudeText numberStyle h
      obtain ⟨first, more, hwhole⟩ := List.exists_cons_of_ne_nil n.whole_ne_nil
      have hdigit := n.isDigit_whole first (by rw [hwhole]; exact List.mem_cons_self)
      refine ⟨first, more ++ (pointChars n.fraction ++ markChars n.exponent), ?_,
        startsNumber_digit hdigit⟩
      show Number.magnitudeText numberStyle units = _
      rw [hn, chars, hwhole, List.cons_append]

theorem value?_number {first : Char} (h : StartsNumber first) (cs : List Char) :
    value? (first :: cs) = (number? (first :: cs)).map fun (n, left) => (.number n, left) := by
  rw [value?]
  · intro _ heq
    exact h.notQuote (List.cons.inj heq).1
  · intro _ heq
    exact h.notTrue (List.cons.inj heq).1
  · intro _ heq
    exact h.notFalse (List.cons.inj heq).1

/-- **A value is read up to what follows it.** -/
theorem value?_valueChars (v : Value) (hrest : Numeral.Ends rest) :
    value? (valueChars v ++ rest) = (readBackValue? v).map fun w => (w, rest) := by
  cases v with
  | text s =>
    obtain ⟨tail, hquoted, hcontent⟩ := stringContent?_quoted s rest
    rw [valueChars, hquoted, value?, hcontent]
    simp [readBackValue?]
  | boolean b => cases b <;> rfl
  | number n =>
    have hread := number?_numberChars n hrest
    obtain ⟨first, tail, hchars, hfirst⟩ := exists_head_numberChars n
    rw [hchars, List.cons_append] at hread
    rw [valueChars, readBackValue?, hchars, List.cons_append, value?_number hfirst, hread]
    cases readBack? n <;> rfl

/-- No value starts with a blank. -/
theorem exists_head_valueChars (v : Value) :
    ∃ first tail, valueChars v = first :: tail ∧ isBlank first = false := by
  cases v with
  | text s => exact ⟨'"', _, rfl, rfl⟩
  | boolean b => cases b <;> exact ⟨_, _, rfl, rfl⟩
  | number n =>
    obtain ⟨first, tail, hchars, hfirst⟩ := exists_head_numberChars n
    exact ⟨first, tail, hchars, hfirst.notBlank⟩

/-! ## Members -/

/-- A binding with what its value is read as. -/
def readBackBinding? (b : Binding) : Option Binding :=
  (readBackValue? b.2).map fun w => (b.1, w)

/-- A binding as a member of an object. -/
def bindingChars (layout : Layout) (b : Binding) : List Char :=
  member layout b.1 (valueChars b.2)

/-- **A member is read up to what follows it**, blanks apart. -/
theorem member?_bindingChars (layout : Layout) (b : Binding) (hfront : ∀ c ∈ front, isBlank c)
    (hrest : Numeral.Ends rest) : member? (front ++ (bindingChars layout b ++ rest)) =
      (readBackBinding? b).map fun b' => (b', skipBlanks rest) := by
  obtain ⟨first, more, hvalue, hfirst⟩ := exists_head_valueChars b.2
  have hvalues := value?_valueChars b.2 hrest
  have hcolon : ∃ gap, layout.colon = ':' :: gap ∧ ∀ c ∈ gap, isBlank c := by
    cases layout with
    | compact => exact ⟨[], rfl, by simp⟩
    | indented => exact ⟨[' '], rfl, by simp [isBlank]⟩
  obtain ⟨gap, hgap, hblanks⟩ := hcolon
  obtain ⟨tail, hquoted, hcontent⟩ :=
    stringContent?_quoted b.1 (':' :: (gap ++ (valueChars b.2 ++ rest)))
  have htext : bindingChars layout b ++ rest = '"' :: tail := by
    rw [← hquoted, bindingChars, member, hgap]
    simp
  have hname : skipBlanks (front ++ '"' :: tail) = '"' :: tail :=
    skipBlanks_append hfront rfl tail
  have hsign : skipBlanks (':' :: (gap ++ (valueChars b.2 ++ rest))) =
      ':' :: (gap ++ (valueChars b.2 ++ rest)) := rfl
  have hskip : skipBlanks (gap ++ (valueChars b.2 ++ rest)) = valueChars b.2 ++ rest := by
    rw [hvalue, List.cons_append]
    exact skipBlanks_append hblanks hfirst _
  rw [htext, member?, hname]
  simp only [hcontent, hsign, hskip, hvalues, readBackBinding?, Option.bind_eq_bind,
    Option.bind_some, String.ofList_toList]
  cases readBackValue? b.2 <;> rfl

/-! ## Objects -/

theorem ends_cons {c : Char} (h : c = ',' ∨ c = '\x7d') (cs : List Char) :
    Numeral.Ends (c :: cs) := by
  intro c' hc
  cases hc
  rcases h with rfl | rfl <;> decide

/-- **The members of an object are read one by one**, up to the closing brace. -/
theorem members?_bindings (layout : Layout) {bs : List Binding} (hne : bs ≠ []) {bound : Nat}
    (hbound : bs.length ≤ bound) {stop : List Char} (hfront : ∀ c ∈ front, isBlank c)
    (hstart : ∀ c ∈ start, isBlank c) (hstop : ∀ c ∈ stop, isBlank c) (rest : List Char) :
    members? bound (front ++ ((',' :: start).intercalate (bs.map (bindingChars layout)) ++
        (stop ++ '\x7d' :: rest))) =
      (bs.mapM readBackBinding?).map fun bs' => (bs', rest) := by
  induction bs generalizing bound front with
  | nil => exact absurd rfl hne
  | cons b bs ih =>
    obtain ⟨bound, rfl⟩ : ∃ below, bound = below + 1 := ⟨bound - 1, by
      rw [List.length_cons] at hbound
      omega⟩
    by_cases hnil : bs = []
    · subst hnil
      have hmember := member?_bindingChars layout b hfront
        (ends_blanks hstop (ends_cons (.inr rfl) rest))
      have hskip : skipBlanks (stop ++ '\x7d' :: rest) = '\x7d' :: rest :=
        skipBlanks_append hstop rfl rest
      rw [hskip] at hmember
      rw [List.map_singleton, List.intercalate_singleton, members?, hmember, List.mapM_cons,
        List.mapM_nil]
      cases readBackBinding? b <;> rfl
    · have hmap : bs.map (bindingChars layout) ≠ [] := by simpa using hnil
      have hmember := member?_bindingChars layout b hfront
        (ends_cons (.inl rfl) (start ++ ((',' :: start).intercalate
          (bs.map (bindingChars layout)) ++ (stop ++ '\x7d' :: rest))))
      have hothers := ih hnil (Nat.le_of_succ_le_succ hbound) hstart
      have htext : front ++ ((',' :: start).intercalate ((b :: bs).map (bindingChars layout)) ++
          (stop ++ '\x7d' :: rest)) =
          front ++ (bindingChars layout b ++ ',' :: (start ++ ((',' :: start).intercalate
            (bs.map (bindingChars layout)) ++ (stop ++ '\x7d' :: rest)))) := by
        rw [List.map_cons, List.intercalate_cons_of_ne_nil hmap]
        simp
      have hskip (cs : List Char) : skipBlanks (',' :: cs) = ',' :: cs := rfl
      rw [hskip] at hmember
      rw [htext, members?, hmember, List.mapM_cons]
      cases readBackBinding? b with
      | none => rfl
      | some b' =>
        simp only [Option.map_some, Option.bind_eq_bind, Option.bind_some, hothers]
        cases bs.mapM readBackBinding? <;> rfl

/-- The members start with the name of the first one. -/
theorem exists_head_bindings (layout : Layout) (start : List Char) {bs : List Binding}
    (hne : bs ≠ []) : ∃ tail,
    (',' :: start).intercalate (bs.map (bindingChars layout)) = '"' :: tail := by
  obtain ⟨b, bs, rfl⟩ := List.exists_cons_of_ne_nil hne
  have hfirst : ∃ tail, bindingChars layout b = '"' :: tail := ⟨_, rfl⟩
  obtain ⟨tail, htail⟩ := hfirst
  by_cases hnil : bs = []
  · subst hnil
    exact ⟨tail, by rw [List.map_singleton, List.intercalate_singleton, htail]⟩
  · have hmap : bs.map (bindingChars layout) ≠ [] := by simpa using hnil
    rw [List.map_cons, List.intercalate_cons_of_ne_nil hmap, htail]
    exact ⟨_, rfl⟩

/-- **An object is read as its members**, if there are any. -/
theorem bindings?_block (layout : Layout) {bs : List Binding} (hne : bs ≠ []) {stop : List Char}
    (hstart : ∀ c ∈ start, isBlank c) (hstop : ∀ c ∈ stop, isBlank c) :
    bindings? ('\x7b' :: (start ++ ((',' :: start).intercalate (bs.map (bindingChars layout)) ++
        (stop ++ ['\x7d'])))) =
      (bs.mapM readBackBinding?).map fun bs' => (bs', []) := by
  obtain ⟨tail, htail⟩ := exists_head_bindings layout start hne
  have hlength : bs.length ≤ (tail ++ (stop ++ ['\x7d'])).length + 1 := by
    have hall : ∀ xs ∈ bs.map (bindingChars layout), xs ≠ [] := by
      intro xs hxs
      obtain ⟨b, -, rfl⟩ := List.mem_map.1 hxs
      exact List.cons_ne_nil _ _
    have hcount := length_le_intercalate_of_ne_nil (',' :: start) hall
    rw [List.length_map, htail, List.length_cons] at hcount
    rw [List.length_append]
    omega
  have hnone : ∀ c ∈ ([] : List Char), isBlank c := by simp
  have hmembers := members?_bindings layout hne hlength hnone hstart hstop []
  have hopening (cs : List Char) : skipBlanks ('\x7b' :: cs) = '\x7b' :: cs := rfl
  rw [htail, List.nil_append] at hmembers
  rw [htail, bindings?, hopening]
  simp only [List.cons_append, skipBlanks_append hstart (show isBlank '"' = false from rfl)]
  exact hmembers

/-- **An environment is read as it was, but for what its numbers are read as.** -/
theorem environment?_ofEnvironment (layout : Layout) (level : Nat) (env : Environment) :
    environment? (ofEnvironment layout level env) =
      (env.bindings.mapM readBackBinding?).map .ofList := by
  have hitems : env.bindings.map (fun b => member layout b.1 (valueChars b.2)) =
      env.bindings.map (bindingChars layout) := rfl
  rw [ofEnvironment, hitems, block]
  by_cases hnil : env.bindings = []
  · rw [hnil, List.map_nil, if_pos rfl]
    rfl
  · have hmap : env.bindings.map (bindingChars layout) ≠ [] := by simpa using hnil
    have hbindings := bindings?_block layout hnil (isBlank_lineBreak layout (level + 1))
      (isBlank_lineBreak layout level)
    rw [if_neg hmap]
    simp only [List.cons_append, List.append_assoc, environment?, hbindings]
    cases env.bindings.mapM readBackBinding? <;> rfl

/-! ## Numbers of an environment -/

/-- The numbers that names stand for. -/
def numbers (env : Environment) : List Number :=
  env.bindings.filterMap fun b =>
    match b.2 with
    | .number n => some n
    | _ => none

theorem mem_numbers {env : Environment} {name : String} {n : Number}
    (h : (name, .number n) ∈ env.bindings) : n ∈ numbers env :=
  List.mem_filterMap.2 ⟨(name, .number n), h, rfl⟩

theorem exists_of_mem_numbers {env : Environment} {n : Number} (h : n ∈ numbers env) :
    ∃ name, (name, .number n) ∈ env.bindings := by
  obtain ⟨⟨name, v⟩, hb, hn⟩ := List.mem_filterMap.1 h
  cases v with
  | number m =>
    cases hn
    exact ⟨name, hb⟩
  | boolean | text => cases hn

def IsFinite (n : Number) : Prop := ∃ negative units h, n = .finite negative units h

theorem readBack?_eq_none {n : Number} (h : ¬ IsFinite n) : readBack? n = none := by
  cases n with
  | finite negative units representable => exact absurd ⟨negative, units, representable, rfl⟩ h
  | nan | infinite => rfl

variable {env : Environment}

/-- Bindings that come back one by one come back together. -/
theorem mapM_eq_self {bs : List Binding} (h : ∀ b ∈ bs, readBackBinding? b = some b) :
    bs.mapM readBackBinding? = some bs := by
  induction bs with
  | nil => rfl
  | cons b bs ih =>
    obtain ⟨hb, hrest⟩ := List.forall_mem_cons.1 h
    rw [List.mapM_cons, hb, ih hrest]
    rfl

/-- One binding that does not come back is missed. -/
theorem mapM_eq_none {bs : List Binding} {b : Binding} (hb : b ∈ bs)
    (h : readBackBinding? b = none) : bs.mapM readBackBinding? = none := by
  induction bs with
  | nil => cases hb
  | cons b' bs ih =>
    rw [List.mapM_cons]
    rcases List.mem_cons.1 hb with rfl | hb
    · rw [h]
      rfl
    · rw [ih hb]
      cases readBackBinding? b' <;> rfl

/-- **An environment is read back as it was if its numbers are finite**, provided
    that their decimals are read exactly, and refused if they are not. -/
theorem environment_readBack (layout : Layout) (level : Nat) :
    ((∀ n ∈ numbers env, IsFinite n) →
      (∀ negative units h, .finite negative units h ∈ numbers env → units ≠ 0 →
        readBack? (.finite false units h) = some (.finite false units h)) →
      environment? (ofEnvironment layout level env) = some env) ∧
    ((∃ n ∈ numbers env, ¬ IsFinite n) →
      environment? (ofEnvironment layout level env) = none) := by
  rw [environment?_ofEnvironment]
  constructor
  · intro hfinite hexact
    have hnumber {name : String} {n : Number} (hb : (name, .number n) ∈ env.bindings) :
        readBack? n = some n := by
      have hmem := mem_numbers hb
      obtain ⟨negative, units, h, rfl⟩ := hfinite n hmem
      by_cases hzero : units = 0
      · subst hzero
        exact readBack?_zero negative
      · exact readBack?_signed (hexact negative units h hmem hzero) negative
    have hall : ∀ b ∈ env.bindings, readBackBinding? b = some b := by
      rintro ⟨name, v⟩ hb
      cases v with
      | number n =>
        rw [readBackBinding?, readBackValue?, hnumber hb]
        rfl
      | boolean | text => rfl
    rw [mapM_eq_self hall, Option.map_some, Environment.ofList_bindings]
  · rintro ⟨n, hn, hinfinite⟩
    obtain ⟨name, hb⟩ := exists_of_mem_numbers hn
    have hnone : readBackBinding? (name, .number n) = none := by
      rw [readBackBinding?, readBackValue?, readBack?_eq_none hinfinite]
      rfl
    rw [mapM_eq_none hb hnone]
    rfl

/-- `2.5` in steps. -/
theorem representable_half : Representable (5 * Nat.pow 2 1073) := by decide +kernel

/-- A negative zero, `-2.5`, a boolean, and a text that looks like none come
    back; NaN does not. -/
theorem environment_readBack_mixed :
    (∃ env : Environment,
      env = .ofList [("\"\n", .text "null"), ("T", .boolean true), ("Z", .number (.zero true)),
        ("ß", .number (.finite true (5 * Nat.pow 2 1073) representable_half))] ∧
      (∀ negative units h, .finite negative units h ∈ numbers env → units ≠ 0 →
        readBack? (.finite false units h) = some (.finite false units h)) ∧
      (∀ n ∈ numbers env, IsFinite n) ∧
      environment? (ofEnvironment .indented 1 env) = some env) ∧
    environment? (ofEnvironment .compact 0 (.ofList [("N", .number .nan)])) = none := by
  constructor
  · let env : Environment := .ofList [("\"\n", .text "null"), ("T", .boolean true),
      ("Z", .number (.zero true)),
      ("ß", .number (.finite true (5 * Nat.pow 2 1073) representable_half))]
    have hnumbers : numbers env = [.zero true, .finite true (5 * Nat.pow 2 1073)
        representable_half] := by decide +kernel
    have hexact : ∀ negative units h, .finite negative units h ∈ numbers env → units ≠ 0 →
        readBack? (.finite false units h) = some (.finite false units h) := by
      intro negative units h hmem hne
      rw [hnumbers, List.mem_cons, List.mem_singleton] at hmem
      rcases hmem with hzero | hnumber
      · cases hzero
        exact absurd rfl hne
      · cases hnumber
        have hd : Decimal.ofChars? (Number.magnitudeText numberStyle (5 * Nat.pow 2 1073)) =
            some ⟨25, -1⟩ := by decide +kernel
        exact readBack?_of_short h hd (by decide) (by decide)
    have hfinite : ∀ n ∈ numbers env, IsFinite n := by
      intro n hn
      rw [hnumbers, List.mem_cons, List.mem_singleton] at hn
      rcases hn with rfl | rfl
      · exact ⟨_, _, _, rfl⟩
      · exact ⟨_, _, _, rfl⟩
    exact ⟨env, rfl, hexact, hfinite, (environment_readBack .indented 1).1 hfinite hexact⟩
  · have hnumbers : numbers (.ofList [("N", .number .nan)]) = [.nan] := by decide +kernel
    have hnan : ¬ IsFinite .nan := fun ⟨_, _, _, h⟩ => Number.noConfusion h
    exact (environment_readBack .compact 0).2 ⟨.nan, by simp [hnumbers], hnan⟩

end Json

end ProductFormula
