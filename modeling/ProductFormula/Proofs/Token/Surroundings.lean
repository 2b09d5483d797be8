/-
  What stands behind a token.

  Where a word ends is decided by the character behind it: a scanner that has
  left a rest takes the same characters in front of any other rest that starts
  with the same one, or with one that no word goes on with (`Replaces`,
  `Stable`).  Only superscripts and glyphs tell more of it, that they are calls.

  * `takesWords_scan`: a word is cut off alike in front of both rests;
  * `lex_append`: hence words stay as they are when a text is put behind them
    that starts with a blank, a comma or a closing parenthesis.
-/
import ProductFormula.Proofs.Printer.Lexing
import ProductFormula.Proofs.Text.Cut
import ProductFormula.Proofs.Text.Trim

namespace ProductFormula.Token

open Text

/-! ## Rests -/

/-- Characters that words go on with, or that make a call of the sign in front
    of them. -/
def continues (c : Char) : Bool := isNamePart c || "=(√&|+-".toList.contains c

/-- No word goes on with the start of this text. -/
def Parts (rest : List Char) : Prop := ∀ c ∈ rest.head?, continues c = false

/-- The second text can stand in the place of the first one behind a word. -/
def Replaces (rest rest' : List Char) : Prop := rest'.head? = rest.head? ∨ Parts rest'

variable {α β : Type} {c first : Char} {cs raw rest rest' : List Char} {t : Token}

theorem parts_cons (h : continues c = false) (cs : List Char) : Parts (c :: cs) := by
  intro c' hc
  cases hc
  exact h

theorem continues_of_isNamePart (h : isNamePart c) : continues c := by
  simp [continues, h]

theorem continues_of_isDigit (h : c.isDigit) : continues c :=
  continues_of_isNamePart (by simp [isNamePart, Char.isAlphanum, h])

theorem continues_of_isBlank (h : isBlank c) : continues c = false := by
  have hname : isNamePart c = false := by
    by_contra hpart
    rw [isBlank_of_isNamePart (by simpa using hpart)] at h
    cases h
  have hsigns : "=(√&|+-".toList.any isBlank = false := by decide +kernel
  have hcontains : c ∉ "=(√&|+-".toList := fun hmem => List.any_eq_false.1 hsigns c hmem h
  simpa [continues, hname] using hcontains

theorem Replaces.append (h : Replaces rest rest') (front : List Char) :
    Replaces (front ++ rest) (front ++ rest') := by
  cases front with
  | nil => exact h
  | cons => exact .inl rfl

/-- A test that fails in front of a rest fails in front of what replaces it. -/
theorem Replaces.fails (h : Replaces rest rest') {p : Char → Bool} (hp : ∀ c, p c → continues c)
    (hrest : ∀ c ∈ rest.head?, p c = false) : ∀ c ∈ rest'.head?, p c = false := by
  intro c hc
  rcases h with hhead | hparts
  · exact hrest c (hhead ▸ hc)
  · by_contra hcontinues
    have hfails := hparts c hc
    rw [hp c (by simpa using hcontinues)] at hfails
    cases hfails

theorem Replaces.ne_cons (h : Replaces rest rest') (hc : continues c)
    (hrest : ∀ more, rest ≠ c :: more) : ∀ more, rest' ≠ c :: more := by
  rintro more rfl
  rcases h with hsame | hparts
  · obtain ⟨more', hmore⟩ := List.head?_eq_some_iff.1 hsame.symm
    exact hrest more' hmore
  · rw [hparts c rfl] at hc
    cases hc

/-! ## Scanners of characters -/

/-- What the scanner takes in front of a rest it takes in front of any other
    that replaces it. -/
def Stable (f : List Char → α × List Char) : Prop :=
  ∀ raw rest rest' a, f (raw ++ rest) = (a, rest) → Replaces rest rest' →
    f (raw ++ rest') = (a, rest')

theorem stable_splitWhile {p : Char → Bool} (hp : ∀ c, p c → continues c) :
    Stable (splitWhile p) := by
  intro raw rest rest' a h hreplaces
  obtain rfl : a = raw := by
    have hwhole := splitWhile_append p (raw ++ rest)
    rw [h] at hwhole
    exact List.append_cancel_right hwhole
  obtain ⟨htake, hdrop⟩ := Prod.mk.inj h
  refine splitWhile_front (fun c hc => ?_) (hreplaces.fails hp fun c hc => ?_)
  · rw [← htake] at hc
    exact List.mem_takeWhile_imp hc
  · rw [← hdrop] at hc
    have hnot := List.head?_dropWhile_not p (a ++ rest)
    rw [hc] at hnot
    simpa using hnot

theorem stable_digits : Stable (splitWhile Char.isDigit) :=
  stable_splitWhile fun _ => continues_of_isDigit

theorem Stable.map {f : List Char → α × List Char} (h : Stable f) (k : α → β) :
    Stable fun cs => (k (f cs).1, (f cs).2) := by
  intro raw rest rest' b hb hreplaces
  obtain ⟨rfl, hrest⟩ := Prod.mk.inj hb
  have hf := h raw rest rest' (f (raw ++ rest)).1 (Prod.ext rfl hrest) hreplaces
  dsimp only
  rw [hf]

/-- One scanner behind the other. -/
theorem Stable.andThen {f : List Char → α × List Char} {g : List Char → β × List Char}
    (hf : Stable f) (hg : Stable g) (hfs : ∀ cs, (f cs).2 <:+ cs) (hgs : ∀ cs, (g cs).2 <:+ cs)
    {γ : Type} (k : α → β → γ) :
    Stable fun cs => (k (f cs).1 (g (f cs).2).1, (g (f cs).2).2) := by
  intro raw rest rest' c hc hreplaces
  obtain ⟨rfl, hrest⟩ := Prod.mk.inj hc
  -- what the first one leaves ends with what the second one leaves
  obtain ⟨front, hfront⟩ := hfs (raw ++ rest)
  obtain ⟨back, hback⟩ := hgs (f (raw ++ rest)).2
  rw [hrest] at hback
  obtain rfl : raw = front ++ back := by
    rw [← hback, ← List.append_assoc] at hfront
    exact (List.append_cancel_right hfront).symm
  have hfirst := hf front (back ++ rest) (back ++ rest') (f (front ++ back ++ rest)).1
    (by rw [← List.append_assoc, hback]) (hreplaces.append back)
  have hsecond := hg back rest rest' (g (f (front ++ back ++ rest)).2).1
    (by rw [hback]; exact Prod.ext rfl hrest) hreplaces
  dsimp only
  rw [List.append_assoc, hfirst, hsecond]

/-- A scanner that goes on behind certain characters and takes nothing in front
    of all others. -/
theorem stable_optional {f : List Char → List Char × List Char}
    {g : Char → List Char → List Char × List Char} (p : Char → Bool)
    (hp : ∀ c, p c → continues c) (hsome : ∀ c cs, p c → f (c :: cs) = g c cs)
    (hnone : ∀ cs, (∀ c ∈ cs.head?, p c = false) → f cs = ([], cs))
    (hg : ∀ c, Stable (g c)) (hgs : ∀ c cs, (g c cs).2 <:+ cs) : Stable f := by
  intro raw rest rest' a h hreplaces
  by_cases hhead : ∀ c ∈ (raw ++ rest).head?, p c = false
  · rw [hnone _ hhead] at h
    obtain ⟨rfl, hrest⟩ := Prod.mk.inj h
    obtain rfl : raw = [] := by simpa using hrest
    exact hnone rest' (hreplaces.fails hp hhead)
  · obtain ⟨c, hc⟩ := not_forall.1 hhead
    obtain ⟨hc, hpc⟩ := Classical.not_imp.1 hc
    have htrue : p c := by simpa using hpc
    cases raw with
    | nil =>
      -- something would be taken
      obtain ⟨cs, rfl⟩ := List.head?_eq_some_iff.1 hc
      have hlength := (hgs c cs).length_le
      rw [← hsome c cs htrue, ← List.nil_append (c :: cs), h] at hlength
      exact absurd hlength (Nat.not_succ_le_self _)
    | cons c' raw =>
      cases hc
      rw [List.cons_append, hsome c _ htrue] at h ⊢
      exact hg c raw rest rest' a h hreplaces

theorem stable_spanFraction : Stable spanFraction := by
  refine stable_optional (· == '.') (fun c hc => ?_) (fun c cs hc => ?_) (fun cs hcs => ?_)
    (fun _ => stable_digits.map ('.' :: ·)) fun _ cs => splitWhile_suffix _ cs
  · rw [eq_of_beq hc]
    rfl
  · rw [eq_of_beq hc]
    rfl
  · unfold spanFraction
    split
    · exact absurd (hcs '.' rfl) (by decide)
    · rfl

theorem stable_spanSign : Stable spanSign := by
  refine stable_optional (fun c => c == '+' || c == '-') (g := fun c cs => ([c], cs))
    (fun c hc => ?_) (fun c cs hc => ?_) (fun cs hcs => ?_) (fun c raw rest rest' a h _ => ?_)
    fun _ _ => List.suffix_rfl
  · rcases (by simpa using hc : c = '+' ∨ c = '-') with rfl | rfl <;> rfl
  · rcases (by simpa using hc : c = '+' ∨ c = '-') with rfl | rfl <;> rfl
  · unfold spanSign
    split
    · exact absurd (hcs '+' rfl) (by decide)
    · exact absurd (hcs '-' rfl) (by decide)
    · rfl
  · obtain ⟨rfl, hrest⟩ := Prod.mk.inj h
    obtain rfl : raw = [] := by simpa using hrest
    rfl

theorem stable_spanExponent : Stable spanExponent := by
  refine stable_optional (fun c => c == 'e' || c == 'E') (fun c hc => ?_) (fun c cs hc => ?_)
    (fun cs hcs => ?_)
    (fun c => stable_spanSign.andThen stable_digits spanSign_suffix (splitWhile_suffix _)
      fun sign digits => c :: sign ++ digits)
    fun _ cs => (splitWhile_suffix _ _).trans (spanSign_suffix cs)
  · rcases (by simpa using hc : c = 'e' ∨ c = 'E') with rfl | rfl <;> rfl
  · have hmark : c = 'e' ∨ c = 'E' := by simpa using hc
    rw [spanExponent, if_pos hmark]
  · cases cs with
    | nil => rfl
    | cons c cs =>
      have hmark : ¬ (c = 'e' ∨ c = 'E') := by simpa using hcs c rfl
      rw [spanExponent, if_neg hmark]

theorem stable_spanMantissa (first : Char) : Stable (spanMantissa first) := by
  unfold spanMantissa
  split
  · exact stable_digits.map (first :: ·)
  · exact stable_digits.andThen stable_spanFraction (splitWhile_suffix _) spanFraction_suffix
      fun digits fraction => first :: digits ++ fraction

theorem stable_spanNumber (first : Char) : Stable (spanNumber first) :=
  (stable_spanMantissa first).andThen stable_spanExponent (spanMantissa_suffix first)
    spanExponent_suffix (· ++ ·)

/-! ## Scanners of tokens -/

/-- A superscript or glyph glued to its parenthesis. -/
def isCalled : Token → Bool
  | superscript _ called | glyph _ called => called
  | _ => false

theorem startsCall_iff : startsCall cs ↔ ∃ more, cs = '(' :: more := by
  unfold startsCall
  split
  next more => exact iff_of_true rfl ⟨more, rfl⟩
  next hne => exact iff_of_false Bool.false_ne_true fun ⟨more, hmore⟩ => hne more hmore

theorem startsCall_replaced (h : Replaces rest rest') (hcall : startsCall rest → startsCall rest') :
    startsCall rest' = startsCall rest := by
  refine Bool.eq_iff_iff.2 ⟨fun hcalled => ?_, hcall⟩
  by_contra hnot
  obtain ⟨more, hmore⟩ := startsCall_iff.1 hcalled
  exact h.ne_cons rfl (fun more' hmore' => hnot (startsCall_iff.2 ⟨more', hmore'⟩)) more hmore

/-- A word that the scanner takes in front of a rest it takes in front of any
    other that replaces it, a call only where the parenthesis stays. -/
def TakesWords (f : List Char → Token × List Char) : Prop :=
  ∀ raw rest rest' t, f (raw ++ rest) = (t, rest) → Grammar.Valid t → Replaces rest rest' →
    (t.isCalled → startsCall rest') → f (raw ++ rest') = (t, rest')

/-- A single character, whatever stands behind it. -/
theorem takesWords_single (t : Token) : TakesWords fun cs => (t, cs) := by
  intro raw rest rest' t' h _ _ _
  obtain ⟨rfl, hrest⟩ := Prod.mk.inj h
  obtain rfl : raw = [] := by simpa using hrest
  rfl

/-- A superscript or glyph. -/
theorem takesWords_sign {sign : Bool → Token} (hsign : ∀ called, (sign called).isCalled = called) :
    TakesWords fun cs => (sign (startsCall cs), cs) := by
  intro raw rest rest' t h _ hreplaces hcall
  obtain ⟨rfl, hrest⟩ := Prod.mk.inj h
  obtain rfl : raw = [] := by simpa using hrest
  rw [hsign] at hcall
  dsimp only [List.nil_append] at hcall ⊢
  rw [startsCall_replaced hreplaces hcall]

theorem takesWords_scanThree : TakesWords scanThree := by
  intro raw rest rest' t h hvalid hreplaces hcall
  unfold scanThree at h
  split at h
  next more hmore =>
    obtain ⟨rfl, rfl⟩ := Prod.mk.inj h
    obtain rfl : raw = ['√'] := List.append_cancel_right (by simpa using hmore)
    show (glyph .cubeRoot (startsCall rest'), rest') = _
    rw [startsCall_replaced hreplaces hcall]
  next hne =>
    obtain ⟨rfl, hrest⟩ := Prod.mk.inj h
    obtain rfl : raw = [] := by simpa using hrest
    have hne' := hreplaces.ne_cons (c := '√') rfl hne
    show scanThree rest' = (superscript .three (startsCall rest), rest')
    rw [scanThree, startsCall_replaced hreplaces hcall]
    exact hne'

theorem takesWords_scanEquals : TakesWords scanEquals := by
  intro raw rest rest' t h hvalid hreplaces _
  unfold scanEquals at h
  split at h
  next more hmore =>
    obtain ⟨rfl, rfl⟩ := Prod.mk.inj h
    obtain rfl : raw = ['=', '='] := List.append_cancel_right (by simpa using hmore)
    rfl
  next more hne hmore =>
    obtain ⟨rfl, rfl⟩ := Prod.mk.inj h
    obtain rfl : raw = ['='] := List.append_cancel_right (by simpa using hmore)
    have hne' := hreplaces.ne_cons (c := '=') rfl fun more hmore => hne more (by rw [hmore])
    show scanEquals ('=' :: rest') = _
    rw [scanEquals]
    exact hne'
  next =>
    rw [← (Prod.mk.inj h).1] at hvalid
    exact hvalid.elim

theorem takesWords_scanBang : TakesWords scanBang := by
  intro raw rest rest' t h hvalid hreplaces _
  unfold scanBang at h
  split at h
  next more hmore =>
    obtain ⟨rfl, rfl⟩ := Prod.mk.inj h
    obtain rfl : raw = ['=', '='] := List.append_cancel_right (by simpa using hmore)
    rfl
  next more hne hmore =>
    obtain ⟨rfl, rfl⟩ := Prod.mk.inj h
    obtain rfl : raw = ['='] := List.append_cancel_right (by simpa using hmore)
    have hne' := hreplaces.ne_cons (c := '=') rfl fun more hmore => hne more (by rw [hmore])
    show scanBang ('=' :: rest') = _
    rw [scanBang]
    exact hne'
  next hne =>
    obtain ⟨rfl, hrest⟩ := Prod.mk.inj h
    obtain rfl : raw = [] := by simpa using hrest
    have hne' := hreplaces.ne_cons (c := '=') rfl hne
    show scanBang rest' = _
    rw [scanBang]
    · exact fun more => hne' _
    · exact hne'

theorem takesWords_scanOrEqual (orEqual plain : Symbol) :
    TakesWords (scanOrEqual orEqual plain) := by
  intro raw rest rest' t h hvalid hreplaces _
  unfold scanOrEqual at h
  split at h
  next more hmore =>
    obtain ⟨rfl, rfl⟩ := Prod.mk.inj h
    obtain rfl : raw = ['='] := List.append_cancel_right (by simpa using hmore)
    rfl
  next hne =>
    obtain ⟨rfl, hrest⟩ := Prod.mk.inj h
    obtain rfl : raw = [] := by simpa using hrest
    have hne' := hreplaces.ne_cons (c := '=') rfl hne
    show scanOrEqual orEqual plain rest' = _
    rw [scanOrEqual]
    exact hne'

theorem takesWords_scanDouble (c : Char) (double : Symbol) (lone : LexicalFault) :
    TakesWords (scanDouble c double lone) := by
  intro raw rest rest' t h hvalid _ _
  unfold scanDouble at h
  split at h
  next =>
    rw [← (Prod.mk.inj h).1] at hvalid
    exact hvalid.elim
  next c' more hmore =>
    split at h
    next heq =>
      obtain ⟨rfl, rfl⟩ := Prod.mk.inj h
      obtain rfl : raw = [c'] := List.append_cancel_right (by simpa using hmore)
      show scanDouble c double lone (c' :: rest') = _
      rw [scanDouble, if_pos heq]
    next =>
      rw [← (Prod.mk.inj h).1] at hvalid
      exact hvalid.elim

theorem takesWords_scanReference : TakesWords scanReference := by
  intro raw rest rest' t h hvalid _ _
  unfold scanReference at h
  split at h
  next inner c more hcut =>
    obtain ⟨rfl, rfl⟩ := Prod.mk.inj h
    obtain ⟨hcs, hinner⟩ := eq_append_of_splitWhile_ne hcut
    obtain rfl : raw = inner ++ ['\x7d'] := List.append_cancel_right (by simpa using hcs)
    rw [List.append_assoc, List.singleton_append, scanReference, splitWhile_ne_append hinner]
  next =>
    rw [← (Prod.mk.inj h).1] at hvalid
    exact hvalid.elim

/-- The content of a string is read whatever stands behind its quote. -/
theorem stringContent?_replaced {quote : Char} {content : List Char}
    (h : stringContent? quote cs = some (content, rest)) : ∃ raw, cs = raw ++ rest ∧
      ∀ rest', stringContent? quote (raw ++ rest') = some (content, rest') := by
  fun_induction stringContent? quote cs generalizing content with
  | case1 => cases h
  | case2 cs =>
    cases h
    exact ⟨[quote], rfl, fun rest' => by simp [stringContent?.eq_def]⟩
  | case3 => cases h
  | case4 escaped cs hquote ih =>
    obtain ⟨⟨inner, after⟩, found, same⟩ := Option.map_eq_some_iff.1 h
    cases same
    obtain ⟨raw, rfl, hraw⟩ := ih found
    refine ⟨'\\' :: escaped :: raw, rfl, fun rest' => ?_⟩
    simp [stringContent?, hquote, hraw rest']
  | case5 c cs hquote hslash ih =>
    obtain ⟨⟨inner, after⟩, found, same⟩ := Option.map_eq_some_iff.1 h
    cases same
    obtain ⟨raw, rfl, hraw⟩ := ih found
    refine ⟨c :: raw, rfl, fun rest' => ?_⟩
    rw [List.cons_append, stringContent?.eq_def]
    simp [hquote, hslash, hraw rest']

theorem takesWords_scanString (quote : Char) : TakesWords (scanString quote) := by
  intro raw rest rest' t h hvalid _ _
  unfold scanString at h
  split at h
  next content more hcontent =>
    obtain ⟨rfl, rfl⟩ := Prod.mk.inj h
    obtain ⟨raw', hraw, hread⟩ := stringContent?_replaced hcontent
    obtain rfl : raw = raw' := List.append_cancel_right hraw
    rw [scanString, hread]
  next =>
    rw [← (Prod.mk.inj h).1] at hvalid
    exact hvalid.elim

/-- A point with a digit behind it is not taken alone. -/
theorem spanNumber_point_ne {c : Char} (hc : c.isDigit) (cs : List Char) :
    (spanNumber '.' (c :: cs)).2 ≠ c :: cs := by
  intro heq
  have hmantissa : (spanMantissa '.' (c :: cs)).2 = cs.dropWhile Char.isDigit := by
    simp [spanMantissa, splitWhile, hc]
  have hsuffix : (spanNumber '.' (c :: cs)).2 <:+ (spanMantissa '.' (c :: cs)).2 :=
    spanExponent_suffix _
  have hlength := (hsuffix.trans (hmantissa ▸ List.dropWhile_suffix _)).length_le
  rw [heq] at hlength
  exact Nat.not_succ_le_self _ hlength

/-- A number that takes nothing behind its first character starts with a digit. -/
theorem startsNumber_of_left (hrest : (spanNumber first rest).2 = rest)
    (h : startsNumber first rest) : startsNumber first rest' := by
  simp only [startsNumber, Bool.or_eq_true, Bool.and_eq_true, beq_iff_eq] at h ⊢
  rcases h with hdigit | ⟨rfl, hdigit⟩
  · exact .inl hdigit
  · obtain ⟨c, hc, hcdigit⟩ := (Option.any_eq_true _ _).1 hdigit
    obtain ⟨cs, rfl⟩ := List.head?_eq_some_iff.1 hc
    exact absurd hrest (spanNumber_point_ne hcdigit cs)

theorem takesWords_scanWord (first : Char) : TakesWords (scanWord first) := by
  intro raw rest rest' t h hvalid hreplaces _
  unfold scanWord at h
  split at h
  next hnumber =>
    obtain ⟨text, more, hspan⟩ : ∃ text more, spanNumber first (raw ++ rest) = (text, more) :=
      ⟨_, _, rfl⟩
    rw [hspan] at h
    obtain ⟨rfl, rfl⟩ := Prod.mk.inj h
    have hnumber' : startsNumber first (raw ++ rest') := by
      cases raw with
      | nil =>
        have hrest := congrArg Prod.snd hspan
        exact startsNumber_of_left hrest hnumber
      | cons => exact hnumber
    rw [scanWord, if_pos hnumber', stable_spanNumber first raw _ rest' _ hspan hreplaces]
  next =>
    split at h
    next hstart =>
      obtain ⟨text, more, hspan⟩ : ∃ text more, splitWhile isNamePart (raw ++ rest) = (text, more) :=
        ⟨_, _, rfl⟩
      rw [hspan] at h
      obtain ⟨rfl, rfl⟩ := Prod.mk.inj h
      have hstable := stable_splitWhile fun _ => continues_of_isNamePart
      rw [scanWord, startsNumber_of_isNameStart hstart, if_neg Bool.false_ne_true, if_pos hstart,
        hstable raw _ rest' _ hspan hreplaces]
    next =>
      rw [← (Prod.mk.inj h).1] at hvalid
      exact hvalid.elim

/-- **A word is cut off alike in front of all rests that replace each other.** -/
theorem takesWords_scan (first : Char) : TakesWords (scan first) := by
  unfold scan
  split
  · exact takesWords_single _
  · split
    · exact takesWords_sign fun _ => rfl
    · exact takesWords_sign fun _ => rfl
    · exact takesWords_scanThree
    · exact takesWords_sign fun _ => rfl
    · exact takesWords_sign fun _ => rfl
    · exact takesWords_sign fun _ => rfl
    · exact takesWords_scanEquals
    · exact takesWords_scanBang
    · exact takesWords_scanOrEqual _ _
    · exact takesWords_scanOrEqual _ _
    · exact takesWords_scanDouble _ _ _
    · exact takesWords_scanDouble _ _ _
    · exact takesWords_scanReference
    · exact takesWords_scanString _
    · exact takesWords_scanString _
    · exact takesWords_scanWord _

theorem startsCall_of_not_isCalled (h : t.isCalled = false) (cs : List Char) :
    t.isCalled → startsCall cs :=
  fun hcalled => absurd (h.symm.trans hcalled) Bool.false_ne_true

/-- A call has its parenthesis behind it. -/
theorem startsCall_of_isCalled (first : Char) (cs : List Char) :
    (scan first cs).1.isCalled → startsCall (scan first cs).2 := by
  unfold scan
  split
  · exact startsCall_of_not_isCalled rfl _
  · split
    · exact id
    · exact id
    · unfold scanThree
      split <;> exact id
    · exact id
    · exact id
    · exact id
    · unfold scanEquals
      split <;> exact startsCall_of_not_isCalled rfl _
    · unfold scanBang
      split <;> exact startsCall_of_not_isCalled rfl _
    · unfold scanOrEqual
      split <;> exact startsCall_of_not_isCalled rfl _
    · unfold scanOrEqual
      split <;> exact startsCall_of_not_isCalled rfl _
    · unfold scanDouble
      repeat' split
      all_goals exact startsCall_of_not_isCalled rfl _
    · unfold scanDouble
      repeat' split
      all_goals exact startsCall_of_not_isCalled rfl _
    · unfold scanReference ofReferenceText
      repeat' split
      all_goals exact startsCall_of_not_isCalled rfl _
    · unfold scanString
      split <;> exact startsCall_of_not_isCalled rfl _
    · unfold scanString
      split <;> exact startsCall_of_not_isCalled rfl _
    · unfold scanWord ofNumberText
      repeat' split
      all_goals exact startsCall_of_not_isCalled rfl _

/-! ## Texts -/

/-- Blanks in front of a text are no token. -/
theorem lex_blanks_append {blanks : List Char} (h : ∀ c ∈ blanks, isBlank c) (cs : List Char) :
    lex (blanks ++ cs) = lex cs := by
  rw [lex_eq, lex_eq cs, trimStart_blanks_append h]

theorem lex_blanks (h : ∀ c ∈ cs, isBlank c) : lex cs = [] := by
  have hlex := lex_blanks_append h []
  rwa [List.append_nil, lex_nil] at hlex

/-- The first token of a text is cut off, and the blanks in front of it. -/
structure Leads (blanks : List Char) (first : Char) (raw : List Char) (t : Token)
    (rest : List Char) : Prop where
  blank : ∀ c ∈ blanks, isBlank c
  starts : isBlank first = false
  scanned : scan first (raw ++ rest) = (t, rest)

variable {blanks : List Char}

theorem Leads.lex_eq (h : Leads blanks first raw t rest) :
    lex (blanks ++ first :: (raw ++ rest)) = t :: lex rest := by
  rw [lex_blanks_append h.blank, lex_cons h.starts, h.scanned]

theorem Leads.startsCall (h : Leads blanks first raw t rest) :
    t.isCalled → startsCall rest := by
  have hcall := startsCall_of_isCalled first (raw ++ rest)
  rwa [h.scanned] at hcall

theorem Leads.replaced (h : Leads blanks first raw t rest) (hvalid : Grammar.Valid t)
    (hreplaces : Replaces rest rest') (hcall : t.isCalled → Token.startsCall rest') :
    Leads blanks first raw t rest' :=
  ⟨h.blank, h.starts, takesWords_scan first raw rest rest' t h.scanned hvalid hreplaces hcall⟩

/-- A text is blank, or a token leads it. -/
@[elab_as_elim]
theorem lex_induction {motive : List Char → Prop}
    (blank : ∀ cs, (∀ c ∈ cs, isBlank c) → motive cs)
    (token : ∀ blanks first raw t rest, Leads blanks first raw t rest → motive rest →
      motive (blanks ++ first :: (raw ++ rest))) (cs : List Char) : motive cs := by
  fun_induction lex cs with
  | case1 cs htrim => exact blank cs (List.dropWhile_eq_nil_iff.1 htrim)
  | case2 cs first rest htrim ih =>
    obtain ⟨raw, hraw⟩ := scan_suffix first rest
    have hcs : cs = cs.takeWhile isBlank ++ first :: (raw ++ (scan first rest).2) := by
      rw [hraw, ← htrim, trimStart, List.takeWhile_append_dropWhile]
    have hstarts := isBlank_head_trimStart cs first (by rw [htrim]; rfl)
    rw [hcs]
    refine token _ first raw (scan first rest).1 _ ⟨fun c hc => ?_, hstarts, ?_⟩ ih
    · exact List.mem_takeWhile_imp hc
    · rw [hraw]

/-- **Words stay as they are in front of a text that parts from them.** -/
theorem lex_append (hvalid : ∀ t ∈ lex cs, Grammar.Valid t) (hrest : Parts rest) :
    lex (cs ++ rest) = lex cs ++ lex rest := by
  induction cs using lex_induction with
  | blank cs hblank => rw [lex_blanks_append hblank, lex_blanks hblank, List.nil_append]
  | token blanks first raw t behind hleads ih =>
    rw [hleads.lex_eq, List.forall_mem_cons] at hvalid
    have hreplaces : Replaces behind (behind ++ rest) := by
      cases behind with
      | nil => exact .inr hrest
      | cons => exact .inl rfl
    have hcall : t.isCalled → startsCall (behind ++ rest) := by
      intro hcalled
      obtain ⟨more, rfl⟩ := startsCall_iff.1 (hleads.startsCall hcalled)
      exact startsCall_iff.2 ⟨_, rfl⟩
    have hwhole := (hleads.replaced hvalid.1 hreplaces hcall).lex_eq
    rw [List.append_assoc, List.cons_append, List.append_assoc, hwhole, hleads.lex_eq, ih hvalid.2,
      List.cons_append]

end ProductFormula.Token
