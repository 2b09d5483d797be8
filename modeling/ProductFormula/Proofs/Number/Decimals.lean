/-
  Decimal texts.

  A text that is read as a decimal is digits, perhaps a point with digits behind
  it or in front of it, and perhaps an exponent mark with a sign and digits
  (`Decimal.Parts`).  The scanner of literals takes characters of these kinds as
  far as they go, though none of the parts need be complete; so it takes such a
  text to its end (`Decimal.Parts.spanNumber_eq`), and what it takes of any
  other text is no decimal or not the whole.

  * `Expr.parse_number_iff`: literals and text values are the same decimals.
-/
import ProductFormula.Proofs.Grammar.Acceptance
import ProductFormula.Proofs.Token.Spelling
import ProductFormula.Value

namespace ProductFormula

open Text

namespace Decimal

/-! ## Parts of a decimal -/

/-- What can stand behind the digits of a decimal: nothing, or an exponent. -/
inductive Power : List Char → Prop
  | none : Power []
  | mark {mark sign digits} : mark = 'e' ∨ mark = 'E' →
      sign = [] ∨ sign = ['+'] ∨ sign = ['-'] → digits ≠ [] → (∀ c ∈ digits, c.isDigit) →
      Power (mark :: (sign ++ digits))

/-- The text is these digits, this fraction and this power, and there is a
    digit in front of the power. -/
structure Parts (cs whole : List Char) (fraction : Option (List Char)) (power : List Char) :
    Prop where
  text : cs = whole ++ (Numeral.pointChars fraction ++ power)
  isDigit : ∀ c ∈ whole ++ fraction.getD [], c.isDigit
  nonempty : whole ≠ [] ∨ fraction.getD [] ≠ []
  power : Power power

variable {cs whole power tail : List Char} {fraction : Option (List Char)} {first : Char}
  {d : Decimal}

theorem digits_of_naturalOf? {n : Nat} (h : naturalOf? cs = some n) :
    cs ≠ [] ∧ ∀ c ∈ cs, c.isDigit := by
  unfold naturalOf? at h
  split at h
  next hdigits => exact ⟨hdigits.1, List.all_eq_true.1 hdigits.2⟩
  · cases h

theorem power_of_exponentOf? {mark : Char} (hmark : mark = 'e' ∨ mark = 'E') {n : Int}
    (h : exponentOf? cs = some n) : Power (mark :: cs) := by
  obtain ⟨sign, digits, hsign, rfl, n, hn⟩ : ∃ sign digits,
      (sign = [] ∨ sign = ['+'] ∨ sign = ['-']) ∧ cs = sign ++ digits ∧
        ∃ n, naturalOf? digits = some n := by
    unfold exponentOf? at h
    split at h
    next digits =>
      refine ⟨['+'], digits, .inr (.inl rfl), rfl, Option.ne_none_iff_exists'.1 fun hnone => ?_⟩
      rw [hnone] at h
      cases h
    next digits =>
      refine ⟨['-'], digits, .inr (.inr rfl), rfl, Option.ne_none_iff_exists'.1 fun hnone => ?_⟩
      rw [hnone] at h
      cases h
    next =>
      refine ⟨[], cs, .inl rfl, rfl, Option.ne_none_iff_exists'.1 fun hnone => ?_⟩
      rw [hnone] at h
      cases h
  obtain ⟨hne, hdigits⟩ := digits_of_naturalOf? hn
  exact .mark hmark hsign hne hdigits

theorem exists_splitFraction (cs : List Char) : ∃ fraction,
    (splitFraction cs).1 = fraction.getD [] ∧ (∀ c ∈ fraction.getD [], c.isDigit) ∧
      cs = Numeral.pointChars fraction ++ (splitFraction cs).2 := by
  unfold splitFraction
  split
  next cs =>
    refine ⟨some (cs.takeWhile Char.isDigit), rfl, fun c hc => List.mem_takeWhile_imp hc, ?_⟩
    exact congrArg ('.' :: ·) (splitWhile_append Char.isDigit cs).symm
  next => exact ⟨none, rfl, by simp, rfl⟩

/-- **What is read as a decimal has the parts of one.** -/
theorem exists_parts (h : ofChars? cs = some d) : ∃ whole fraction power,
    Parts cs whole fraction power := by
  obtain ⟨fraction, hfraction, hdigits, hrest⟩ := exists_splitFraction (cs.dropWhile Char.isDigit)
  have htext : cs = cs.takeWhile Char.isDigit ++ (Numeral.pointChars fraction ++
      (splitFraction (cs.dropWhile Char.isDigit)).2) := by
    rw [← hrest, List.takeWhile_append_dropWhile]
  have hwhole : ∀ c ∈ cs.takeWhile Char.isDigit, c.isDigit := fun c hc => List.mem_takeWhile_imp hc
  simp only [ofChars?, splitWhile, hfraction] at h
  split at h
  · cases h
  next hne =>
    refine ⟨_, fraction, _, htext, List.forall_mem_append.2 ⟨hwhole, hdigits⟩,
      not_and_or.1 hne, ?_⟩
    split at h
    next hnil =>
      rw [hnil]
      exact .none
    next mark power hmark =>
      rw [hmark]
      split at h
      next he =>
        obtain ⟨exponent, hexponent, -⟩ := Option.map_eq_some_iff.1 h
        exact power_of_exponentOf? he hexponent
      · cases h

/-- A decimal goes on like a name, its sign apart. -/
theorem isNamePart_or_sign (h : ofChars? cs = some d) {c : Char} (hc : c ∈ cs) :
    Token.isNamePart c ∨ c = '+' ∨ c = '-' := by
  have hdigit {c : Char} (h : c.isDigit) : Token.isNamePart c := by
    simp [Token.isNamePart, Char.isAlphanum, h]
  obtain ⟨whole, fraction, power, rfl, hdigits, -, hpower⟩ := exists_parts h
  rcases List.mem_append.1 hc with hc | hc
  · exact .inl (hdigit (hdigits c (List.mem_append_left _ hc)))
  rcases List.mem_append.1 hc with hc | hc
  · cases fraction with
    | none => cases hc
    | some digits =>
      rcases List.mem_cons.1 hc with rfl | hc
      · exact .inl rfl
      · exact .inl (hdigit (hdigits c (List.mem_append_right _ hc)))
  · cases hpower with
    | none => cases hc
    | mark hmark hsign _ hpower =>
      rcases List.mem_cons.1 hc with rfl | hc
      · rcases hmark with rfl | rfl
        · exact .inl rfl
        · exact .inl rfl
      rcases List.mem_append.1 hc with hc | hc
      · rcases hsign with rfl | rfl | rfl
        · cases hc
        · exact .inr (.inl (List.mem_singleton.1 hc))
        · exact .inr (.inr (List.mem_singleton.1 hc))
      · exact .inl (hdigit (hpower c hc))

/-! ## The scanner of literals -/

theorem splitWhile_digits (h : ∀ c ∈ cs, c.isDigit) : splitWhile Char.isDigit cs = (cs, []) := by
  have hcut := @splitWhile_front _ cs [] h (by simp)
  rwa [List.append_nil] at hcut

theorem Power.head (h : Power power) : ∀ c ∈ power.head?, c.isDigit = false ∧ c ≠ '.' := by
  cases h with
  | none => simp
  | mark hmark =>
    rintro c hc
    cases hc
    rcases hmark with rfl | rfl
    · decide
    · decide

theorem Power.spanExponent_eq (h : Power power) : Token.spanExponent power = (power, []) := by
  cases h with
  | none => rfl
  | @mark mark sign digits hmark hsign hne hdigits =>
    have hspan : Token.spanSign (sign ++ digits) = (sign, digits) := by
      rcases hsign with rfl | rfl | rfl
      · obtain ⟨first, more, rfl⟩ := List.exists_cons_of_ne_nil hne
        have hfirst := hdigits first List.mem_cons_self
        show Token.spanSign (first :: more) = _
        unfold Token.spanSign
        split
        next heq =>
          cases heq
          cases hfirst
        next heq =>
          cases heq
          cases hfirst
        · rfl
      · rfl
      · rfl
    simp only [Token.spanExponent, if_pos hmark, hspan, splitWhile_digits hdigits,
      List.cons_append]

theorem Parts.spanMantissa_eq (h : Parts (first :: tail) whole fraction power) :
    Token.startsNumber first tail ∧
      Token.spanMantissa first tail = (whole ++ Numeral.pointChars fraction, power) := by
  obtain ⟨htext, hdigits, hnonempty, hpower⟩ := h
  obtain ⟨hwhole, hpart⟩ := List.forall_mem_append.1 hdigits
  cases whole with
  | nil =>
    -- the point is in front, and a digit behind it
    obtain ⟨digits, rfl⟩ : ∃ digits, fraction = some digits := by
      cases fraction with
      | none => simp at hnonempty
      | some digits => exact ⟨digits, rfl⟩
    obtain ⟨c, more, rfl⟩ := List.exists_cons_of_ne_nil (hnonempty.resolve_left (by simp))
    have htail : tail = (c :: more) ++ power := (List.cons_eq_cons.1 htext).2
    obtain rfl : first = '.' := (List.cons_eq_cons.1 htext).1
    have hcut := splitWhile_front hpart fun c hc => (hpower.head c hc).1
    have hc : c.isDigit := hpart c List.mem_cons_self
    refine ⟨by simp [Token.startsNumber, htail, hc], ?_⟩
    rw [Option.getD_some, ← htail] at hcut
    rw [Token.spanMantissa, if_pos rfl, hcut]
    rfl
  | cons c more =>
    have htail : tail = more ++ (Numeral.pointChars fraction ++ power) :=
      (List.cons_eq_cons.1 htext).2
    obtain rfl : first = c := (List.cons_eq_cons.1 htext).1
    obtain ⟨hfirst, hmore⟩ := List.forall_mem_cons.1 hwhole
    have hne : first ≠ '.' := by
      rintro rfl
      cases hfirst
    have hstop : ∀ c ∈ (Numeral.pointChars fraction ++ power).head?, c.isDigit = false := by
      cases fraction with
      | none => exact fun c hc => (hpower.head c hc).1
      | some =>
        rintro c hc
        cases hc
        rfl
    have hcut := splitWhile_front hmore hstop
    have hfraction := Numeral.spanFraction_point hpart hpower.head
    refine ⟨by simp [Token.startsNumber, hfirst], ?_⟩
    rw [← htail] at hcut
    rw [Token.spanMantissa, if_neg hne, hcut]
    dsimp only
    rw [hfraction]

/-- **The scanner of literals takes a decimal to its end.** -/
theorem Parts.spanNumber_eq (h : Parts (first :: tail) whole fraction power) :
    Token.startsNumber first tail ∧ Token.spanNumber first tail = (first :: tail, []) := by
  obtain ⟨hstarts, hmantissa⟩ := h.spanMantissa_eq
  refine ⟨hstarts, ?_⟩
  rw [Token.spanNumber, hmantissa]
  dsimp only
  rw [h.power.spanExponent_eq, h.text, List.append_assoc]

end Decimal

/-! ## Literals -/

namespace Token

variable {cs tail : List Char} {first : Char} {d : Decimal} {n : Number}

/-- What starts with a digit or with a point. -/
theorem scan_decimal (hfirst : first.isDigit ∨ first = '.') (cs : List Char) :
    isBlank first = false ∧ scan first cs = scanWord first cs := by
  have hpart : isNamePart first := by
    rcases hfirst with hdigit | rfl
    · simp [isNamePart, Char.isAlphanum, hdigit]
    · rfl
  exact ⟨isBlank_of_isNamePart hpart, scan_namePart hpart cs⟩

/-- Without an exponent there are digits and points only. -/
theorem Spells.digits_of_not_mem (h : Spells raw (.number n)) (he : 'e' ∉ raw) (hE : 'E' ∉ raw) :
    ∀ c ∈ raw, c.isDigit ∨ c = '.' := by
  obtain ⟨d, hread, -⟩ := h.number_inv
  obtain ⟨whole, fraction, power, rfl, hdigits, -, hpower⟩ := Decimal.exists_parts hread
  cases hpower with
  | mark hmark =>
    rcases hmark with rfl | rfl
    · exact absurd (by simp) he
    · exact absurd (by simp) hE
  | none =>
    intro c hc
    rw [List.append_nil, List.mem_append] at hc
    rcases hc with hc | hc
    · exact .inl (hdigits c (List.mem_append_left _ hc))
    · cases fraction with
      | none => cases hc
      | some digits =>
        rcases List.mem_cons.1 hc with rfl | hc
        · exact .inr rfl
        · exact .inl (hdigits c (List.mem_append_right _ hc))

/-- A literal starts like one, whatever stands behind it. -/
theorem Spells.startsNumber (h : Spells (first :: raw) (.number n)) (rest : List Char) :
    startsNumber first (raw ++ rest) := by
  obtain ⟨d, hread, -⟩ := h.number_inv
  obtain ⟨whole, fraction, power, hparts⟩ := Decimal.exists_parts hread
  have hstarts := hparts.spanNumber_eq.1
  cases raw with
  | nil =>
    have hdigit : first.isDigit := by simpa [Token.startsNumber] using hstarts
    simp [Token.startsNumber, hdigit]
  | cons => exact hstarts

/-- A decimal is one literal. -/
theorem lex_decimal (h : Decimal.ofChars? cs = some d) : lex cs = [.number (d.toNumber false)] := by
  obtain ⟨whole, fraction, power, hparts⟩ := Decimal.exists_parts h
  cases cs with
  | nil => cases h
  | cons first tail =>
    obtain ⟨hstarts, hspan⟩ := hparts.spanNumber_eq
    have hfirst : first.isDigit ∨ first = '.' := by
      simp only [startsNumber, Bool.or_eq_true, Bool.and_eq_true, beq_iff_eq] at hstarts
      exact hstarts.imp_right And.left
    obtain ⟨hblank, hscan⟩ := scan_decimal hfirst tail
    rw [lex_cons hblank, hscan, scanWord, if_pos hstarts, hspan]
    simp only [ofNumberText, h, lex_nil]

/-- What starts like a decimal is a literal or no word. -/
theorem scanWord_decimal (hfirst : first.isDigit ∨ first = '.') (cs : List Char)
    (hvalid : Grammar.Valid (scanWord first cs).1) : ∃ n, (scanWord first cs).1 = .number n := by
  unfold scanWord at hvalid ⊢
  split
  next hstarts =>
    rw [if_pos hstarts] at hvalid
    dsimp only at hvalid ⊢
    unfold ofNumberText at hvalid ⊢
    split
    next d _ => exact ⟨_, rfl⟩
    next hread =>
      rw [hread] at hvalid
      exact hvalid.elim
  next hstarts =>
    -- a point alone
    obtain rfl : first = '.' := hfirst.resolve_left fun hdigit => hstarts (by
      simp [startsNumber, hdigit])
    have hname : isNameStart '.' = false := rfl
    rw [if_neg hstarts, hname, if_neg Bool.false_ne_true] at hvalid
    exact hvalid.elim

theorem exists_lex_number (hfirst : first.isDigit ∨ first = '.')
    (hvalid : ∀ t ∈ lex (first :: tail), Grammar.Valid t) :
    ∃ n ts, lex (first :: tail) = .number n :: ts := by
  obtain ⟨hstart, hscan⟩ := scan_decimal hfirst tail
  rw [lex_cons hstart, hscan] at hvalid ⊢
  obtain ⟨n, hn⟩ := scanWord_decimal hfirst tail (hvalid _ List.mem_cons_self)
  exact ⟨n, _, congrArg (· :: _) hn⟩

/-- **A text that starts like a decimal is a literal iff it is a decimal.** -/
theorem lex_eq_number_iff (hfirst : first.isDigit ∨ first = '.')
    (hblank : ∀ c ∈ tail, isBlank c = false) : lex (first :: tail) = [.number n] ↔
      (Decimal.ofChars? (first :: tail)).map (Decimal.toNumber false) = some n := by
  obtain ⟨hstart, hscan⟩ := scan_decimal hfirst tail
  rw [Option.map_eq_some_iff]
  constructor
  · intro hlex
    rw [lex_cons hstart] at hlex
    obtain ⟨htoken, hrest⟩ := List.cons_eq_cons.1 hlex
    have hnil : (scan first tail).2 = [] := List.eq_nil_iff_forall_not_mem.2 fun c hc => by
      have hleft := isBlank_of_lex_eq_nil hrest c hc
      rw [hblank c ((scan_suffix first tail).mem hc)] at hleft
      cases hleft
    have hspells := spellsWords_scan first tail [] (.number n)
      (by rw [List.append_nil]; exact Prod.ext htoken hnil) trivial
    exact hspells.number_inv
  · rintro ⟨d, hread, rfl⟩
    exact lex_decimal hread

end Token

/-- A phrase whose tree is a number, and which starts with a literal, is the
    literal. -/
theorem Grammar.Derives.literal_inv {c : Category} {m n : Number} {ts : List Token}
    (h : Derives c (.number m :: ts) (.number n)) : m = n ∧ ts = [] := by
  generalize htokens : Token.number m :: ts = us at h
  generalize htree : Expr.number n = e at h
  induction h with
  | plain _ ih | operand _ ih | unsigned _ ih | base _ ih => exact ih htokens htree
  | number =>
    cases htokens
    cases htree
    exact ⟨rfl, rfl⟩
  | constant | group | grouping => cases htokens
  | _ => cases htree

/-! ## Text values -/

theorem Number.splitSign_unsigned {cs : List Char} (h : ∀ c ∈ cs.head?, c ≠ '+' ∧ c ≠ '-') :
    splitSign cs = (false, cs) := by
  unfold splitSign
  split
  · exact absurd rfl (h '-' rfl).2
  · exact absurd rfl (h '+' rfl).1
  · rfl

/-- The number of a text without blanks around it. -/
theorem Value.textNumber?_of_trimmed {cs word : List Char} {negative : Bool} (htrim : trim cs = cs)
    (hne : cs ≠ []) (hsign : Number.splitSign cs = (negative, word)) :
    textNumber? (.ofList cs) =
      if word = "Infinity".toList then some (.infinite negative)
      else (Decimal.ofChars? word).map (Decimal.toNumber negative) := by
  unfold textNumber?
  rw [String.toList_ofList, htrim]
  split
  · exact absurd rfl hne
  · simp only [Number.ofDecimalText?, hsign]

theorem Value.asNumber?_decimal {first : Char} {tail : List Char}
    (hfirst : first.isDigit ∨ first = '.') (hblank : ∀ c ∈ first :: tail, isBlank c = false) :
    (Value.text (.ofList (first :: tail))).asNumber? =
      (Decimal.ofChars? (first :: tail)).map (Decimal.toNumber false) := by
  have htrim : trim (first :: tail) = first :: tail :=
    Trimmed.trim_eq_self ⟨fun c hc => hblank c (List.mem_of_mem_head? hc),
      fun c hc => hblank c (List.mem_of_mem_getLast? hc)⟩
  have hsign : Number.splitSign (first :: tail) = (false, first :: tail) := by
    refine Number.splitSign_unsigned fun c hc => ?_
    cases hc
    constructor
    · rintro rfl
      revert hfirst
      decide
    · rintro rfl
      revert hfirst
      decide
  have hname : first :: tail ≠ "Infinity".toList := by
    rintro hname
    obtain ⟨rfl, -⟩ := List.cons_eq_cons.1 hname
    revert hfirst
    decide
  rw [asNumber?, textNumber?_of_trimmed htrim (List.cons_ne_nil _ _) hsign, if_neg hname]

variable {text : String} {limit : Nat} {n : Number}

/-- **Literals and text values are the same decimals**: a text without blanks
    that starts with a digit or a point is a literal iff the coercion of texts
    reads it, and as the same number. -/
theorem Expr.parse_number_iff (hfirst : ∃ c ∈ text.toList.head?, c.isDigit ∨ c = '.')
    (hblank : ∀ c ∈ text.toList, isBlank c = false) :
    Expr.parse (limit + 1) text = .ok (.number n) ↔ (Value.text text).asNumber? = some n := by
  obtain ⟨first, hhead, hfirst⟩ := hfirst
  obtain ⟨tail, htext⟩ := List.head?_eq_some_iff.1 hhead
  obtain rfl : text = .ofList (first :: tail) := by rw [← htext, String.ofList_toList]
  rw [String.toList_ofList] at hblank
  rw [Grammar.parse_eq_ok_iff_nests, String.toList_ofList,
    Value.asNumber?_decimal hfirst hblank,
    ← Token.lex_eq_number_iff hfirst (List.forall_mem_cons.1 hblank).2]
  constructor
  · intro hnests
    have hderives := hnests.derives
    obtain ⟨m, ts, hlex⟩ := Token.exists_lex_number hfirst hderives.valid
    rw [hlex] at hderives ⊢
    obtain ⟨rfl, rfl⟩ := hderives.literal_inv
    rfl
  · intro hlex
    rw [hlex]
    exact .of_primary .number

/-- The point needs no digits behind it. -/
theorem Expr.parse_trailing_point : (∃ c ∈ "1.e2".toList.head?, c.isDigit ∨ c = '.') ∧
    (∀ c ∈ "1.e2".toList, isBlank c = false) ∧
      Expr.parse 1 "1.e2" = .ok (.number (.ofNat 100)) := by
  have hfirst : ∃ c ∈ "1.e2".toList.head?, c.isDigit ∨ c = '.' := ⟨'1', rfl, .inl rfl⟩
  have hblank : ∀ c ∈ "1.e2".toList, isBlank c = false := by
    have hall : "1.e2".toList.all fun c => !isBlank c := by decide
    intro c hc
    simpa using List.all_eq_true.1 hall c hc
  exact ⟨hfirst, hblank, (Expr.parse_number_iff hfirst hblank).2 (by decide +kernel)⟩

end ProductFormula
