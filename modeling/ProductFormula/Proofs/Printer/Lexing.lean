/-
  Cutting a printed expression into tokens.

  What is printed for one token is cut off as that token, in front of whatever
  a printer puts behind it (`Follows`), so a printed tree is cut into its
  tokens (`Expr.lex_chars`).
-/
import ProductFormula.Proofs.Number.Layout
import ProductFormula.Proofs.Printer.Print

namespace ProductFormula

open Text

namespace Token

variable {cs rest : List Char} {c first : Char}

/-! ## One token -/

theorem lex_eq (cs : List Char) : lex cs =
    match trimStart cs with
    | [] => []
    | first :: rest => (scan first rest).1 :: lex (scan first rest).2 := by
  rw [lex]
  split
  next h => rw [h]
  next h => rw [h]

theorem lex_nil : lex [] = [] := by rw [lex_eq]; rfl

theorem lex_space (cs : List Char) : lex (' ' :: cs) = lex cs := by
  rw [lex_eq, lex_eq cs]
  rfl

theorem lex_cons (h : isBlank first = false) (cs : List Char) :
    lex (first :: cs) = (scan first cs).1 :: lex (scan first cs).2 := by
  rw [lex_eq, trimStart, List.dropWhile_cons_of_neg (by simp [h])]

theorem lex_symbol {s : Symbol} (h : symbolOf? first = some s) (cs : List Char) :
    lex (first :: cs) = .symbol s :: lex cs := by
  have hblank : isBlank first = false := by
    unfold symbolOf? at h
    split at h <;> first | rfl | cases h
  have hscan : scan first cs = (.symbol s, cs) := by
    unfold scan
    rw [h]
  rw [lex_cons hblank, hscan]

/-! ## Names -/

/-- The characters of names lie between `$` and `z`. -/
theorem range_of_isNamePart (h : isNamePart c) : '$'.toNat ≤ c.toNat ∧ c.toNat ≤ 'z'.toNat := by
  simp only [isNamePart, Char.isAlphanum, Bool.or_eq_true, isAlpha_iff, isUpper_iff_toNat,
    isLower_iff_toNat, Char.isDigit_iff_toNat, beq_iff_eq] at h
  rcases h with (((((⟨h₁, h₂⟩ | ⟨h₁, h₂⟩) | ⟨h₁, h₂⟩) | rfl) | rfl) | rfl)
  · exact ⟨Nat.le_trans (by decide) h₁, Nat.le_trans h₂ (by decide)⟩
  · exact ⟨Nat.le_trans (by decide) h₁, Nat.le_trans h₂ (by decide)⟩
  · exact ⟨Nat.le_trans (by decide) h₁, Nat.le_trans h₂ (by decide)⟩
  · decide
  · decide
  · decide

theorem isBlank_of_isNamePart (h : isNamePart c) : isBlank c = false := by
  have hrange : 36 ≤ c.toNat ∧ c.toNat ≤ 122 := range_of_isNamePart h
  simp only [isBlank, Bool.or_eq_false_iff, Bool.and_eq_false_iff, decide_eq_false_iff_not,
    beq_eq_false_iff_ne]
  omega

theorem scan_namePart (h : isNamePart first) (cs : List Char) :
    scan first cs = scanWord first cs := by
  have hsymbol : symbolOf? first = none := by
    unfold symbolOf?
    split <;> first | rfl | cases h
  unfold scan
  rw [hsymbol]
  dsimp only
  split <;> first | rfl | cases h

theorem isNamePart_of_isNameStart (h : isNameStart c) : isNamePart c := by
  simp only [isNameStart, Bool.or_eq_true] at h
  simp only [isNamePart, Char.isAlphanum, Bool.or_eq_true]
  rcases h with (h | h) | h
  · simp [h]
  · simp [h]
  · simp [h]

theorem isDigit_of_lt (h : '9'.toNat < c.toNat) : c.isDigit = false := by
  have hle : decide (c.val ≤ '9'.val) = false :=
    decide_eq_false fun hle => Nat.not_lt.2 (UInt32.le_iff_toNat_le.1 hle) h
  rw [Char.isDigit, hle, Bool.and_false]

theorem isNamePart_of_isCapitalPart (h : Expr.isCapitalPart c) : isNamePart c := by
  simp only [Expr.isCapitalPart, Bool.or_eq_true] at h
  simp only [isNamePart, Char.isAlphanum, Bool.or_eq_true, isAlpha_iff]
  rcases h with (((h | h) | h) | h) | h
  · simp [h]
  · simp [h]
  · simp [h]
  · simp [h]
  · simp [h]

theorem startsNumber_of_isNameStart (h : isNameStart c) (cs : List Char) :
    startsNumber c cs = false := by
  have hdigit : c.isDigit = false := by
    simp only [isNameStart, Bool.or_eq_true, isAlpha_iff, isUpper_iff_toNat, isLower_iff_toNat,
      beq_iff_eq] at h
    rcases h with ((⟨h, -⟩ | ⟨h, -⟩) | rfl) | rfl
    · exact isDigit_of_lt (Nat.lt_of_lt_of_le (by decide) h)
    · exact isDigit_of_lt (Nat.lt_of_lt_of_le (by decide) h)
    · rfl
    · rfl
  have hpoint : c ≠ '.' := by
    rintro rfl
    cases h
  simp [startsNumber, hdigit, hpoint]

/-- A name is cut off to its end. -/
theorem lex_name (first : Char) (more : List Char) (hfirst : isNameStart first)
    (hmore : ∀ c ∈ more, isNamePart c) (hrest : ∀ c ∈ rest.head?, isNamePart c = false) :
    lex (first :: (more ++ rest)) = .name (.ofList (first :: more)) :: lex rest := by
  have hpart := isNamePart_of_isNameStart hfirst
  have hnumber := startsNumber_of_isNameStart hfirst (more ++ rest)
  rw [lex_cons (isBlank_of_isNamePart hpart), scan_namePart hpart, scanWord, hnumber,
    if_neg Bool.false_ne_true, if_pos hfirst, splitWhile_front hmore hrest]

/-! ## Numbers -/

theorem lex_numeral (n : Numeral) (hrest : Numeral.Ends rest) :
    lex (n.chars ++ rest) = .number (n.decimal.toNumber false) :: lex rest := by
  obtain ⟨first, tail, hchars, hdigit, hspan⟩ := n.spanNumber_chars hrest
  have hpart : isNamePart first := by
    simp [isNamePart, Char.isAlphanum, hdigit]
  have hnumber : startsNumber first (tail ++ rest) = true := by
    simp [startsNumber, hdigit]
  rw [hchars, List.cons_append, lex_cons (isBlank_of_isNamePart hpart), scan_namePart hpart,
    scanWord, if_pos hnumber, hspan]
  simp only [ofNumberText, n.ofChars?_chars]

/-! ## Strings and references -/

theorem stringContent?_backslashed (cs rest : List Char) :
    stringContent? '"' (cs.flatMap backslashed ++ '"' :: rest) = some (cs, rest) := by
  induction cs with
  | nil => rw [List.flatMap_nil, List.nil_append, stringContent?.eq_def]; rfl
  | cons c cs ih =>
    rw [List.flatMap_cons, backslashed]
    by_cases hquote : c = '"'
    · subst hquote
      simp [stringContent?, ih, unescape]
    by_cases hslash : c = '\\'
    · subst hslash
      simp [stringContent?, ih, unescape]
    · rw [if_neg (not_or.2 ⟨hquote, hslash⟩), List.singleton_append, List.cons_append,
        stringContent?.eq_def]
      simp [hquote, hslash, ih]

theorem lex_quoted (s : String) (rest : List Char) :
    lex (quoted s ++ rest) = .string s :: lex rest := by
  have hcontent := stringContent?_backslashed s.toList rest
  have hscan (cs : List Char) : scan '"' cs = scanString '"' cs := rfl
  rw [quoted, List.cons_append, List.append_assoc, List.singleton_append, lex_cons rfl, hscan,
    scanString, hcontent]
  simp

theorem ofReferenceText_required {name : String} (hname : name ≠ "")
    (hmark : name.toList.head? ≠ some '^') :
    ofReferenceText name.toList = .reference name false := by
  rcases hcs : name.toList with _ | ⟨c, cs⟩
  · exact absurd (String.toList_eq_nil_iff.1 hcs) hname
  · have hne : c ≠ '^' := by
      rintro rfl
      exact hmark (by rw [hcs]; rfl)
    have htext : ofReferenceText (c :: cs) = .reference (.ofList (c :: cs)) false := by
      simp [ofReferenceText, hne]
    rw [htext, ← hcs, String.ofList_toList]

theorem ofReferenceText_optional {name : String} (hname : name ≠ "") :
    ofReferenceText ('^' :: name.toList) = .reference name true := by
  have hne : name.toList ≠ [] := fun h => hname (String.toList_eq_nil_iff.1 h)
  rw [ofReferenceText, if_neg hne, String.ofList_toList]

theorem lex_braced {name : String} {optional : Bool} (hname : name ≠ "")
    (hbrace : '\x7d' ∉ name.toList) (hmark : optional = false → name.toList.head? ≠ some '^')
    (rest : List Char) :
    lex (braced name optional ++ rest) = .reference name optional :: lex rest := by
  have hscan (cs : List Char) : scan '\x7b' cs = scanReference cs := rfl
  have hcut (content : List Char) (hcontent : '\x7d' ∉ content) :
      splitWhile (· != '\x7d') (content ++ '\x7d' :: rest) = (content, '\x7d' :: rest) := by
    refine splitWhile_front (fun c hc => ?_) (by simp)
    rw [bne_iff_ne]
    rintro rfl
    exact hcontent hc
  rw [braced, List.cons_append, List.append_assoc, List.singleton_append, lex_cons rfl, hscan,
    scanReference]
  cases optional with
  | true =>
    have hcontent : '\x7d' ∉ '^' :: name.toList := by simpa using hbrace
    rw [if_pos rfl, hcut _ hcontent]
    simp only [ofReferenceText_optional hname]
  | false =>
    rw [if_neg Bool.false_ne_true, hcut _ hbrace]
    simp only [ofReferenceText_required hname (hmark rfl)]

/-! ## Operators and glyphs -/

theorem lex_operator (op : BinaryOp) (rest : List Char) :
    lex (' ' :: (op.symbol.spelling.toList ++ ' ' :: rest)) = .symbol op.symbol :: lex rest := by
  rw [lex_space]
  cases op <;> exact (lex_cons rfl _).trans (congrArg _ (lex_space rest))

/-- `!` is a sign unless `=` stands behind it. -/
theorem lex_sign (op : UnaryOp) (h : cs.head? ≠ some '=') :
    lex (op.symbol.spelling.toList ++ cs) = .symbol op.symbol :: lex cs := by
  cases op with
  | negate => exact lex_symbol rfl cs
  | plus => exact lex_symbol rfl cs
  | not =>
    have hscan : scan '!' cs = (.symbol .bang, cs) := by
      show scanBang cs = _
      unfold scanBang
      split
      · exact absurd rfl h
      · exact absurd rfl h
      · rfl
    show lex ('!' :: cs) = .symbol .bang :: lex cs
    rw [lex_cons rfl, hscan]

theorem lex_glyph (g : Glyph) (rest : List Char) :
    lex (g.symbol.toList ++ '(' :: rest) = g.token :: .symbol .leftParen :: lex rest := by
  cases g <;> exact (lex_cons rfl _).trans (congrArg _ (lex_symbol rfl rest))

/-! ## What follows -/

/-- What a printer puts behind an operand. -/
def separators : List Char := [' ', ')', ',', ']', '¹', '²', '³']

/-- The rest starts with what a printer puts behind an operand. -/
def Follows (rest : List Char) : Prop := ∀ c ∈ rest.head?, c ∈ separators

theorem follows_nil : Follows [] := by
  intro c hc
  cases hc

theorem follows_cons (h : c ∈ separators) (rest : List Char) : Follows (c :: rest) := by
  intro c' hc
  cases hc
  exact h

theorem follows_superscript (s : Superscript) (rest : List Char) :
    Follows (s.symbol.toList ++ rest) := by
  cases s <;> exact follows_cons (by decide) rest

theorem Follows.ends (h : Follows rest) : Numeral.Ends rest := by
  have hseparators : separators.all fun c => !c.isDigit && c != '.' && c != 'e' && c != 'E' := rfl
  intro c hc
  simpa [and_assoc] using List.all_eq_true.1 hseparators c (h c hc)

theorem Follows.isNamePart (h : Follows rest) : ∀ c ∈ rest.head?, isNamePart c = false := by
  have hseparators : separators.all fun c => !Token.isNamePart c := rfl
  intro c hc
  simpa using List.all_eq_true.1 hseparators c (h c hc)

theorem Follows.startsCall (h : Follows rest) : startsCall rest = false := by
  unfold Token.startsCall
  split
  · exact absurd (h '(' rfl) (by decide)
  · rfl

theorem lex_superscript (s : Superscript) (h : Follows rest) :
    lex (s.symbol.toList ++ rest) = .superscript s false :: lex rest := by
  have hcall := h.startsCall
  cases s with
  | one =>
    show lex ('¹' :: rest) = _
    rw [lex_cons rfl]
    exact congrArg (Token.superscript .one · :: lex rest) hcall
  | two =>
    show lex ('²' :: rest) = _
    rw [lex_cons rfl]
    exact congrArg (Token.superscript .two · :: lex rest) hcall
  | three =>
    have hscan : scan '³' rest = (.superscript .three false, rest) := by
      show scanThree rest = _
      unfold scanThree
      split
      · exact absurd (h '√' rfl) (by decide)
      · rw [hcall]
    show lex ('³' :: rest) = _
    rw [lex_cons rfl, hscan]

theorem lex_number {n : Number} (hn : n.Unsigned) (h : Follows rest) :
    lex (n.chars ++ rest) = n.token :: lex rest := by
  cases n with
  | nan => exact hn.elim
  | infinite negative =>
    obtain rfl : negative = false := hn
    exact lex_name 'I' "nfinity".toList rfl (List.all_eq_true.1 rfl) h.isNamePart
  | finite negative units hunits =>
    obtain rfl : negative = false := hn
    obtain ⟨n, hchars, hread⟩ := Number.exists_numeral_chars hunits
    rw [hchars, lex_numeral n h.ends, hread]
    rfl

theorem lex_boolean (b : Bool) (h : Follows rest) :
    lex ((if b then "true" else "false").toList ++ rest) =
      .name (if b then "true" else "false") :: lex rest := by
  cases b with
  | false => exact lex_name 'f' "alse".toList rfl (List.all_eq_true.1 rfl) h.isNamePart
  | true => exact lex_name 't' "rue".toList rfl (List.all_eq_true.1 rfl) h.isNamePart

/-- A function's name is cut off before its parenthesis. -/
theorem lex_call {name : String} (hname : ∀ c ∈ name.toList, Expr.isCapitalPart c)
    (rest : List Char) : lex ("Math.".toList ++ (name.toList ++ '(' :: rest)) =
      .name ("Math." ++ name) :: .symbol .leftParen :: lex rest := by
  have hmore : ∀ c ∈ "ath.".toList ++ name.toList, isNamePart c := by
    intro c hc
    rcases List.mem_append.1 hc with hc | hc
    · have hmath : "ath.".toList.all isNamePart := rfl
      exact List.all_eq_true.1 hmath c hc
    · exact isNamePart_of_isCapitalPart (hname c hc)
  have hstop : ∀ c ∈ ('(' :: rest).head?, isNamePart c = false := by
    rintro c hc
    cases hc
    rfl
  have htext : String.ofList ('M' :: ("ath.".toList ++ name.toList)) = "Math." ++ name := by
    rw [← String.ofList_toList (s := "Math." ++ name), String.toList_append]
    rfl
  have hlex := lex_name 'M' _ rfl hmore hstop
  have hparen : lex ('(' :: rest) = .symbol .leftParen :: lex rest := lex_symbol rfl rest
  rw [htext, hparen, List.append_assoc] at hlex
  exact hlex

/-- `=` starts no phrase. -/
theorem head_ne_equals {t : Token} {ts : List Token} {category : Grammar.Category}
    (hlex : lex cs = t :: ts) (ht : Grammar.Starts category t) : cs.head? ≠ some '=' := by
  rcases cs with _ | ⟨c, cs⟩
  · intro h
    cases h
  · intro h
    cases h
    have hscan : scan '=' cs = scanEquals cs := rfl
    rw [lex_cons rfl, hscan] at hlex
    cases hlex
    unfold scanEquals at ht
    split at ht
    · exact ht
    · exact ht
    · exact ht

end Token

namespace Expr

open Token

variable {e : Expr} {cs rest : List Char} {ts : List Token}

/-! ## Trees -/

/-- In front of what a printer puts behind them, the characters are cut into
    the tokens. -/
def Lexes (cs : List Char) (ts : List Token) : Prop :=
  ∀ rest, Follows rest → lex (cs ++ rest) = ts ++ lex rest

theorem Lexes.cons (h : Lexes cs ts) {c : Char} (hc : c ∈ separators) (rest : List Char) :
    lex (cs ++ c :: rest) = ts ++ lex (c :: rest) :=
  h _ (follows_cons hc rest)

theorem lexes_bracketed (c : Grammar.Category) (h : Lexes cs ts) :
    Lexes (bracketed c e cs) (parenthesised c e ts) := by
  intro rest hrest
  unfold bracketed parenthesised within
  split
  · exact h rest hrest
  · rw [List.cons_append, List.append_assoc, List.singleton_append, lex_symbol rfl,
      h.cons (by decide), lex_symbol rfl]
    simp

theorem lexes_intercalate {es : List Expr} (h : ∀ e ∈ es, Lexes e.chars e.tokens) :
    Lexes ([','].intercalate (es.map chars)) ([.symbol .comma].intercalate (es.map tokens)) := by
  induction es with
  | nil => exact fun _ _ => rfl
  | cons e es ih =>
    have hhead := h e List.mem_cons_self
    have htail := ih fun e' he => h e' (List.mem_cons_of_mem _ he)
    by_cases hne : es = []
    · subst hne
      simpa using hhead
    · have hchars : es.map chars ≠ [] := by simpa using hne
      have htokens : es.map tokens ≠ [] := by simpa using hne
      intro rest hrest
      rw [List.map_cons, List.map_cons, List.intercalate_cons_of_ne_nil hchars,
        List.intercalate_cons_of_ne_nil htokens]
      simp only [List.append_assoc, List.cons_append, List.nil_append]
      rw [hhead.cons (by decide), lex_symbol rfl, htail rest hrest]

/-- **A printed tree is cut into its tokens.** -/
theorem lexes_chars (h : WellFormed Number.Unsigned e) : Lexes e.chars e.tokens := by
  induction h with
  | number hn => exact fun _ => lex_number hn
  | string => exact fun rest _ => lex_quoted _ rest
  | boolean => exact fun _ => lex_boolean _
  | reference hname hbrace hmark => exact fun rest _ => lex_braced hname hbrace hmark rest
  | between hreference _ _ _ ihMin ihMax =>
    intro rest hrest
    cases hreference with
    | reference hname hbrace hmark =>
      simp only [chars, tokens, List.append_assoc, List.cons_append, List.nil_append]
      rw [lex_braced hname hbrace hmark, lex_symbol rfl, ihMin.cons (by decide), lex_symbol rfl,
        ihMax.cons (by decide), lex_symbol rfl]
  | glyph _ ih =>
    intro rest hrest
    simp only [chars, tokens, List.append_assoc, List.cons_append, List.nil_append]
    rw [lex_glyph, ih.cons (by decide), lex_symbol rfl]
  | exponent _ _ ih =>
    intro rest hrest
    simp only [chars, tokens, List.append_assoc, List.singleton_append]
    rw [lexes_bracketed _ ih _ (follows_superscript _ rest), lex_superscript _ hrest]
  | @binary op _ _ _ _ ihLeft ihRight =>
    intro rest hrest
    simp only [chars, tokens, List.append_assoc, List.cons_append]
    rw [(lexes_bracketed _ ihLeft).cons (by decide), lex_operator,
      lexes_bracketed _ ihRight rest hrest]
  | @unary op operand hoperand ih =>
    intro rest hrest
    have hlex := lexes_bracketed (e := operand) .signed ih rest hrest
    obtain ⟨t, ts, htokens, ht⟩ := (derives_parenthesised .signed (derives_tokens hoperand)).head
    have hhead := head_ne_equals (hlex.trans (by rw [htokens]; rfl)) ht
    simp only [chars, tokens, List.append_assoc, List.cons_append]
    rw [lex_sign op hhead, hlex]
  | conditional _ _ _ ihCondition ihChosen ihOther =>
    intro rest hrest
    simp only [chars, tokens, List.append_assoc, List.cons_append]
    rw [(lexes_bracketed _ ihCondition).cons (by decide), lex_space, lex_symbol rfl, lex_space,
      ihChosen.cons (by decide), lex_space, lex_symbol rfl, lex_space, ihOther rest hrest]
  | call hname _ ih =>
    intro rest hrest
    simp only [chars, tokens, List.append_assoc, List.cons_append, List.nil_append]
    rw [lex_call hname, allChars_eq_map, allTokens_eq_map, (lexes_intercalate ih).cons (by decide),
      lex_symbol rfl]

end Expr

end ProductFormula
